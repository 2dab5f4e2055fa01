import AssocCache.Proofs.CacheSet.StackMoves
import AssocCache.Proofs.Store.FillCounts

/-!
# Where write-back aware replacement puts new lines

A line that comes in enters the stack at a position that its memory, its access and the
count of its set determine, cut off at the last one (`WriteBackAware.position_of_bringIn`).
The count is that before the fill.  It has no say in which way the line comes into, or which
line goes for it (`entry_of_bringIn`).

The higher the count, the nearer to the front a new line enters, with one exception: an NVM
write-back enters farther from it (`insertionPosition_turns`, `insertion_against_count`).
-/

namespace AssocCache

open Success CacheSet

/-- The way that a line comes into under a stack policy: the first vacant one, or else the
last one of the stack. -/
def CacheSet.entryWay? (set : CacheSet) : Option Nat :=
  set.vacancy.or set.stack.getLast?

namespace WriteBackAware

variable {f : Frame} {index way tag count count' : Nat} {policy policy' after : WriteBackAware}
  {set set' filled : CacheSet} {kind : MemoryKind} {access : AccessKind} {victim : Option Block}

/-- A higher count puts an NVM write-back farther from the front, and any other line nearer to
it. -/
theorem insertionPosition_turns (hle : count ≤ count') (last : Nat) (access : AccessKind)
    (kind : MemoryKind) :
    if access = .writeback ∧ kind = .nvm then
      insertionPosition count last access kind ≤ insertionPosition count' last access kind
    else insertionPosition count' last access kind ≤ insertionPosition count last access kind := by
  have hdiv : ∀ d, count / d ≤ count' / d := fun d => Nat.div_le_div_right hle
  have h2 := hdiv 2
  have h4 := hdiv 4
  have h8 := hdiv 8
  cases access <;> cases kind <;> simp only [insertionPosition, reduceCtorEq, and_false, and_true,
    if_false, if_true, and_self] <;> omega

/-- A new line goes to the vacant way or takes the place of the line at the end of the stack. -/
theorem entry_of_bringIn (h : set.bringIn policy tag kind access = .ok (way, victim, after, filled)) :
    set.entryWay? = some way ∧ victim = set.blocks[way]?.filter (·.valid) := by
  rcases bringIn_cases h with ⟨hvacancy, rfl, -⟩ |
    ⟨chosen, aged, block, left, vacated, hvacancy, hchoice, rfl, hvacate, -⟩
  · obtain ⟨block, hb, hfree⟩ := exists_of_vacancy hvacancy
    rw [entryWay?, hvacancy, hb, Option.filter_some, hfree]
    exact ⟨rfl, rfl⟩
  · obtain ⟨tail, htail, hpure⟩ := bind_eq_ok_iff.1 hchoice
    cases hpure
    obtain ⟨hb, hv, -⟩ := exists_of_vacate hvacate
    rw [entryWay?, hvacancy, hb, Option.filter_some, hv]
    exact ⟨tailWay_eq_ok_iff.1 htail, rfl⟩

/-- Sets with the same blocks in the same order take a line into the same way and make the same
line go, whatever they have counted. -/
theorem entry_congr (hblocks : set'.blocks = set.blocks) (hstack : set'.stack = set.stack)
    {way' : Nat} {victim' : Option Block} {after' : WriteBackAware} {filled' : CacheSet}
    (h : set.bringIn policy tag kind access = .ok (way, victim, after, filled))
    (h' : set'.bringIn policy' tag kind access = .ok (way', victim', after', filled')) :
    way' = way ∧ victim' = victim := by
  obtain ⟨hway, hvictim⟩ := entry_of_bringIn h
  obtain ⟨hway', hvictim'⟩ := entry_of_bringIn h'
  have hentry : set'.entryWay? = set.entryWay? := by
    rw [entryWay?, entryWay?, vacancy, vacancy, hblocks, hstack]
  rw [hentry, hway] at hway'
  obtain rfl := Option.some.inj hway'
  exact ⟨rfl, by rw [hvictim', hvictim, hblocks]⟩

/-- A line that enters a vacant way gets the position that its set has counted for. -/
theorem position_of_accept (hset : set.WellFormed f index)
    (hcount : policy.counters.counterAt index = .ok count)
    (h : set.accept policy way tag kind access = .ok (after, filled)) :
    filled.stackPosition way = .ok (min
      (insertionPosition count (set.associativity - 1) access kind) (set.associativity - 1)) := by
  obtain ⟨block, hb, -, told, entered, hfill, hinsert, -⟩ := accept_eq_ok_iff.1 h
  cases hfill
  obtain ⟨found, hfound, hinsert⟩ := bind_eq_ok_iff.1 hinsert
  obtain ⟨new, hnew, hinsert⟩ := bind_eq_ok_iff.1 hinsert
  obtain ⟨next, -, hinsert⟩ := bind_eq_ok_iff.1 hinsert
  obtain ⟨moved, hmove, hpure⟩ := bind_eq_ok_iff.1 hinsert
  cases hpure
  rw [← hset.index_eq] at hcount
  cases hcount.symm.trans hfound
  rw [blockAt_eq_ok_iff, getElem?_fill_self hb] at hnew
  cases hnew
  have hways : set.associativity = f.geometry.associativity := hset.length_blocks
  have hentered : ((set.put way (block.fill tag kind access.isWrite)).enter tag way).associativity =
      f.geometry.associativity := List.length_set.trans hways
  have hperm : ((set.put way (block.fill tag kind access.isWrite)).enter tag way).stack.Perm
      (List.range f.geometry.associativity) := hset.stack_perm
  rw [hentered] at hmove
  rw [hways]
  exact stackPosition_of_moveTo hperm hmove

/-- A line that comes into a set gets the position that the set has counted for, whether or
not another line goes for it. -/
theorem position_of_bringIn (hset : set.WellFormed f index)
    (hcount : policy.counters.counterAt index = .ok count)
    (h : set.bringIn policy tag kind access = .ok (way, victim, after, filled)) :
    filled.stackPosition way = .ok (min
      (insertionPosition count (set.associativity - 1) access kind) (set.associativity - 1)) := by
  rcases bringIn_cases h with ⟨-, -, haccept⟩ |
    ⟨chosen, aged, block, left, vacated, -, hchoice, -, hvacate, haccept⟩
  · exact position_of_accept hset hcount haccept
  · obtain ⟨tail, -, hpure⟩ := bind_eq_ok_iff.1 hchoice
    cases hpure
    obtain rfl := policy_of_vacate hvacate
    have hvacated := (hset.vacate hvacate).1
    have hsame : vacated.associativity = set.associativity :=
      hvacated.length_blocks.trans hset.length_blocks.symm
    rw [← hsame]
    exact position_of_accept hvacated hcount haccept

theorem Overfills.mono (h : Overfills count access kind) (hle : count ≤ count') :
    Overfills count' access kind :=
  ⟨h.1, h.2.1, Nat.le_trans h.2.2 (Nat.succ_le_succ hle)⟩

/-- A set takes in every line that it does not hold, if its count has room. -/
theorem exists_bringIn (hset : set.WellFormed f index) (hpos : 0 < set.associativity)
    (hcount : policy.counters.counterAt index = .ok count) (hfits : ¬ Overfills count access kind)
    (habsent : set.find tag = none) (hhas : f.geometry.Has ⟨index, tag⟩)
    (hkind : kind = .classify (f.geometry.addressOf ⟨index, tag⟩) f.regionBorder) :
    ∃ way victim after filled,
      set.bringIn policy tag kind access = .ok (way, victim, after, filled) := by
  have hnext := nextCount_eq policy.counterMax count access kind
  rw [if_neg hfits] at hnext
  obtain ⟨⟨way, victim, after, filled⟩, hbring, -⟩ :=
    (coupled_bringIn hset hcount hpos habsent hhas hkind access).exists_ok hnext
  exact ⟨way, victim, after, filled, hbring⟩

/-- Two sets that hold the same blocks in the same order take a line that both can take in into
the same way and make the same line go.  It gets the position that each has counted for. -/
theorem exists_insertions (hset : set.WellFormed f index) (hset' : set'.WellFormed f index)
    (hblocks : set'.blocks = set.blocks) (hstack : set'.stack = set.stack)
    (hpos : 0 < set.associativity) (hcount : policy.counters.counterAt index = .ok count)
    (hcount' : policy'.counters.counterAt index = .ok count')
    (hfits : ¬ Overfills count access kind) (hfits' : ¬ Overfills count' access kind)
    (habsent : set.find tag = none) (hhas : f.geometry.Has ⟨index, tag⟩)
    (hkind : kind = .classify (f.geometry.addressOf ⟨index, tag⟩) f.regionBorder) :
    ∃ way victim after after' filled filled',
      set.bringIn policy tag kind access = .ok (way, victim, after, filled) ∧
      set'.bringIn policy' tag kind access = .ok (way, victim, after', filled') ∧
      filled.stackPosition way = .ok (min
        (insertionPosition count (set.associativity - 1) access kind) (set.associativity - 1)) ∧
      filled'.stackPosition way = .ok (min
        (insertionPosition count' (set.associativity - 1) access kind) (set.associativity - 1)) := by
  have hways : set'.associativity = set.associativity := congrArg List.length hblocks
  have habsent' : set'.find tag = none := by
    rw [hset'.find_eq_scan, scan, hblocks, ← scan, ← hset.find_eq_scan, habsent]
  obtain ⟨way, victim, after, filled, hbring⟩ :=
    exists_bringIn hset hpos hcount hfits habsent hhas hkind
  obtain ⟨way', victim', after', filled', hbring'⟩ :=
    exists_bringIn hset' (hways ▸ hpos) hcount' hfits' habsent' hhas hkind
  obtain ⟨rfl, rfl⟩ := entry_congr hblocks hstack hbring hbring'
  have hposition' := position_of_bringIn hset' hcount' hbring'
  rw [hways] at hposition'
  exact ⟨_, _, after, after', filled, filled', hbring, hbring',
    position_of_bringIn hset hcount hbring, hposition'⟩

/-- Two sets that hold the same blocks in the same order, with counts of which one is at least
the other.  A line that both can take in comes into the same way of both and makes the same
line go.  An NVM write-back enters the set with the higher count at the same position or
farther from the front, and any other line, a DRAM line that comes in on demand among them, at
the same position or nearer to it. -/
theorem insertion_against_count (hset : set.WellFormed f index) (hset' : set'.WellFormed f index)
    (hblocks : set'.blocks = set.blocks) (hstack : set'.stack = set.stack)
    (hpos : 0 < set.associativity) (hcount : policy.counters.counterAt index = .ok count)
    (hcount' : policy'.counters.counterAt index = .ok count') (hle : count ≤ count')
    (hfits : ¬ Overfills count' access kind) (habsent : set.find tag = none)
    (hhas : f.geometry.Has ⟨index, tag⟩)
    (hkind : kind = .classify (f.geometry.addressOf ⟨index, tag⟩) f.regionBorder) :
    ∃ way victim after after' filled filled' position position',
      set.bringIn policy tag kind access = .ok (way, victim, after, filled) ∧
      set'.bringIn policy' tag kind access = .ok (way, victim, after', filled') ∧
      filled.stackPosition way = .ok position ∧ filled'.stackPosition way = .ok position' ∧
      if access = .writeback ∧ kind = .nvm then position ≤ position' else position' ≤ position := by
  obtain ⟨way, victim, after, after', filled, filled', hbring, hbring', hposition, hposition'⟩ :=
    exists_insertions hset hset' hblocks hstack hpos hcount hcount'
      (fun hover => hfits (hover.mono hle)) hfits habsent hhas hkind
  refine ⟨way, victim, after, after', filled, filled', _, _, hbring, hbring', hposition,
    hposition', ?_⟩
  have hturns := insertionPosition_turns hle (set.associativity - 1) access kind
  split at hturns
  · rw [if_pos ‹_›]
    omega
  · rw [if_neg ‹_›]
    omega

/-- The set and the policy of a store after reads of some bytes.  The store has two ways of a
byte, and the memory behind it is NVM from 101 on. -/
def AfterReads (bytes : List Nat) (set : CacheSet) (policy : WriteBackAware) : Prop :=
  ∃ s₀ past s, (Store.ofConfig { Config.ofShape .writeBackAware 2 1 2 with
      regionBorder := some 100 }).result = .ok s₀ ∧
    Store.run (bytes.map (.fill · .read)) s₀ = .ok (past, s) ∧ s.sets[0]? = some set ∧
    s.policy = .writeBackAware policy

namespace AfterReads

variable {bytes : List Nat}

theorem wellFormed (h : AfterReads bytes set policy) :
    set.WellFormed ⟨⟨2, 1, 2, 1, 0, 0, 64, 1⟩, some 100, false⟩ 0 := by
  obtain ⟨s₀, past, s, hbuilt, hrun, hset, -⟩ := h
  have hwell := ((Store.wellFormed_of_ofConfig hbuilt).2.run hrun).sets hset
  cases hbuilt
  exact hwell

theorem of_eval (bytes : List Nat) (blocks : List Block) (stack : List Nat) (count : Nat)
    {s₀ : Store AnyPolicy} (hbuilt : (Store.ofConfig { Config.ofShape .writeBackAware 2 1 2 with
      regionBorder := some 100 }).result = .ok s₀)
    (heval : (fun r => (r.2.sets[0]?.map fun set => (set.blocks, set.stack),
        r.2.fillCount 8 0 r.1)) <$> Store.run (bytes.map (.fill · .read)) s₀ =
      .ok (some (blocks, stack), count)) :
    ∃ set policy, AfterReads bytes set policy ∧ set.blocks = blocks ∧ set.stack = stack ∧
      policy.counters.counterAt 0 = .ok count := by
  obtain ⟨⟨past, s⟩, hrun, heval⟩ := map_eq_ok_iff.1 heval
  obtain ⟨⟨policy, hpolicy, -, hcounters⟩, -⟩ := Store.walked_of_run hbuilt rfl hrun
  obtain ⟨hsets, rfl⟩ := Prod.mk.inj heval
  obtain ⟨set, hset, hlines⟩ := Option.map_eq_some_iff.1 hsets
  obtain ⟨rfl, rfl⟩ := Prod.mk.inj hlines
  have hwell := (Store.wellFormed_of_ofConfig hbuilt).2.run hrun
  have hcount := hcounters 0 (hwell.geometry_eq ▸ hwell.index_lt hset)
  cases hbuilt
  exact ⟨set, policy, ⟨_, past, s, rfl, hrun, hset, hpolicy⟩, rfl, rfl, hcount⟩

/-- Reads of the first eight bytes leave the same lines in the same order as reads of the first
and the last of them, but the set has counted eight fills and not two. -/
theorem exists_counts_apart :
    ∃ set set' policy policy', AfterReads [0, 7] set policy ∧
      AfterReads (List.range 8) set' policy' ∧
      set'.blocks = set.blocks ∧ set'.stack = set.stack ∧ set.associativity = 2 ∧
      policy.counters.counterAt 0 = .ok 2 ∧ policy'.counters.counterAt 0 = .ok 8 ∧
      ∀ tag ∈ [8, 101], set.find tag = none := by
  obtain ⟨set, policy, hafter, hblocks, hstack, hcount⟩ := of_eval [0, 7]
    [⟨0, true, false, 0, 0, .dram, 0⟩, ⟨7, true, false, 0, 1, .dram, 0⟩] [0, 1] 2 rfl
    (by decide +kernel)
  obtain ⟨set', policy', hafter', hblocks', hstack', hcount'⟩ := of_eval (List.range 8)
    [⟨0, true, false, 0, 0, .dram, 0⟩, ⟨7, true, false, 0, 1, .dram, 0⟩] [0, 1] 8 rfl
    (by decide +kernel)
  refine ⟨set, set', policy, policy', hafter, hafter', hblocks'.trans hblocks.symm,
    hstack'.trans hstack.symm, congrArg List.length hblocks, hcount, hcount', ?_⟩
  intro tag htag
  rw [hafter.wellFormed.find_eq_scan, scan, hblocks]
  revert tag
  decide

end AfterReads

/-- With eight fills counted a read of another byte enters nearer to the front than with two,
and a write-back to NVM farther from it. -/
theorem insertion_against_count_of_eight :
    ∃ set set' policy policy', AfterReads [0, 7] set policy ∧
      AfterReads (List.range 8) set' policy' ∧
      (∃ way victim after after' filled filled' position position',
        set.bringIn policy 8 .dram .read = .ok (way, victim, after, filled) ∧
        set'.bringIn policy' 8 .dram .read = .ok (way, victim, after', filled') ∧
        filled.stackPosition way = .ok position ∧ filled'.stackPosition way = .ok position' ∧
        position' ≤ position) ∧
      ∃ way victim after after' filled filled' position position',
        set.bringIn policy 101 .nvm .writeback = .ok (way, victim, after, filled) ∧
        set'.bringIn policy' 101 .nvm .writeback = .ok (way, victim, after', filled') ∧
        filled.stackPosition way = .ok position ∧ filled'.stackPosition way = .ok position' ∧
        position ≤ position' := by
  obtain ⟨set, set', policy, policy', hafter, hafter', hblocks, hstack, hways, hcount, hcount',
    habsent⟩ := AfterReads.exists_counts_apart
  exact ⟨set, set', policy, policy', hafter, hafter',
    insertion_against_count hafter.wellFormed hafter'.wellFormed hblocks hstack
      (by rw [hways]; decide) hcount hcount' (by decide) (by decide) (habsent 8 (by decide))
      ⟨by decide, by decide⟩ (by decide),
    insertion_against_count hafter.wellFormed hafter'.wellFormed hblocks hstack
      (by rw [hways]; decide) hcount hcount' (by decide) (by decide) (habsent 101 (by decide))
      ⟨by decide, by decide⟩ (by decide)⟩

/-- With two fills counted a read enters at the end of the stack and a write-back to NVM in
front, and with eight it is the other way round. -/
theorem insertion_turned_by_eight :
    ∃ set set' policy policy', AfterReads [0, 7] set policy ∧
      AfterReads (List.range 8) set' policy' ∧
      set'.blocks = set.blocks ∧ set'.stack = set.stack ∧
      policy.counters.counterAt 0 = .ok 2 ∧ policy'.counters.counterAt 0 = .ok 8 ∧
      (∃ way victim after after' filled filled',
        set.bringIn policy 8 .dram .read = .ok (way, victim, after, filled) ∧
        set'.bringIn policy' 8 .dram .read = .ok (way, victim, after', filled') ∧
        filled.stackPosition way = .ok 1 ∧ filled'.stackPosition way = .ok 0) ∧
      ∃ way victim after after' filled filled',
        set.bringIn policy 101 .nvm .writeback = .ok (way, victim, after, filled) ∧
        set'.bringIn policy' 101 .nvm .writeback = .ok (way, victim, after', filled') ∧
        filled.stackPosition way = .ok 0 ∧ filled'.stackPosition way = .ok 1 := by
  obtain ⟨set, set', policy, policy', hafter, hafter', hblocks, hstack, hways, hcount, hcount',
    habsent⟩ := AfterReads.exists_counts_apart
  have hread := exists_insertions hafter.wellFormed hafter'.wellFormed hblocks hstack
    (by rw [hways]; decide) hcount hcount' (show ¬ Overfills 2 .read .dram by decide) (by decide)
    (habsent 8 (by decide)) ⟨by decide, by decide⟩ (by decide)
  have hwritten := exists_insertions hafter.wellFormed hafter'.wellFormed hblocks hstack
    (by rw [hways]; decide) hcount hcount' (show ¬ Overfills 2 .writeback .nvm by decide)
    (by decide) (habsent 101 (by decide)) ⟨by decide, by decide⟩ (by decide)
  rw [hways] at hread hwritten
  exact ⟨set, set', policy, policy', hafter, hafter', hblocks, hstack, hcount, hcount', hread,
    hwritten⟩

end WriteBackAware

end AssocCache
