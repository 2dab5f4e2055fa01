import AssocCache.Proofs.CacheSet.Entries
import AssocCache.Proofs.Config.Consistent
import AssocCache.Proofs.Policy.FrontMoving
import AssocCache.Proofs.RecencyLists.Trusting
import AssocCache.Proofs.Store.Listed
import AssocCache.Proofs.Store.LongRuns
import AssocCache.Proofs.Store.Opened

/-!
# Runs of stores that distrust some lines

The stores of bimodal insertion and of thrash-resistant replacement are machines of lists: the
lines of a set, in the order of its recency stack, are the list of the set, and the rule of
the policy says at which end a line comes in (`trusting_lists_of_run`).  The vacant ways that
the stack has too, and the ways of the lines, are not seen.
-/

/-!
## The lines of a set in the order of the stack

`CacheSet.lineup` lists the valid blocks of a set as its recency stack has them.  The stack
has the vacant ways too, and these may stand anywhere in it.  Seen without them, a way whose
line is touched moves to the front (`lineup_of_touch`), a line that leaves is taken out
(`lineup_of_clear`), and a line that comes into a vacant way comes in at the end to which
its way moves, from wherever the way was (`lineup_of_fill`).  The last way of a full set is
that of the last line (`getLast?_lineup`).
-/

namespace AssocCache.CacheSet

variable {f : Frame} {index way : Nat} {set told : CacheSet} {block block' : Block}

/-- The block of a way, if it carries a line. -/
def resident? (set : CacheSet) (way : Nat) : Option Block := set.blocks[way]?.filter (·.valid)

/-- The valid blocks in the order of the recency stack. -/
def lineup (set : CacheSet) : List Block := set.stack.filterMap set.resident?

theorem resident?_eq_some_iff :
    set.resident? way = some block ↔ set.blocks[way]? = some block ∧ block.valid = true := by
  simp [resident?, Option.filter_eq_some_iff]

theorem resident?_of_invalid (hb : set.blocks[way]? = some block) (hv : block.valid = false) :
    set.resident? way = none := by
  simp [resident?, hb, Option.filter, hv]

/-- A set without lines. -/
theorem lineup_eq_nil (h : ∀ block ∈ set.blocks, block.valid = false) : set.lineup = [] := by
  refine List.filterMap_eq_nil_iff.2 fun way _ => Option.eq_none_iff_forall_ne_some.2 ?_
  intro block hresident
  obtain ⟨hb, hv⟩ := resident?_eq_some_iff.1 hresident
  rw [h block (List.mem_of_getElem? hb)] at hv
  cases hv

theorem filterMap_getElem?_range {α : Type} (members : List α) (n : Nat) :
    (List.range n).filterMap (members[·]?) = members.take n := by
  induction n with
  | zero => rfl
  | succ n ih =>
    rw [List.range_succ, List.filterMap_append, ih, List.take_add_one]
    cases hget : members[n]? <;> simp [hget]

/-- The stack has the way of every block. -/
theorem WellFormed.lists_lineup (hset : set.WellFormed f index) : set.Lists set.lineup := by
  have hall := filterMap_getElem?_range set.blocks f.geometry.associativity
  rw [← hset.length_blocks, List.take_length] at hall
  have hblocks : (List.range set.blocks.length).filterMap set.resident? =
      set.blocks.filter (·.valid) := by
    show (List.range set.blocks.length).filterMap
      (fun way => set.blocks[way]?.filter (·.valid)) = _
    rw [← List.filter_filterMap, hall]
  have hperm := hset.stack_perm.filterMap set.resident?
  rw [← hset.length_blocks, hblocks] at hperm
  exact hperm

/-! ### Ways that move -/

/-- The lines of the other ways do not change with a block. -/
theorem filterMap_erase_congr (hnodup : set.stack.Nodup)
    (htold : told.blocks = set.blocks.set way block') :
    (set.stack.erase way).filterMap told.resident? =
      (set.stack.erase way).filterMap set.resident? := by
  refine List.filterMap_congr fun other hother => ?_
  have hne : way ≠ other := by
    rintro rfl
    exact hnodup.not_mem_erase hother
  rw [resident?, resident?, htold, List.getElem?_set_ne hne]

/-- A way without a line is not seen in the list. -/
theorem filterMap_erase_of_invalid (hmem : way ∈ set.stack) (hb : set.blocks[way]? = some block)
    (hv : block.valid = false) :
    (set.stack.erase way).filterMap set.resident? = set.lineup := by
  obtain ⟨before, after, -, hstack, herase⟩ := List.exists_erase_eq hmem
  rw [herase, lineup, hstack, List.filterMap_append, List.filterMap_append,
    List.filterMap_cons_none (resident?_of_invalid hb hv)]

/-- The list without the line of a way. -/
theorem filterMap_erase_of_valid (hset : set.WellFormed f index)
    (hb : set.blocks[way]? = some block) (hv : block.valid = true) :
    (set.stack.erase way).filterMap set.resident? = set.lineup.erase block := by
  obtain ⟨before, after, hnot, hstack, herase⟩ :=
    List.exists_erase_eq (hset.mem_stack_of_getElem? hb)
  have hfirst : block ∉ before.filterMap set.resident? := by
    intro hmem
    obtain ⟨other, hother, hresident⟩ := List.mem_filterMap.1 hmem
    obtain ⟨hb', -⟩ := resident?_eq_some_iff.1 hresident
    have hway : other = way :=
      (hset.blocks hb').wayIndex_eq.symm.trans (hset.blocks hb).wayIndex_eq
    exact hnot (hway ▸ hother)
  rw [herase, lineup, hstack, List.filterMap_append, List.filterMap_append,
    List.filterMap_cons_some (resident?_eq_some_iff.2 ⟨hb, hv⟩),
    List.erase_append_right _ hfirst, List.erase_cons_head]

/-- A way with a line moves to one of the ends of the stack. -/
theorem lineup_of_place (hnodup : set.stack.Nodup) (hway : way < set.blocks.length)
    (htold : told.blocks = set.blocks.set way block') (hv : block'.valid = true) (front : Bool)
    (hstack : told.stack = Recency.place set.stack way (if front then 0 else set.stack.length)) :
    told.lineup = enlist front block' ((set.stack.erase way).filterMap set.resident?) := by
  have hresident : told.resident? way = some block' := by
    rw [resident?_eq_some_iff, htold, List.getElem?_set_self hway]
    exact ⟨rfl, hv⟩
  rw [← filterMap_erase_congr hnodup htold, lineup, hstack]
  cases front with
  | true =>
    rw [if_pos rfl, Recency.place_zero, List.filterMap_cons_some hresident]
    rfl
  | false =>
    rw [if_neg Bool.false_ne_true, Recency.place_length_self, List.filterMap_append,
      List.filterMap_cons_some hresident]
    rfl

/-- A way whose line is touched moves to the front. -/
theorem lineup_of_touch (hset : set.WellFormed f index) (hb : set.blocks[way]? = some block)
    (hv : block.valid = true) (htold : told.blocks = set.blocks.set way block')
    (hv' : block'.valid = true) (hstack : told.stack = Recency.place set.stack way 0) :
    told.lineup = block' :: set.lineup.erase block := by
  have hway := (List.getElem?_eq_some_iff.1 hb).1
  rw [lineup_of_place hset.nodup_stack hway htold hv' true hstack,
    filterMap_erase_of_valid hset hb hv]
  rfl

/-- A line comes into a vacant way, which moves to one of the ends. -/
theorem lineup_of_fill (hset : set.WellFormed f index) (hb : set.blocks[way]? = some block)
    (hv : block.valid = false) (htold : told.blocks = set.blocks.set way block')
    (hv' : block'.valid = true) (front : Bool)
    (hstack : told.stack = Recency.place set.stack way (if front then 0 else set.stack.length)) :
    told.lineup = enlist front block' set.lineup := by
  have hway := (List.getElem?_eq_some_iff.1 hb).1
  rw [lineup_of_place hset.nodup_stack hway htold hv' front hstack,
    filterMap_erase_of_invalid (hset.mem_stack_of_getElem? hb) hb hv]

/-- A line leaves, and its way moves to the end. -/
theorem lineup_of_clear (hset : set.WellFormed f index) (hb : set.blocks[way]? = some block)
    (hv : block.valid = true) (htold : told.blocks = set.blocks.set way block.clear)
    (hstack : told.stack = Recency.place set.stack way set.stack.length) :
    told.lineup = set.lineup.erase block := by
  have hway := (List.getElem?_eq_some_iff.1 hb).1
  have hvacant : told.resident? way = none :=
    resident?_of_invalid (by rw [htold, List.getElem?_set_self hway]) rfl
  rw [← filterMap_erase_of_valid hset hb hv, ← filterMap_erase_congr hset.nodup_stack htold,
    lineup, hstack, Recency.place_length_self, List.filterMap_append,
    List.filterMap_cons_none hvacant, List.filterMap_nil, List.append_nil]

/-- The last way of a set is that of the last line, if it has one. -/
theorem getLast?_lineup (hlast : set.stack.getLast? = some way)
    (hb : set.blocks[way]? = some block) (hv : block.valid = true) :
    set.lineup.getLast? = some block := by
  obtain ⟨before, hstack⟩ := List.getLast?_eq_some_iff.1 hlast
  rw [lineup, hstack, List.filterMap_append,
    List.filterMap_cons_some (resident?_eq_some_iff.2 ⟨hb, hv⟩), List.filterMap_nil]
  exact List.getLast?_concat

end AssocCache.CacheSet

/-!
## Policies that distrust some lines

The two stack policies that put a line that comes in at one end of the stack or at the other.
`Policy.Distrusting` says so of a policy, with a rule for the ends, as long as the policy
follows the progress of the store in what it counts.

Such a policy keeps the lines of a set in the order of the stack
(`Policy.Distrusting.listing`).  The rule of bimodal insertion counts the fills of the whole
store (`Bimodal.trust`), and that of thrash-resistant replacement the touches of each set
(`ThrashResistant.trust`).  What the policies store is the remainder of these counts.
-/

namespace AssocCache

open Success CacheSet

namespace Policy

variable {π : Type} [Policy π]

/-- While the policy follows the progress of the store for a set, it moves a way that is hit
to the front of the stack, a way whose line leaves to the end, and a way that a line comes
into to the end that the rule says.  It gives up the last way. -/
structure Distrusting (rule : TrustRule) (Follows : π → Progress → Nat → Prop) : Prop where
  onHit {policy : π} {p : Progress} {set : CacheSet} {way : Nat} :
    Follows policy p set.index → way ∈ set.stack →
    ∃ policy', Policy.onHit policy set way = .ok (policy', set.restack way 0) ∧
      ∀ index, Follows policy p index → Follows policy' (p.hit set.index) index
  arrival {f : Frame} {index way : Nat} {policy : π} {p : Progress} {set filled : CacheSet}
      {block : Block} {front : Bool} (tag : Nat) (kind : MemoryKind) (access : AccessKind) :
    set.WellFormed f index → Follows policy p index →
    set.blocks[way]? = some block → block.valid = false →
    filled = (set.put way (block.fill tag kind access.isWrite)).enter tag way →
    front = rule (p.fill index).fills ((p.fill index).touches index) kind
      (set.lineup.map (·.kind)) →
    ∃ told policy', Policy.onFill policy filled way = .ok (told, filled) ∧
      Policy.onInsert told filled way access =
        .ok (policy', filled.restack way (if front then 0 else set.stack.length)) ∧
      ∀ other, Follows policy p other → Follows policy' (p.fill index) other
  onInvalidate {policy : π} {set : CacheSet} {way : Nat} : way ∈ set.stack →
    Policy.onInvalidate policy set way = .ok (policy, set.restack way set.stack.length)
  chooseVictim {policy : π} {set : CacheSet} {way : Nat} :
    set.stack.getLast? = some way → Policy.chooseVictim policy set = .ok (way, policy, set)

namespace Distrusting

/-- The lines of a set are in the order of its stack. -/
def Keeps (Follows : π → Progress → Nat → Prop) (policy : π) (p : Progress) (set : CacheSet)
    (order : List Block) : Prop :=
  Follows policy p set.index ∧ order = set.lineup

variable {rule : TrustRule} {Follows : π → Progress → Nat → Prop} {f : Frame}
  {index way tag : Nat} {policy policy' : π} {p p' : Progress} {set set' : CacheSet}
  {block : Block} {kind : MemoryKind}

omit [Policy π] in
/-- A step on one set that leads to the lines of its stack. -/
theorem leads_of_lineup {order' : List Block} (hlineup : set'.lineup = order')
    (hindex : set'.index = index) (hfollows : Follows policy p index)
    (hretains : ∀ other, Follows policy p other → Follows policy' p' other) :
    Leads (Keeps Follows) index policy p policy' p' set' order' where
  here := by
    rw [Keeps, hindex]
    exact ⟨hretains index hfollows, hlineup.symm⟩
  elsewhere _ hkeeps := ⟨hretains _ hkeeps.1, hkeeps.2⟩

theorem hit_ok (hm : Distrusting rule Follows) (hset : set.WellFormed f index)
    (hfollows : Follows policy p index) (hb : set.blocks[way]? = some block)
    (hv : block.valid = true) (access : AccessKind) :
    ∃ policy' set', set.hit policy way access = .ok (policy', set') ∧
      Leads (Keeps Follows) index policy p policy' (p.hit index) set'
        (block.touch access :: set.lineup.erase block) := by
  obtain rfl := hset.index_eq
  have hmem : way ∈ (set.put way (block.touch access)).stack := hset.mem_stack_of_getElem? hb
  have hhere : Follows policy p (set.put way (block.touch access)).index := hfollows
  obtain ⟨policy', hhit, hretains⟩ := hm.onHit hhere hmem
  have hlineup : ((set.put way (block.touch access)).restack way 0).lineup =
      block.touch access :: set.lineup.erase block :=
    lineup_of_touch hset hb hv rfl hv rfl
  rw [← hit_eq hb hv] at hhit
  exact ⟨policy', _, hhit, leads_of_lineup hlineup rfl hfollows hretains⟩

theorem accept_ok (hm : Distrusting rule Follows) (hset : set.WellFormed f index)
    (hfollows : Follows policy p index) (hb : set.blocks[way]? = some block)
    (hv : block.valid = false) (habsent : ∀ other, ¬ set.Carries other tag)
    (hhas : f.geometry.Has ⟨index, tag⟩)
    (hkind : kind = .classify (f.geometry.addressOf ⟨index, tag⟩) f.regionBorder)
    (access : AccessKind) :
    ∃ policy' set', set.accept policy way tag kind access = .ok (policy', set') ∧
      Leads (Keeps Follows) index policy p policy' (p.fill index) set'
        (enlist (rule (p.fill index).fills ((p.fill index).touches index) kind
          (set.lineup.map (·.kind))) (block.fill tag kind access.isWrite) set.lineup) := by
  obtain ⟨filled, hfilled⟩ : ∃ filled, filled =
    (set.put way (block.fill tag kind access.isWrite)).enter tag way := ⟨_, rfl⟩
  obtain ⟨front, hfront⟩ : ∃ front, front = rule (p.fill index).fills
    ((p.fill index).touches index) kind (set.lineup.map (·.kind)) := ⟨_, rfl⟩
  obtain ⟨told, policy', hfill, hinsert, hretains⟩ :=
    hm.arrival tag kind access hset hfollows hb hv hfilled hfront
  have hwell : filled.WellFormed f index := by
    rw [hfilled, hkind]
    exact hset.fill hb hv habsent hhas access.isWrite
  have hmem : way ∈ filled.stack := by
    rw [hfilled]
    exact hset.mem_stack_of_getElem? hb
  have hunique : (filled.restack way (if front then 0 else set.stack.length)).checkUniqueTags =
      .ok () := (hwell.adjusted (adjusted_restack hmem _)).checkUniqueTags_ok
  have hlineup : (filled.restack way (if front then 0 else set.stack.length)).lineup =
      enlist front (block.fill tag kind access.isWrite) set.lineup := by
    subst hfilled
    exact lineup_of_fill hset hb hv rfl rfl front rfl
  rw [← hfront]
  refine ⟨policy', _, ?_, leads_of_lineup hlineup hwell.index_eq hfollows hretains⟩
  rw [accept_of_vacant hb hv, ← hfilled]
  exact bind_eq_ok_iff.2 ⟨_, hfill, bind_eq_ok_iff.2 ⟨_, hinsert,
    bind_eq_ok_iff.2 ⟨(), hunique, rfl⟩⟩⟩

theorem vacate_ok (hm : Distrusting rule Follows) (hset : set.WellFormed f index)
    (hfollows : Follows policy p index) (hb : set.blocks[way]? = some block)
    (hv : block.valid = true) :
    ∃ policy' set', set.vacate policy way = .ok (some block, policy', set') ∧
      Leads (Keeps Follows) index policy p policy' p set' (set.lineup.erase block) := by
  have hhook : Policy.onInvalidate policy set way =
      .ok (policy, set.restack way set.stack.length) :=
    hm.onInvalidate (hset.mem_stack_of_getElem? hb)
  have hlineup :
      (((set.restack way set.stack.length).put way block.clear).forget block.tag).lineup =
        set.lineup.erase block := lineup_of_clear hset hb hv rfl rfl
  have hvacate : set.vacate policy way = .ok (some block, policy, _) :=
    vacate_eq_ok_iff.2 ⟨block, hb, .inl ⟨hv, rfl, _, block, hhook, hb, rfl⟩⟩
  exact ⟨policy, _, hvacate, leads_of_lineup hlineup hset.index_eq hfollows fun _ h => h⟩

/-- The lines of a set are kept in the order of the stack. -/
theorem listing (hm : Distrusting rule Follows) (f : Frame) :
    Listing f rule (Keeps Follows) where
  lists hset h := by
    rw [h.2]
    exact hset.lists_lineup
  hit {index way policy p set order block} access hset h hb hv := by
    obtain ⟨hfollows, rfl⟩ := h
    rw [hset.index_eq] at hfollows
    obtain ⟨policy', set', hhit, hleads⟩ := hm.hit_ok hset hfollows hb hv access
    rw [hhit]
    exact .ok ⟨block.touch access, rfl, rfl, hleads⟩
  accept {index way tag policy p set order kind block} access hset h hb hv habsent hhas hkind := by
    obtain ⟨hfollows, rfl⟩ := h
    rw [hset.index_eq] at hfollows
    obtain ⟨policy', set', haccept, hleads⟩ :=
      hm.accept_ok hset hfollows hb hv habsent hhas hkind access
    rw [haccept]
    exact .ok ⟨block.fill tag kind access.isWrite, rfl, rfl, hleads⟩
  vacate hset h hb hv := by
    obtain ⟨hfollows, rfl⟩ := h
    rw [hset.index_eq] at hfollows
    obtain ⟨policy', set', hvacate, hleads⟩ := hm.vacate_ok hset hfollows hb hv
    rw [hvacate]
    exact .ok ⟨rfl, hleads⟩
  chooseVictim {index policy p set order} hset h hpos hfull := by
    obtain ⟨-, rfl⟩ := h
    obtain ⟨way, htail, hlt⟩ := hset.tailWay_ok hpos
    have hlast := tailWay_eq_ok_iff.1 htail
    have hb := List.getElem?_eq_getElem hlt
    have hv := hfull _ (List.mem_of_getElem? hb)
    exact ⟨way, _, hm.chooseVictim hlast, hb, getLast?_lineup hlast hb hv⟩

end Distrusting

end Policy

/-! ### Bimodal insertion -/

namespace Bimodal

/-- One in so many fills of the store is trusted. -/
def trust (interval : Nat) : TrustRule := fun fills _ _ _ => decide (interval ∣ fills)

/-- The policy has counted the fills of the store, up to whole intervals. -/
structure Follows (interval : Nat) (policy : Bimodal) (p : Progress) (index : Nat) : Prop where
  interval_eq : policy.interval = interval
  fills_eq : policy.fills = p.fills % interval

theorem follows_start {interval : Nat} (hpos : 0 < interval) (index : Nat) :
    Follows interval (start interval) .start index where
  interval_eq := Nat.max_eq_left hpos
  fills_eq := (Nat.zero_mod interval).symm

theorem distrusting {interval : Nat} (hpos : 0 < interval) (hlt : interval < 2 ^ 32) :
    Policy.Distrusting (trust interval) (Follows interval) where
  onHit {policy p set way} _ hmem := by
    refine ⟨policy, bind_eq_ok_iff.2 ⟨_, moveTo_eq hmem 0, rfl⟩, fun _ h => ?_⟩
    exact ⟨h.interval_eq, h.fills_eq⟩
  arrival {f index way policy p set filled block front} tag kind access hset hfollows hb hv
      hfilled hfront := by
    obtain ⟨rfl, hfills⟩ := hfollows
    have hless : policy.fills < policy.interval := by
      rw [hfills]
      exact Nat.mod_lt _ hpos
    have hmem : way ∈ filled.stack := by
      rw [hfilled]
      exact hset.mem_stack_of_getElem? hb
    have hinsert := onInsert_eq hmem (Nat.lt_of_le_of_lt hless hlt) access
    -- The fill is the last one of an interval if it is a multiple of the interval.
    have hend : policy.interval ≤ policy.fills + 1 ↔ front = true := by
      rw [hfills, le_mod_add_one_iff hpos, hfront, trust, decide_eq_true_eq]
      rfl
    refine ⟨policy, policy.counted, rfl, ?_, fun other h => ⟨rfl, ?_⟩⟩
    · simp only [hend] at hinsert
      rw [hinsert, hfilled]
      rfl
    · rw [fills_counted hless, h.fills_eq, Nat.mod_add_mod]
      rfl
  onInvalidate {policy set way} hmem :=
    bind_eq_ok_iff.2 ⟨_, moveTo_eq hmem set.stack.length, rfl⟩
  chooseVictim hlast := bind_eq_ok_iff.2 ⟨_, tailWay_eq_ok_iff.2 hlast, rfl⟩

end Bimodal

/-! ### Thrash-resistant replacement -/

namespace ThrashResistant

/-- A line is trusted if it comes in on the interval of its set, or if it is of NVM and a line
of DRAM is there. -/
def trust (interval : Nat) : TrustRule := fun _ touches kind others =>
  touches % (interval + 1) == interval || kind == .nvm && others.contains .dram

theorem trust_eq_true_iff {interval fills touches : Nat} {kind : MemoryKind}
    {others : List MemoryKind} : trust interval fills touches kind others = true ↔
      touches % (interval + 1) = interval ∨ .dram ∈ others ∧ kind = .nvm := by
  rw [trust, Bool.or_eq_true, Bool.and_eq_true, beq_iff_eq, beq_iff_eq, List.contains_iff_mem,
    and_comm]

/-- The policy has counted the touches of the set, up to whole runs of its interval. -/
structure Follows (interval : Nat) (policy : ThrashResistant) (p : Progress) (index : Nat) :
    Prop where
  interval_eq : policy.intervals.interval = interval
  counter_eq : policy.intervals.counters.counterAt index =
    .ok (p.touches index % (interval + 1))

theorem follows_start {numSets interval index : Nat} {policy : ThrashResistant}
    (h : start numSets interval = .ok policy) (hindex : index < numSets) :
    Follows interval policy .start index where
  interval_eq := (intervals_of_start h hindex).1
  counter_eq := by
    rw [(intervals_of_start h hindex).2]
    exact congrArg Except.ok (Nat.zero_mod _).symm

/-- A touch is one more of its set. -/
theorem Follows.touch {interval : Nat} {policy : ThrashResistant} {p : Progress} {set : CacheSet}
    (h : Follows interval policy p set.index) :
    ∃ touched, policy.touch set = .ok touched ∧ ∀ index,
      Follows interval policy p index → Follows interval touched (p.hit set.index) index := by
  obtain ⟨touched, htouch, hinterval, hcounters⟩ := touch_eq h.counter_eq
  refine ⟨touched, htouch, fun index hindex => ⟨hinterval.trans hindex.interval_eq, ?_⟩⟩
  rw [hcounters, Progress.touches_hit]
  split
  · rw [h.interval_eq, Intervals.next_mod]
  · exact hindex.counter_eq

/-- The other blocks of DRAM are those of the lines that were there before. -/
theorem holdsOtherDram_fill {f : Frame} {index way : Nat} {set : CacheSet} {block : Block}
    (hset : set.WellFormed f index) (hb : set.blocks[way]? = some block) (hv : block.valid = false)
    (tag : Nat) (kind : MemoryKind) (dirty : Bool) :
    holdsOtherDram ((set.put way (block.fill tag kind dirty)).enter tag way) way =
      (set.lineup.map (·.kind)).contains .dram := by
  rw [Bool.eq_iff_iff, holdsOtherDram, List.any_eq_true, List.contains_iff_mem, List.mem_map]
  simp only [Bool.and_eq_true, bne_iff_ne, beq_iff_eq]
  constructor
  · rintro ⟨found, hmem, ⟨hother, hvalid⟩, hdram⟩
    rcases List.mem_or_eq_of_mem_set hmem with hold | rfl
    · obtain ⟨other, hfound⟩ := List.getElem?_of_mem hold
      exact ⟨found, hset.lists_lineup.mem_iff.2 ⟨other, hfound, hvalid⟩, hdram⟩
    · exact absurd (hset.blocks hb).wayIndex_eq hother
  · rintro ⟨found, hmem, hdram⟩
    obtain ⟨other, hfound, hvalid⟩ := hset.lists_lineup.mem_iff.1 hmem
    have hne : way ≠ other := by
      rintro rfl
      rw [Option.some.inj (hb.symm.trans hfound), hvalid] at hv
      cases hv
    refine ⟨found, ?_, ⟨?_, hvalid⟩, hdram⟩
    · have hget : (set.blocks.set way (block.fill tag kind dirty))[other]? = some found := by
        rw [List.getElem?_set_ne hne, hfound]
      exact List.mem_of_getElem? hget
    · rw [(hset.blocks hfound).wayIndex_eq]
      exact Ne.symm hne

theorem distrusting (interval : Nat) :
    Policy.Distrusting (trust interval) (Follows interval) where
  onHit hfollows hmem := by
    obtain ⟨touched, htouch, hretains⟩ := hfollows.touch
    refine ⟨touched, ?_, hretains⟩
    exact bind_eq_ok_iff.2 ⟨_, htouch, bind_eq_ok_iff.2 ⟨_, moveTo_eq hmem 0, rfl⟩⟩
  arrival {f index way policy p set filled block front} tag kind access hset hfollows hb hv
      hfilled hfront := by
    obtain rfl : filled.index = index := by
      rw [hfilled]
      exact hset.index_eq
    obtain ⟨touched, htouch, hretains⟩ := hfollows.touch
    have hmem : way ∈ filled.stack := by
      rw [hfilled]
      exact hset.mem_stack_of_getElem? hb
    have hnodup : filled.stack.Nodup := by
      rw [hfilled]
      exact hset.nodup_stack
    have hentered : filled.blocks[way]? = some (block.fill tag kind access.isWrite) := by
      rw [hfilled]
      exact getElem?_fill_self hb _ tag
    obtain ⟨hinterval, hcounter⟩ := hretains _ hfollows
    have hcomplete : touched.intervals.isComplete filled.index = .ok _ :=
      bind_eq_ok_iff.2 ⟨_, hcounter, rfl⟩
    have hinsert := onInsert_eq hmem hnodup hentered hcomplete access
    have hend : ((p.hit filled.index).touches filled.index % (interval + 1) ==
          touched.intervals.interval) = true ∨
        holdsOtherDram filled way = true ∧ (block.fill tag kind access.isWrite).kind = .nvm ↔
          front = true := by
      rw [hinterval, beq_iff_eq, hfilled, holdsOtherDram_fill hset hb hv, List.contains_iff_mem,
        ← hfilled, hfront, trust_eq_true_iff]
      rfl
    refine ⟨touched, touched, bind_eq_ok_iff.2 ⟨_, htouch, rfl⟩, ?_, fun other h => ?_⟩
    · simp only [hend] at hinsert
      rw [hinsert, hfilled]
      rfl
    · obtain ⟨hinterval', hcounter'⟩ := hretains other h
      exact ⟨hinterval', hcounter'⟩
  onInvalidate {policy set way} hmem :=
    bind_eq_ok_iff.2 ⟨_, moveTo_eq hmem set.stack.length, rfl⟩
  chooseVictim hlast := bind_eq_ok_iff.2 ⟨_, tailWay_eq_ok_iff.2 hlast, rfl⟩

end ThrashResistant

end AssocCache

/-! ## Runs -/

namespace AssocCache

open Success

/-- The rule of trust that a configuration describes, if its policy has one. -/
def Config.trustRule? (c : Config) : Option TrustRule :=
  match c.policy with
  | .bimodal => some (Bimodal.trust c.params.bimodalInterval.toNat)
  | .thrashResistant => some (ThrashResistant.trust c.params.thrashInterval.toNat)
  | _ => none

namespace Store

variable {c : Config} {s t : Store AnyPolicy} {rule : TrustRule} {calls : List Call}

/-- The list of each set has the lines of the set, in the order of the stack, and no more of
them than there are ways. -/
def LinesUp (g : Geometry) (t : Store AnyPolicy) (m : TrustingLists) : Prop :=
  ∀ index < g.numSets, ∃ set, t.sets[index]? = some set ∧
    m.lists index = set.lineup.map (Block.entry g index) ∧
    (m.lists index).length ≤ g.associativity

/-- A run of a store whose policy distrusts some lines is a run of the lists under its rule,
or ends with a counter that leaves its range. -/
theorem reaches_run_distrusting {policy : AnyPolicy}
    {Follows : policy.opened.π → Progress → Nat → Prop} (hm : Policy.Distrusting rule Follows)
    (hcreate : (create c policy).result = .ok s)
    (hfollows : ∀ index < s.geometry.numSets, Follows policy.opened.value .start index)
    (calls : List Call) :
    let m := TrustingLists.empty s.geometry (c.regionBorder.map UInt64.toNat) rule
    Reaches Overflows
      (fun x => x.1.map (fun exchange => exchange.answer.map Reply.sight) = (m.run calls).1 ∧
        LinesUp s.geometry x.2 (m.run calls).2)
      (run calls s) := by
  rw [← AnyPolicy.close_opened policy] at hcreate
  obtain ⟨s₀, hcreate₀, hgeometry, hcoupled⟩ := AnyPolicy.run_opened policy _ hcreate
  rw [hgeometry] at hfollows ⊢
  have hkeeps : ∀ set : CacheSet, AnyPolicy.Untouched set → set.index < s₀.geometry.numSets →
      Policy.Distrusting.Keeps Follows policy.opened.value .start set [] := by
    intro set huntouched hindex
    refine ⟨hfollows _ hindex, (CacheSet.lineup_eq_nil ?_).symm⟩
    exact fun block hblock => (huntouched block hblock).1
  have hlisted : Listed _ rule _ s₀ _ := listed_of_create hcreate₀ hkeeps
  refine (hcoupled calls).reaches (hlisted.run (hm.listing _) calls) ?_
  rintro ⟨history, t⟩ ⟨history', t'⟩ ⟨hanswers, hlisted'⟩ ⟨hhistory, -, hsets⟩
  dsimp only at hanswers hlisted' hhistory hsets ⊢
  rw [hhistory]
  refine ⟨hanswers, fun index hindex => ?_⟩
  obtain ⟨set, hset⟩ := hlisted'.wellFormed.exists_set hindex
  obtain ⟨order, ⟨-, rfl⟩, hlist⟩ := hlisted'.lists hset
  have hwell := hlisted'.wellFormed.sets hset
  refine ⟨set, by rw [hsets, hset], hlist, ?_⟩
  rw [hlist]
  exact (hwell.lists_lineup.entries hlisted'.wellFormed.valid hwell).1

/-- A run succeeds with what it leads to, or it is long and a counter leaves its range. -/
theorem run_cases_of_reaches {P : List Exchange × Store AnyPolicy → Prop}
    (hbuilt : (ofConfig c).result = .ok s) (hroomless : s.policy.countsTouches = false)
    (h : Reaches Overflows P (run calls s)) :
    (∃ history t, run calls s = .ok (history, t) ∧ P (history, t)) ∨
      2 ^ 63 ≤ calls.length ∧ run calls s = .error (.overflow .add) := by
  rcases hrun : run calls s with fault | ⟨history, t⟩
  · have hfault : fault = .overflow .add := h.of_error hrun
    exact .inr ⟨long_of_fault hbuilt hroomless hrun, by rw [hfault]⟩
  · exact .inl ⟨history, t, rfl, h.of_ok hrun⟩

/-- Under bimodal insertion and thrash-resistant replacement the valid lines of each set, in
the order of the recency stack, are lists as the machine keeps them.  A hit moves a line to
the front, a fill into a full list makes the last line leave and reports it, an invalidation
takes a line out, and a line that comes in goes to the front or to the back.  Under bimodal
insertion it goes to the front if the number of fills of the store, with this one, is a
multiple of the interval, and under thrash-resistant replacement if it comes in on the
interval of its set, or is of NVM and joins a line of DRAM.  Every answer is that of the
machine.  Only a counter that leaves its range ends a run, which takes at least `2 ^ 63`
calls. -/
theorem trusting_lists_of_run (hbuilt : (ofConfig c).result = .ok s)
    (hrule : c.trustRule? = some rule) (calls : List Call) :
    let m := TrustingLists.empty s.geometry (c.regionBorder.map UInt64.toNat) rule
    (∃ history t, run calls s = .ok (history, t) ∧
        history.map (fun exchange => exchange.answer.map Reply.sight) = (m.run calls).1 ∧
        LinesUp s.geometry t (m.run calls).2) ∨
      2 ^ 63 ≤ calls.length ∧ run calls s = .error (.overflow .add) := by
  obtain ⟨geometry, policy, hgeometry, hnamed, hcreate⟩ := ofConfig_eq_ok_iff.1 hbuilt
  have hshape := geometry_of_create hcreate hgeometry
  have hpolicy := policy_of_create hcreate
  unfold Config.trustRule? at hrule
  unfold AnyPolicy.ofConfig at hnamed
  cases hkind : c.policy <;> simp only [hkind] at hrule hnamed
  case bimodal =>
    cases hrule
    cases hnamed
    have hpos : 0 < c.params.bimodalInterval.toNat := by
      obtain ⟨_, hconsistent, -⟩ := Config.geometry_eq_ok_iff.1 hgeometry
      have hrange := hconsistent.settings
      rw [Config.SettingsInRange, hkind] at hrange
      exact hrange
    have hroomless : s.policy.countsTouches = false := by rw [hpolicy]; rfl
    have hdistrusting := Bimodal.distrusting hpos (UInt32.toNat_lt _)
    exact run_cases_of_reaches hbuilt hroomless (reaches_run_distrusting hdistrusting hcreate
      (fun index _ => Bimodal.follows_start hpos index) calls)
  case thrashResistant =>
    cases hrule
    obtain ⟨value, hstart, rfl⟩ := map_eq_ok_iff.1 hnamed
    have hroomless : s.policy.countsTouches = false := by rw [hpolicy]; rfl
    rw [← hshape] at hstart
    have hdistrusting := ThrashResistant.distrusting c.params.thrashInterval.toNat
    exact run_cases_of_reaches hbuilt hroomless (reaches_run_distrusting hdistrusting hcreate
      (fun index hindex => ThrashResistant.follows_start hstart hindex) calls)
  all_goals cases hrule

/-- Four lines of DRAM and NVM that meet in a set of two ways.  The second one joins a line of
DRAM, the third one finds that line gone, and the fourth one comes in on the interval. -/
theorem trusting_lists_of_hybrid_memory :
    ∃ s history t set, (ofConfig { Config.ofShape .thrashResistant 128 64 2 with
        addressBits := 32, regionBorder := some 127, params := { thrashInterval := 4 } }).result =
          .ok s ∧
      run [.access 0 .write, .access 128 .read, .access 192 .read, .fill 64 .read,
        .access 128 .write, .access 0 .read] s = .ok (history, t) ∧
      history.map (fun exchange => exchange.answer.map Reply.sight) =
        [.ok (.access false none), .ok (.access false none),
          .ok (.access false (some ⟨0, true⟩)), .ok (.install (some ⟨192, false⟩)),
          .ok (.access true none), .ok (.access false (some ⟨64, false⟩))] ∧
      t.sets[0]? = some set ∧
      set.lineup.map (Block.entry s.geometry 0) = [⟨128, true⟩, ⟨0, false⟩] := by
  obtain ⟨s, hbuilt, hgeometry⟩ : ∃ s, (ofConfig { Config.ofShape .thrashResistant 128 64 2 with
      addressBits := 32, regionBorder := some 127, params := { thrashInterval := 4 } }).result =
        .ok s ∧ s.geometry = ⟨128, 64, 2, 1, 6, 0, 32, 1⟩ := ⟨_, rfl, rfl⟩
  rcases trusting_lists_of_run hbuilt rfl [.access 0 .write, .access 128 .read, .access 192 .read,
      .fill 64 .read, .access 128 .write, .access 0 .read] with
    ⟨history, t, hrun, hanswers, hlists⟩ | ⟨hlong, -⟩
  · rw [hgeometry] at hanswers hlists
    obtain ⟨set, hset, hlist, -⟩ := hlists 0 (by decide)
    refine ⟨s, history, t, set, hbuilt, hrun, hanswers, hset, ?_⟩
    rw [hgeometry]
    exact hlist.symm
  · exact absurd hlong (by decide)

end Store

end AssocCache
