import AssocCache.Proofs.Policy.Stacking
import AssocCache.Proofs.Store.Turns

/-!
# How write-back aware replacement counts fills

The counter of a set moves with the lines that come in on demand, up for DRAM and down for
NVM, and is kept between zero and a largest count (`WriteBackAware.walk`).

The way up is worked out in 32 bits before it is cut off.  So a set that has counted all of
`2 ^ 32 - 1` takes in no more DRAM lines on demand (`nextCount_eq`).  Nothing else stops a
step of the policy on a well-formed set: it takes hits and departures (`hit_ok`,
`vacate_ok`), and a line comes in exactly if the next count can be worked out
(`coupled_bringIn`).  After a turn the policy is what `afterTurn` says
(`policy_of_takes`).
-/

namespace AssocCache

open Success CacheSet

namespace WriteBackAware

/-! ## The walk of a counter -/

/-- The count of a set after a fill, if numbers had no end. -/
def walk (counterMax count : Nat) : AccessKind × MemoryKind → Nat
  | (.writeback, _) => count
  | (_, .nvm) => count - 1
  | (_, .dram) => min (count + 1) counterMax

/-- The fill would take the count out of its 32 bits. -/
def Overfills (count : Nat) (access : AccessKind) (kind : MemoryKind) : Prop :=
  access ≠ .writeback ∧ kind = .dram ∧ 2 ^ 32 ≤ count + 1

instance (count : Nat) (access : AccessKind) (kind : MemoryKind) :
    Decidable (Overfills count access kind) :=
  inferInstanceAs (Decidable (_ ∧ _ ∧ _))

variable {counterMax count next : Nat} {access : AccessKind} {kind : MemoryKind}

/-- The counter follows the walk for as long as it has room. -/
theorem nextCount_eq (counterMax count : Nat) (access : AccessKind) (kind : MemoryKind) :
    nextCount counterMax count access kind =
      if Overfills count access kind then .error (.overflow .add)
      else .ok (walk counterMax count (access, kind)) := by
  have hrise : (do pure (Nat.min (← Word.add 32 count 1) counterMax) : Except Fault Nat) =
      if 2 ^ 32 ≤ count + 1 then .error (.overflow .add) else .ok (min (count + 1) counterMax) := by
    unfold Word.add
    split
    · rw [if_neg (by omega)]
      rfl
    · rw [if_pos (by omega)]
      rfl
  cases access <;> cases kind <;> simp [nextCount, walk, Overfills, hrise]

theorem walk_le (h : count ≤ counterMax) (fill : AccessKind × MemoryKind) :
    walk counterMax count fill ≤ counterMax := by
  obtain ⟨access, kind⟩ := fill
  cases access <;> cases kind <;> simp only [walk] <;> omega

/-- A walk that starts at zero stays within the largest count. -/
theorem foldl_walk_le (fills : List (AccessKind × MemoryKind)) (h : count ≤ counterMax) :
    fills.foldl (walk counterMax) count ≤ counterMax := by
  induction fills generalizing count with
  | nil => exact h
  | cons fill fills ih => exact ih (walk_le h fill)

/-! ## Steps on a set -/

variable {f : Frame} {index way tag : Nat} {policy policy' : WriteBackAware} {set set' : CacheSet}

/-- The hook of a hit succeeds and keeps the policy. -/
theorem hook_of_hit (hset : set.WellFormed f index)
    (hcount : policy.counters.counterAt index = .ok count) {block : Block}
    (hb : set.blocks[way]? = some block) (access : AccessKind) :
    ∃ set', Policy.onHit policy (set.put way (block.touch access)) way = .ok (policy, set') := by
  have hcounter : policy.counters.counterAt (set.put way (block.touch access)).index =
      .ok count := by
    rw [← hset.index_eq] at hcount
    exact hcount
  obtain ⟨set', hhook, -⟩ := onHit_ok hcounter
    (show way ∈ (set.put way _).stack from hset.mem_stack_of_getElem? hb)
    (getElem?_put_self hb (block.touch access))
  exact ⟨set', hhook⟩

/-- The hook of a fill inserts the line if the next count can be worked out. -/
theorem hook_of_arrival (hset : set.WellFormed f index)
    (hcount : policy.counters.counterAt index = .ok count) {block : Block}
    (hb : set.blocks[way]? = some block) (tag : Nat) (kind : MemoryKind) (access : AccessKind) :
    Coupled (fun _ => False) (fun next x => x.1 = policy.recounted index next)
      (nextCount policy.counterMax count access kind)
      (Policy.onInsert policy ((set.put way (block.fill tag kind access.isWrite)).enter tag way) way
        access) := by
  have hcounter : policy.counters.counterAt
      ((set.put way (block.fill tag kind access.isWrite)).enter tag way).index = .ok count := by
    rw [← hset.index_eq] at hcount
    exact hcount
  have hinsert := coupled_onInsert hcounter
    (show way ∈ ((set.put way _).enter tag way).stack from hset.mem_stack_of_getElem? hb)
    (getElem?_fill_self hb (block.fill tag kind access.isWrite) tag) access
  refine hinsert.mono fun next x h => ?_
  rw [← hset.index_eq]
  exact h.1

theorem hit_ok (hset : set.WellFormed f index)
    (hcount : policy.counters.counterAt index = .ok count) (hfind : set.find tag = some way)
    (access : AccessKind) : ∃ set', set.hit policy way access = .ok (policy, set') := by
  obtain ⟨block, hb, hholds⟩ := hset.find_eq_some_iff.1 hfind
  rw [hit_eq hb (Block.holds_iff.1 hholds).1]
  exact hook_of_hit hset hcount hb access

theorem vacate_ok (hset : set.WellFormed f index) (policy : WriteBackAware)
    (hway : way < set.blocks.length) :
    ∃ victim left, set.vacate policy way = .ok (victim, policy, left) := by
  have hb := List.getElem?_eq_getElem hway
  cases hv : set.blocks[way].valid with
  | false => exact ⟨none, set, vacate_eq_ok_iff.2 ⟨_, hb, .inr ⟨hv, rfl, rfl, rfl⟩⟩⟩
  | true =>
    obtain ⟨moved, hmove, -, hblocks, -⟩ :=
      moveTo_ok (hset.mem_stack_of_getElem? hb) set.stack.length
    have htold : Policy.onInvalidate policy set way = .ok (policy, moved) :=
      bind_eq_ok_iff.2 ⟨moved, hmove, rfl⟩
    exact ⟨_, _, vacate_eq_ok_iff.2 ⟨_, hb, .inl ⟨hv, rfl, moved, _, htold,
      by rw [hblocks, hb], rfl⟩⟩⟩

theorem choose_ok (hset : set.WellFormed f index) (policy : WriteBackAware)
    (hpos : 0 < set.blocks.length) :
    ∃ way, set.choose policy = .ok (way, policy, set) ∧ way < set.blocks.length := by
  cases hvacancy : set.vacancy with
  | some way =>
    obtain ⟨block, hb, -⟩ := exists_of_vacancy hvacancy
    exact ⟨way, choose_of_vacancy hvacancy policy, (List.getElem?_eq_some_iff.1 hb).1⟩
  | none =>
    obtain ⟨way, htail, hlt⟩ := hset.tailWay_ok hpos
    have hchoice : Policy.chooseVictim policy set = .ok (way, policy, set) :=
      bind_eq_ok_iff.2 ⟨way, htail, rfl⟩
    exact ⟨way, choose_of_full hvacancy hchoice hlt, hlt⟩

/-- A line enters a vacant way if the next count can be worked out. -/
theorem coupled_accept (hset : set.WellFormed f index)
    (hcount : policy.counters.counterAt index = .ok count) {block : Block}
    (hb : set.blocks[way]? = some block) (hv : block.valid = false)
    (habsent : set.residence tag = none) (hhas : f.geometry.Has ⟨index, tag⟩)
    (hkind : kind = .classify (f.geometry.addressOf ⟨index, tag⟩) f.regionBorder)
    (access : AccessKind) :
    Coupled (fun _ => False) (fun next x => x.1 = policy.recounted index next)
      (nextCount policy.counterMax count access kind) (set.accept policy way tag kind access) := by
  have hinsert := hook_of_arrival hset hcount hb tag kind access
  cases hnext : nextCount policy.counterMax count access kind with
  | ok next =>
    obtain ⟨⟨policy', set'⟩, hhook, hpolicy⟩ := hinsert.exists_ok hnext
    exact .of_eq_ok rfl (hset.accept_of_hooks hb hv habsent hhas hkind rfl hhook) hpolicy
  | error fault =>
    have hfails : set.accept policy way tag kind access = .error fault := by
      unfold CacheSet.accept
      rw [blockAt_eq_ok_iff.2 hb]
      simp only [Policy.onFill, hv, hinsert.eq_error hnext, bind, Except.bind, Bool.false_eq_true,
        if_false]
    rw [hfails]
    exact .error fault

/-- A line comes into a set, in the place of another one if need be, if the next count can
be worked out. -/
theorem coupled_bringIn (hset : set.WellFormed f index)
    (hcount : policy.counters.counterAt index = .ok count) (hpos : 0 < set.blocks.length)
    (hfind : set.find tag = none) (hhas : f.geometry.Has ⟨index, tag⟩)
    (hkind : kind = .classify (f.geometry.addressOf ⟨index, tag⟩) f.regionBorder)
    (access : AccessKind) :
    Coupled (fun _ => False) (fun next x => x.2.2.1 = policy.recounted index next)
      (nextCount policy.counterMax count access kind) (set.bringIn policy tag kind access) := by
  obtain ⟨way, hchoose, hlt⟩ := choose_ok hset policy hpos
  obtain ⟨victim, left, hvacate⟩ := vacate_ok hset policy hlt
  obtain ⟨hleft, hvacated⟩ := hset.vacate hvacate
  obtain ⟨block, hb, hv⟩ := hvacated.vacant
  have hnone : set.residence tag = none := by
    rw [← Option.map_eq_none_iff, hset.map_way_residence, hfind]
  have habsent : left.residence tag = none := by
    rw [hvacated.residence_eq, hnone, ite_self]
  have hsteps : set.bringIn policy tag kind access =
      left.accept policy way tag kind access >>= fun (policy, set) =>
        pure (way, victim, policy, set) := by
    unfold CacheSet.bringIn
    rw [hchoose]
    simp only [hvacate, bind, Except.bind]
  rw [hsteps, ← bind_pure (nextCount policy.counterMax count access kind)]
  exact (coupled_accept hleft hcount hb hv habsent hhas hkind access).bind fun _ _ h => .ok h

/-! ## Turns -/

theorem policy_of_vacate {victim : Option Block}
    (h : set.vacate policy way = .ok (victim, policy', set')) : policy' = policy := by
  obtain ⟨block, -, ⟨-, -, told, left, hhook, -, -⟩ | ⟨-, -, hsame, -⟩⟩ := vacate_eq_ok_iff.1 h
  · obtain ⟨moved, -, hpure⟩ := bind_eq_ok_iff.1 hhook
    cases hpure
    rfl
  · exact hsame

theorem policy_of_accept (hset : set.WellFormed f index)
    (hcount : policy.counters.counterAt index = .ok count)
    (h : set.accept policy way tag kind access = .ok (policy', set')) :
    policy' = policy.recounted index (walk policy.counterMax count (access, kind)) := by
  obtain ⟨block, hb, -, told, filled, hfill, hinsert, -⟩ := accept_eq_ok_iff.1 h
  cases hfill
  obtain ⟨next, hnext, hpolicy⟩ :=
    (hook_of_arrival hset hcount hb tag kind access).exists_ok_rev hinsert
  rw [nextCount_eq] at hnext
  split at hnext
  · cases hnext
  · cases hnext
    exact hpolicy

/-- The policy after a turn of a set with some count: an arrival moves the counter of the set,
and no other turn changes anything. -/
def afterTurn (policy : WriteBackAware) (index count : Nat) : Turn → WriteBackAware
  | .arrival _ _ kind access _ =>
    policy.recounted index (walk policy.counterMax count (access, kind))
  | .hit .. | .departure .. => policy

theorem policy_of_takes {turn : Turn} (hset : set.WellFormed f index)
    (hcount : policy.counters.counterAt index = .ok count)
    (h : set.Takes policy turn policy' set') : policy' = policy.afterTurn index count turn := by
  cases h with
  | hit hb hv hhit =>
    rw [hit_eq hb hv] at hhit
    obtain ⟨_, hhook⟩ := hook_of_hit hset hcount hb _
    rw [hhit] at hhook
    cases hhook
    rfl
  | arrival hbring =>
    rcases bringIn_cases hbring with ⟨-, -, haccept⟩ |
      ⟨chosen, aged, block, left, vacated, -, hchoice, -, hvacate, haccept⟩
    · exact policy_of_accept hset hcount haccept
    · obtain ⟨tail, -, hpure⟩ := bind_eq_ok_iff.1 hchoice
      cases hpure
      obtain rfl := policy_of_vacate hvacate
      exact policy_of_accept (hset.vacate hvacate).1 hcount haccept
  | departure hvacate => exact policy_of_vacate hvacate

end WriteBackAware

end AssocCache
