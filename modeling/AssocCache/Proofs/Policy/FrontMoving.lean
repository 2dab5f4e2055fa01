import AssocCache.Policy.Stacking
import AssocCache.Proofs.Policy.Tame

/-!
# Policies that move to the front

A stack policy that trusts every line keeps the ways of a set in the order of their last
use.  `Policy.FrontMoving` says so of a policy, as long as a predicate holds of its value
and of the index of the set, which then goes on to hold.

Bimodal insertion is one if every fill is the last one of its interval
(`Bimodal.frontMoving`), and thrash-resistant replacement if every touch completes an
interval (`ThrashResistant.frontMoving`).  In general the two put a new line at either end of
the stack, and which end it is (`Bimodal.onInsert_eq`, `ThrashResistant.onInsert_eq`) is said
here for the policies that distrust lines too.
-/

namespace AssocCache

open Success

/-- The set with a way moved to a position of the stack. -/
def CacheSet.restack (set : CacheSet) (way position : Nat) : CacheSet :=
  { set with stack := Recency.place set.stack way position }

theorem CacheSet.moveTo_eq {set : CacheSet} {way : Nat} (hmem : way ∈ set.stack)
    (position : Nat) : set.moveTo way position = .ok (set.restack way position) :=
  moveTo_eq_ok_iff.2 ⟨hmem, rfl⟩

theorem CacheSet.adjusted_restack {set : CacheSet} {way : Nat} (hmem : way ∈ set.stack)
    (position : Nat) : set.Adjusted (set.restack way position) :=
  adjusted_of_moveTo (moveTo_eq hmem position)

/-- A way that was moved before moves to the front all the same. -/
theorem CacheSet.restack_restack {set : CacheSet} (hnodup : set.stack.Nodup) (way position : Nat) :
    (set.restack way position).restack way 0 = set.restack way 0 := by
  have hothers : (Recency.place set.stack way position).erase way = set.stack.erase way :=
    Recency.erase_place hnodup position
  unfold restack Recency.place at *
  rw [hothers]

/-- While the predicate holds of the value and of a set's index, the policy moves a way
that is touched to the front of the stack of the set, a way whose line leaves to the end,
and gives up the last way. -/
structure Policy.FrontMoving {π : Type} [Policy π] (Sound : π → Nat → Prop) : Prop where
  onHit {policy : π} {set : CacheSet} {way : Nat} :
    Sound policy set.index → way ∈ set.stack →
    ∃ policy', Policy.onHit policy set way = .ok (policy', set.restack way 0) ∧
      ∀ index, Sound policy index → Sound policy' index
  arrival {policy : π} {set : CacheSet} {way : Nat} {block : Block} (access : AccessKind) :
    Sound policy set.index → way ∈ set.stack → set.stack.Nodup → set.blocks[way]? = some block →
    ∃ told policy', Policy.onFill policy set way = .ok (told, set) ∧
      Policy.onInsert told set way access = .ok (policy', set.restack way 0) ∧
      ∀ index, Sound policy index → Sound policy' index
  onInvalidate {policy : π} {set : CacheSet} {way : Nat} :
    Sound policy set.index → way ∈ set.stack →
    ∃ policy', Policy.onInvalidate policy set way =
        .ok (policy', set.restack way set.stack.length) ∧
      ∀ index, Sound policy index → Sound policy' index
  chooseVictim {policy : π} {set : CacheSet} {way : Nat} :
    set.stack.getLast? = some way → Policy.chooseVictim policy set = .ok (way, policy, set)

/-- The tail of the stack. -/
theorem CacheSet.tailWay_eq_ok_iff {set : CacheSet} {way : Nat} :
    set.tailWay = .ok way ↔ set.stack.getLast? = some way := by
  unfold tailWay
  split <;> simp_all

/-! ## Bimodal insertion -/

namespace Bimodal

/-- The policy after another fill. -/
def counted (policy : Bimodal) : Bimodal :=
  { policy with fills := if policy.interval ≤ policy.fills + 1 then 0 else policy.fills + 1 }

theorem fills_counted {policy : Bimodal} (hless : policy.fills < policy.interval) :
    policy.counted.fills = (policy.fills + 1) % policy.interval := by
  unfold counted
  split
  · rw [show policy.fills + 1 = policy.interval by omega, Nat.mod_self]
  · rw [Nat.mod_eq_of_lt (by omega)]

/-- A count that starts again with every interval is at the end of one if the interval
divides the whole count. -/
theorem le_mod_add_one_iff {interval count : Nat} (hpos : 0 < interval) :
    interval ≤ count % interval + 1 ↔ interval ∣ count + 1 := by
  have hless := Nat.mod_lt count hpos
  rw [Nat.dvd_iff_mod_eq_zero, ← Nat.mod_add_mod]
  constructor
  · intro hle
    rw [show count % interval + 1 = interval by omega, Nat.mod_self]
  · intro hzero
    by_contra hlt
    rw [Nat.mod_eq_of_lt (Nat.lt_of_not_le hlt)] at hzero
    exact Nat.succ_ne_zero _ hzero

/-- A line that comes in goes to the front of the stack if its fill is the last one of the
interval, and else to the end. -/
theorem onInsert_eq {policy : Bimodal} {set : CacheSet} {way : Nat} (hmem : way ∈ set.stack)
    (hfills : policy.fills + 1 < 2 ^ (32 : Nat)) (access : AccessKind) :
    Policy.onInsert policy set way access = .ok (policy.counted, set.restack way
      (if policy.interval ≤ policy.fills + 1 then 0 else set.stack.length)) := by
  have hnext : Word.add 32 policy.fills 1 = .ok (policy.fills + 1) :=
    Word.add_eq_ok_iff.2 ⟨hfills, rfl⟩
  refine bind_eq_ok_iff.2 ⟨_, hnext, ?_⟩
  unfold counted
  split
  · exact bind_eq_ok_iff.2 ⟨_, CacheSet.moveTo_eq hmem 0, rfl⟩
  · exact bind_eq_ok_iff.2 ⟨_, CacheSet.moveTo_eq hmem set.stack.length, rfl⟩

/-- Every fill is trusted. -/
def Trusting (policy : Bimodal) (_ : Nat) : Prop := policy = ⟨0, 1⟩

theorem trusting_start {interval : Nat} (hinterval : interval ≤ 1) (index : Nat) :
    (start interval).Trusting index := by
  have hmax : Nat.max interval 1 = 1 := Nat.max_eq_right hinterval
  rw [Trusting, start, hmax]

theorem frontMoving : Policy.FrontMoving Trusting where
  onHit {policy _ _} hsound hmem := by
    refine ⟨policy, ?_, fun _ h => h⟩
    exact bind_eq_ok_iff.2 ⟨_, CacheSet.moveTo_eq hmem 0, rfl⟩
  arrival {policy _ _ _} access hsound hmem _ _ := by
    obtain rfl : policy = ⟨0, 1⟩ := hsound
    exact ⟨_, _, rfl, onInsert_eq hmem (by decide) access, fun _ h => h⟩
  onInvalidate {policy set _} hsound hmem := by
    refine ⟨policy, ?_, fun _ h => h⟩
    exact bind_eq_ok_iff.2 ⟨_, CacheSet.moveTo_eq hmem set.stack.length, rfl⟩
  chooseVictim hlast := bind_eq_ok_iff.2 ⟨_, CacheSet.tailWay_eq_ok_iff.2 hlast, rfl⟩

end Bimodal

/-! ## Thrash-resistant replacement -/

namespace ThrashResistant

/-- Every set starts at the beginning of its interval. -/
theorem intervals_of_start {numSets interval index : Nat} {policy : ThrashResistant}
    (h : start numSets interval = .ok policy) (hindex : index < numSets) :
    policy.intervals.interval = interval ∧ policy.intervals.counters.counterAt index = .ok 0 := by
  obtain ⟨intervals, hstart, hpolicy⟩ := bind_eq_ok_iff.1 h
  cases hpolicy
  exact (Intervals.counterAt_of_start hstart).imp_right fun hzero => hzero index hindex

/-- Every touch of the set completes an interval. -/
def Trusting (policy : ThrashResistant) (index : Nat) : Prop :=
  policy.intervals.interval = 0 ∧ policy.intervals.counters.counterAt index = .ok 0

theorem trusting_start {numSets index : Nat} {policy : ThrashResistant}
    (h : start numSets 0 = .ok policy) (hindex : index < numSets) : policy.Trusting index :=
  intervals_of_start h hindex

/-- A touch moves the counter of its set on, and no other. -/
theorem touch_eq {policy : ThrashResistant} {set : CacheSet} {count : Nat}
    (h : policy.intervals.counters.counterAt set.index = .ok count) :
    ∃ touched, policy.touch set = .ok touched ∧
      touched.intervals.interval = policy.intervals.interval ∧
      ∀ index, touched.intervals.counters.counterAt index =
        if index = set.index then .ok (Intervals.next policy.intervals.interval count)
        else policy.intervals.counters.counterAt index := by
  have htouch : policy.intervals.touch set.index = .ok _ := bind_eq_ok_iff.2 ⟨count, h, rfl⟩
  obtain ⟨hinterval, found, hfound, hcounters⟩ := Intervals.counterAt_of_touch htouch
  cases h.symm.trans hfound
  exact ⟨_, bind_eq_ok_iff.2 ⟨_, htouch, rfl⟩, hinterval, hcounters⟩

/-- A touch starts the next interval at once. -/
theorem Trusting.touch {policy : ThrashResistant} {set : CacheSet} (h : policy.Trusting set.index) :
    ∃ touched, policy.touch set = .ok touched ∧
      ∀ index, policy.Trusting index → touched.Trusting index := by
  obtain ⟨touched, htouch, hinterval, hcounters⟩ := touch_eq h.2
  refine ⟨touched, htouch, fun index hindex => ⟨hinterval.trans h.1, ?_⟩⟩
  rw [hcounters, h.1]
  split
  · rfl
  · exact hindex.2

/-- A line that comes in goes to the front of the stack if it completes an interval, or if it
is of NVM and a line of DRAM is there, and else to the end. -/
theorem onInsert_eq {policy : ThrashResistant} {set : CacheSet} {way : Nat} {block : Block}
    {onInterval : Bool} (hmem : way ∈ set.stack) (hnodup : set.stack.Nodup)
    (hb : set.blocks[way]? = some block)
    (hcomplete : policy.intervals.isComplete set.index = .ok onInterval) (access : AccessKind) :
    Policy.onInsert policy set way access = .ok (policy, set.restack way
      (if onInterval = true ∨ holdsOtherDram set way = true ∧ block.kind = .nvm then 0
        else set.stack.length)) := by
  have htail := CacheSet.moveTo_eq hmem set.stack.length
  have hmem' : way ∈ (set.restack way set.stack.length).stack :=
    (Recency.mem_place hmem _ way).2 hmem
  have hhead := CacheSet.moveTo_eq hmem' 0
  rw [CacheSet.restack_restack hnodup] at hhead
  refine bind_eq_ok_iff.2 ⟨_, htail, bind_eq_ok_iff.2 ⟨onInterval, hcomplete, ?_⟩⟩
  cases onInterval with
  | true =>
    rw [if_pos rfl, if_pos (Or.inl rfl)]
    exact bind_eq_ok_iff.2 ⟨_, hhead, rfl⟩
  | false =>
    have hsame : holdsOtherDram (set.restack way set.stack.length) way = holdsOtherDram set way :=
      rfl
    rw [if_neg Bool.false_ne_true, hsame]
    by_cases hother : holdsOtherDram set way = true
    · rw [if_pos hother]
      refine bind_eq_ok_iff.2 ⟨block, CacheSet.blockAt_eq_ok_iff.2 hb, ?_⟩
      by_cases hnvm : block.kind = .nvm
      · rw [if_pos hnvm, if_pos (Or.inr ⟨hother, hnvm⟩)]
        exact bind_eq_ok_iff.2 ⟨_, hhead, rfl⟩
      · rw [if_neg hnvm, if_neg (by simp [hnvm])]
        rfl
    · rw [if_neg hother, if_neg (by simp [hother])]
      rfl

/-- An insertion has looked at the interval of the set, and moved the way and nothing else. -/
theorem exists_of_onInsert {policy policy' : ThrashResistant} {set set' : CacheSet} {way : Nat}
    {block : Block} {access : AccessKind}
    (h : Policy.onInsert policy set way access = .ok (policy', set'))
    (hb : set.blocks[way]? = some block) (hnodup : set.stack.Nodup) :
    ∃ onInterval, policy.intervals.isComplete set.index = .ok onInterval ∧ policy' = policy ∧
      way ∈ set.stack ∧ set' = set.restack way
        (if onInterval = true ∨ holdsOtherDram set way = true ∧ block.kind = .nvm then 0
          else set.stack.length) := by
  obtain ⟨tailed, htail, hrest⟩ := bind_eq_ok_iff.1 h
  obtain ⟨hmem, rfl⟩ := CacheSet.moveTo_eq_ok_iff.1 htail
  obtain ⟨onInterval, hcomplete, -⟩ := bind_eq_ok_iff.1 hrest
  have hcomplete : policy.intervals.isComplete set.index = .ok onInterval := hcomplete
  rw [onInsert_eq hmem hnodup hb hcomplete] at h
  cases h
  exact ⟨onInterval, hcomplete, rfl, hmem, rfl⟩

theorem frontMoving : Policy.FrontMoving Trusting where
  onHit hsound hmem := by
    obtain ⟨touched, htouch, hretains⟩ := hsound.touch
    refine ⟨touched, ?_, hretains⟩
    exact bind_eq_ok_iff.2 ⟨_, htouch, bind_eq_ok_iff.2 ⟨_, CacheSet.moveTo_eq hmem 0, rfl⟩⟩
  arrival {policy set way block} access hsound hmem hnodup hb := by
    obtain ⟨touched, htouch, hretains⟩ := hsound.touch
    obtain ⟨hinterval, hcounter⟩ := hretains _ hsound
    have hcomplete : touched.intervals.isComplete set.index = .ok true := by
      refine bind_eq_ok_iff.2 ⟨0, hcounter, ?_⟩
      rw [hinterval]
      rfl
    have hinsert := onInsert_eq hmem hnodup hb hcomplete access
    rw [if_pos (Or.inl rfl)] at hinsert
    exact ⟨touched, touched, bind_eq_ok_iff.2 ⟨_, htouch, rfl⟩, hinsert, hretains⟩
  onInvalidate {policy set _} hsound hmem := by
    refine ⟨policy, ?_, fun _ h => h⟩
    exact bind_eq_ok_iff.2 ⟨_, CacheSet.moveTo_eq hmem set.stack.length, rfl⟩
  chooseVictim hlast := bind_eq_ok_iff.2 ⟨_, CacheSet.tailWay_eq_ok_iff.2 hlast, rfl⟩

end ThrashResistant

end AssocCache
