import AssocCache.Proofs.Policy.Agreeing
import AssocCache.Proofs.Policy.Predicting

/-!
# Policies that keep sets apart

What a policy has to know in order to serve one set.

* Use counts and static predictions are in the blocks, and the policy has no state.
* The thrash-resistant, the type-aware and the write-back aware policy keep a counter
  for each set, so they have to agree about one of them.
* Dynamic prediction keeps a selector and a throttle for all sets.  A set that leads for
  the static rule reads neither, and the most distant prediction is all that counts.

For each of them there are two lemmas: `agreeing` for the set itself and `apart` for the
other sets.
-/

namespace AssocCache

open Success
open Policy (Apart Agreeing Sharing Retains)

/-! ## Hooks that change the set alone -/

section Hooks

variable {π : Type} {R : π → CacheSet → π → CacheSet → Prop}

/-- A hook that leaves the policy as it is keeps what is related. -/
theorem Reaches.same_policy (policy : π) (outcome : Except Fault CacheSet) :
    Reaches (fun _ => True) (fun x => Retains R policy x.1)
      (do pure (policy, ← outcome) : Except Fault (π × CacheSet)) :=
  (Reaches.any outcome).bind fun _ _ => .ok (.refl policy)

/-- A choice that leaves the policy as it is keeps what is related. -/
theorem Reaches.same_chooser (policy : π) (outcome : Except Fault (Nat × CacheSet)) :
    Reaches (fun _ => True) (fun x => Retains R policy x.2.1)
      (do
        let (way, set) ← outcome
        pure (way, policy, set) : Except Fault (Nat × π × CacheSet)) :=
  (Reaches.any outcome).bind fun _ _ => .ok (.refl policy)

/-- A policy that agrees as another one does retains what is shared. -/
theorem Policy.Retains.of_agree {index : Nat} {role : DuelRole} {agree : π → π → Prop}
    {policy policy₁ : π} (h : ∀ {policy' : π}, agree policy policy' → agree policy₁ policy') :
    Retains (Sharing index role agree) policy policy₁ :=
  ⟨fun hshared => ⟨hshared.index_eq, hshared.role_eq, h hshared.agree, hshared.set_eq⟩⟩

end Hooks

/-! ## Policies without state -/

section Stateless

variable (index : Nat) (R : Lfu → CacheSet → Lfu → CacheSet → Prop)
  (R' : StaticRrip → CacheSet → StaticRrip → CacheSet → Prop)

theorem Lfu.apart : Apart index R where
  chooseVictim _ := .ok (.refl _)
  onHit _ := .same_policy _ _
  onFill _ := .ok (.refl _)
  onInsert _ := .same_policy _ _
  onInvalidate _ := .ok (.refl _)

theorem StaticRrip.apart : Apart index R' where
  chooseVictim _ := .same_chooser _ _
  onHit _ := .same_policy _ _
  onFill _ := .ok (.refl _)
  onInsert _ := .same_policy _ _
  onInvalidate _ := .ok (.refl _)

end Stateless

/-! ## Counters of the sets -/

/-- Two rows have the same counter at an index. -/
structure Counters.AgreeAt (index : Nat) (row row' : Counters) : Prop where
  count_eq : row'.count = row.count
  counterAt_eq : row'.counterAt index = row.counterAt index

namespace Counters.AgreeAt

variable {index other value : Nat} {row row' : Counters}

theorem write (h : AgreeAt index row row') (value : Nat) :
    AgreeAt index (row.write index value) (row'.write index value) where
  count_eq := h.count_eq
  counterAt_eq := by rw [counterAt_write, counterAt_write, h.count_eq, h.counterAt_eq]

theorem write_of_ne (h : AgreeAt index row row') (hother : other ≠ index) (value : Nat) :
    AgreeAt index (row.write other value) row' where
  count_eq := h.count_eq
  counterAt_eq := by
    rw [counterAt_write, if_neg fun hsame => hother hsame.1.symm]
    exact h.counterAt_eq

end Counters.AgreeAt

/-- Two policies have the same interval, and a set is at the same place in it. -/
structure Intervals.AgreeAt (index : Nat) (i i' : Intervals) : Prop where
  interval_eq : i'.interval = i.interval
  counters : i.counters.AgreeAt index i'.counters

namespace Intervals.AgreeAt

variable {index other : Nat} {i i' : Intervals}

theorem touch (h : AgreeAt index i i') :
    Coupled (fun _ => True) (AgreeAt index) (i.touch index) (i'.touch index) := by
  unfold Intervals.touch
  rw [h.counters.counterAt_eq, h.interval_eq]
  apply Coupled.bind_same (i.counters.counterAt index)
  intro counter _
  exact .ok ⟨rfl, h.counters.write _⟩

theorem touch_of_ne (hother : other ≠ index) (i : Intervals) :
    Reaches (fun _ => True) (fun touched => ∀ {i'}, AgreeAt index i i' → AgreeAt index touched i')
      (i.touch other) := by
  refine (Reaches.any (i.counters.counterAt other)).bind fun counter _ => .ok ?_
  intro i' h
  exact ⟨h.interval_eq, h.counters.write_of_ne hother _⟩

theorem isComplete_eq (h : AgreeAt index i i') : i'.isComplete index = i.isComplete index := by
  unfold Intervals.isComplete
  rw [h.counters.counterAt_eq, h.interval_eq]

end Intervals.AgreeAt

namespace ThrashResistant

variable {index : Nat} {role : DuelRole} {policy policy' : ThrashResistant} {set : CacheSet}

/-- The two policies stand at the same place of the interval of a set. -/
def AgreeAt (index : Nat) (policy policy' : ThrashResistant) : Prop :=
  policy.intervals.AgreeAt index policy'.intervals

theorem AgreeAt.touch (h : AgreeAt index policy policy') (hindex : set.index = index) :
    Coupled (fun _ => True) (AgreeAt index) (policy.touch set) (policy'.touch set) := by
  unfold ThrashResistant.touch
  rw [hindex]
  exact (Intervals.AgreeAt.touch h).bind fun _ _ htouched => .ok htouched

theorem retains_of_touch (hother : set.index ≠ index) (policy : ThrashResistant) :
    Reaches (fun _ => True) (Retains (Sharing index role (AgreeAt index)) policy)
      (policy.touch set) :=
  (Intervals.AgreeAt.touch_of_ne hother policy.intervals).bind fun _ htouched =>
    .ok (.of_agree htouched)

theorem agreeing (index : Nat) (role : DuelRole) : Agreeing index role (AgreeAt index) where
  chooseVictim {policy policy' set} _ _ h := by
    apply Coupled.bind_same set.tailWay
    intro way _
    exact .ok ⟨rfl, h, rfl⟩
  onHit way hindex _ h :=
    (h.touch hindex).bind fun _ _ htouched => .same_set htouched _
  onFill way hindex _ h :=
    (h.touch hindex).bind fun _ _ htouched => .ok ⟨htouched, rfl⟩
  onInsert {policy policy' set} way access hindex _ h := by
    apply Coupled.bind_same (set.moveToTail way)
    intro tailed htailed
    have hplace : tailed.index = index :=
      (CacheSet.adjusted_of_moveTo htailed).index_eq.trans hindex
    rw [hplace, Intervals.AgreeAt.isComplete_eq h]
    apply Coupled.bind_same (policy.intervals.isComplete index)
    intro onInterval _
    split
    · exact .same_set h _
    · split
      · apply Coupled.bind_same (tailed.blockAt way)
        intro block _
        split
        · exact .same_set h _
        · exact .ok ⟨h, rfl⟩
      · exact .ok ⟨h, rfl⟩
  onInvalidate way _ _ h := .same_set h _

theorem apart (index : Nat) (role : DuelRole) :
    Apart index (Sharing index role (AgreeAt index)) where
  chooseVictim _ := (Reaches.any _).bind fun _ _ => .ok (.refl _)
  onHit {policy _ _} hother :=
    (retains_of_touch hother policy).bind fun _ hretains =>
      (Reaches.any _).bind fun _ _ => .ok hretains
  onFill {policy _ _} hother :=
    (retains_of_touch hother policy).bind fun _ hretains => .ok hretains
  onInsert {policy set way access} _ := by
    refine (Reaches.any (set.moveToTail way)).bind fun tailed _ => ?_
    refine (Reaches.any (policy.intervals.isComplete tailed.index)).bind fun onInterval _ => ?_
    split
    · exact .same_policy _ _
    · split
      · refine (Reaches.any (tailed.blockAt way)).bind fun block _ => ?_
        split
        · exact .same_policy _ _
        · exact .ok (.refl _)
      · exact .ok (.refl _)
  onInvalidate _ := .same_policy _ _

end ThrashResistant

namespace TypeAwareRrip

variable {index : Nat} {role : DuelRole} {policy policy' : TypeAwareRrip} {set : CacheSet}

/-- The two policies predict alike and stand at the same place of the interval of a
set. -/
structure AgreeAt (index : Nat) (policy policy' : TypeAwareRrip) : Prop where
  max_eq : policy'.max = policy.max
  dramHitStep_eq : policy'.dramHitStep = policy.dramHitStep
  intervals : policy.intervals.AgreeAt index policy'.intervals

theorem AgreeAt.touch (h : AgreeAt index policy policy') (hindex : set.index = index) :
    Coupled (fun _ => True) (AgreeAt index) (policy.touch set) (policy'.touch set) := by
  unfold TypeAwareRrip.touch
  rw [hindex]
  exact h.intervals.touch.bind fun _ _ htouched => .ok ⟨h.max_eq, h.dramHitStep_eq, htouched⟩

theorem retains_of_touch (hother : set.index ≠ index) (policy : TypeAwareRrip) :
    Reaches (fun _ => True) (Retains (Sharing index role (AgreeAt index)) policy)
      (policy.touch set) :=
  (Intervals.AgreeAt.touch_of_ne hother policy.intervals).bind fun _ htouched =>
    .ok (.of_agree fun h => ⟨h.max_eq, h.dramHitStep_eq, htouched h.intervals⟩)

theorem agreeing (index : Nat) (role : DuelRole) : Agreeing index role (AgreeAt index) where
  chooseVictim {policy policy' set} _ _ h := by
    show Coupled _ _ (Prediction.victim policy.max set >>= _)
      (Prediction.victim policy'.max set >>= _)
    rw [h.max_eq]
    exact .same_choice h _
  onHit {policy policy' set} way hindex _ h := by
    refine (h.touch hindex).bind ?_
    intro touched touched' htouched
    have hprediction : touched'.hitPrediction = touched.hitPrediction := by
      funext block
      rw [hitPrediction, htouched.dramHitStep_eq]
      rfl
    rw [hprediction]
    exact .same_set htouched _
  onFill way hindex _ h :=
    (h.touch hindex).bind fun _ _ htouched => .ok ⟨htouched, rfl⟩
  onInsert {policy policy' set} way access hindex _ h := by
    have hinsertion : policy'.insertion = policy.insertion := by
      funext kind onInterval
      unfold insertion
      rw [h.max_eq]
    show Coupled _ _ (policy.intervals.isComplete set.index >>= _)
      (policy'.intervals.isComplete set.index >>= _)
    rw [hindex, h.intervals.isComplete_eq, hinsertion]
    apply Coupled.bind_same (policy.intervals.isComplete index)
    intro onInterval _
    exact .same_set h _
  onInvalidate _ _ _ h := .ok ⟨h, rfl⟩

theorem apart (index : Nat) (role : DuelRole) :
    Apart index (Sharing index role (AgreeAt index)) where
  chooseVictim _ := .same_chooser _ _
  onHit {policy _ _} hother :=
    (retains_of_touch hother policy).bind fun _ hretains =>
      (Reaches.any _).bind fun _ _ => .ok hretains
  onFill {policy _ _} hother :=
    (retains_of_touch hother policy).bind fun _ hretains => .ok hretains
  onInsert _ := (Reaches.any _).bind fun _ _ => .same_policy _ _
  onInvalidate _ := .ok (.refl _)

end TypeAwareRrip

namespace WriteBackAware

variable {index : Nat} {role : DuelRole}

/-- The two policies have the same counter for a set. -/
structure AgreeAt (index : Nat) (policy policy' : WriteBackAware) : Prop where
  counterMax_eq : policy'.counterMax = policy.counterMax
  counters : policy.counters.AgreeAt index policy'.counters

theorem agreeing (index : Nat) (role : DuelRole) : Agreeing index role (AgreeAt index) where
  chooseVictim {policy policy' set} _ _ h := by
    apply Coupled.bind_same set.tailWay
    intro way _
    exact .ok ⟨rfl, h, rfl⟩
  onHit {policy policy' set} way hindex _ h := by
    apply Coupled.bind_same (set.blockAt way)
    intro block _
    split
    · exact .same_set h _
    · rw [hindex, h.counters.counterAt_eq]
      apply Coupled.bind_same (policy.counters.counterAt index)
      intro count _
      exact .same_set h _
  onFill _ _ _ h := .ok ⟨h, rfl⟩
  onInsert {policy policy' set} way access hindex _ h := by
    show Coupled _ _ (policy.counters.counterAt set.index >>= _)
      (policy'.counters.counterAt set.index >>= _)
    rw [hindex, h.counters.counterAt_eq, h.counterMax_eq]
    apply Coupled.bind_same (policy.counters.counterAt index)
    intro count _
    apply Coupled.bind_same (set.blockAt way)
    intro block _
    apply Coupled.bind_same (nextCount policy.counterMax count access block.kind)
    intro next _
    refine Coupled.same_set ?_ _
    exact ⟨rfl, h.counters.write next⟩
  onInvalidate way _ _ h := .same_set h _

theorem apart (index : Nat) (role : DuelRole) :
    Apart index (Sharing index role (AgreeAt index)) where
  chooseVictim _ := (Reaches.any _).bind fun _ _ => .ok (.refl _)
  onHit {policy set way} _ := by
    refine (Reaches.any (set.blockAt way)).bind fun block _ => ?_
    split
    · exact .same_policy _ _
    · exact (Reaches.any _).bind fun _ _ => .same_policy _ _
  onFill _ := .ok (.refl _)
  onInsert {policy set way access} hother := by
    refine (Reaches.any (policy.counters.counterAt set.index)).bind fun count _ => ?_
    refine (Reaches.any (set.blockAt way)).bind fun block _ => ?_
    refine (Reaches.any (nextCount policy.counterMax count access block.kind)).bind fun next _ => ?_
    refine (Reaches.any (set.moveTo way _)).bind fun _ _ => .ok (.of_agree fun h => ?_)
    exact ⟨h.counterMax_eq, h.counters.write_of_ne hother next⟩
  onInvalidate _ := .same_policy _ _

end WriteBackAware

/-! ## Leaders for the static rule -/

namespace DynamicRrip

variable {index : Nat}

/-- The two policies predict alike, and the duel of the second one is sound. -/
structure AgreeForLeaders (policy policy' : DynamicRrip) : Prop where
  max_eq : policy'.max = policy.max
  sound : policy'.Sound

theorem max_of_countFill (policy : DynamicRrip) (role : DuelRole) :
    Reaches (fun _ => True) (fun counted => counted.max = policy.max) (policy.countFill role) := by
  cases role with
  | follower => exact .ok rfl
  | brripLeader => exact .ok rfl
  | srripLeader => exact (Reaches.any _).bind fun _ _ => .ok rfl

theorem max_of_insertion (policy : DynamicRrip) (rule : InsertionRule) :
    Reaches (fun _ => True) (fun x => x.2.max = policy.max) (policy.insertion rule) := by
  cases rule with
  | srrip => exact .ok rfl
  | brrip =>
    refine (Reaches.any (Word.add 32 policy.bimodalFills 1)).bind fun fills _ => ?_
    split
    · exact .ok rfl
    · exact .ok rfl

/-- A leader for the static rule counts for the duel but does not ask for its score. -/
theorem agreeing (index : Nat) : Agreeing index .srripLeader AgreeForLeaders where
  chooseVictim {policy policy' set} _ _ h := by
    show Coupled _ _ (Prediction.victim policy.max set >>= _)
      (Prediction.victim policy'.max set >>= _)
    rw [h.max_eq]
    exact .same_choice h _
  onHit _ _ _ h := .same_set h _
  onFill _ _ _ h := .ok ⟨h, rfl⟩
  onInsert {policy policy' set} way access _ hrole h := by
    obtain ⟨counted', hcount', hsound, hmax'⟩ := h.sound.countFill .srripLeader
    show Coupled _ _ (policy.countFill set.role >>= _) (policy'.countFill set.role >>= _)
    rw [hrole, hcount']
    rcases hcount : policy.countFill .srripLeader with fault | counted
    · exact .excuse trivial _
    · have hmax : counted'.max = counted.max := by
        rw [hmax', h.max_eq, (policy.max_of_countFill .srripLeader).of_ok hcount]
      show Coupled _ _ (do pure (counted, ← set.setWord way (counted.max - 1)))
        (do pure (counted', ← set.setWord way (counted'.max - 1)))
      have hagree : AgreeForLeaders counted counted' := ⟨hmax, hsound⟩
      rw [hmax]
      exact .same_set hagree _
  onInvalidate _ _ _ h := .ok ⟨h, rfl⟩

theorem apart (index : Nat) : Apart index (Sharing index .srripLeader AgreeForLeaders) where
  chooseVictim _ := .same_chooser _ _
  onHit _ := .same_policy _ _
  onFill _ := .ok (.refl _)
  onInsert {policy set way access} _ := by
    refine (policy.max_of_countFill set.role).bind fun counted hcounted => ?_
    refine (counted.max_of_insertion _).bind fun ⟨prediction, next⟩ hnext => ?_
    refine (Reaches.any (set.setWord way prediction)).bind fun _ _ => .ok (.of_agree fun h => ?_)
    exact ⟨h.max_eq.trans (hcounted.symm.trans hnext.symm), h.sound⟩
  onInvalidate _ := .ok (.refl _)

end DynamicRrip

end AssocCache
