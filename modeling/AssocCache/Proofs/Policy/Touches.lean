import AssocCache.Proofs.Store.Turns

/-!
# Touches

What the turns of a set do to a part of its policy.  Most parts never change
(`Policy.Constant`).  Two policies count the touches of every set, that is its hits and
fills, in `Intervals` (`ThrashResistant.touching`, `TypeAwareRrip.touching`).  A turn
touches its own set, at most once, and no other (`Policy.Touching.takes`), so a counter is
never further than the number of turns (`Intervals.AtMost.touch`).
-/

namespace AssocCache

open Success

/-- Whether the turn touches its set. -/
def Turn.isTouch : Turn → Bool
  | .hit .. | .arrival .. => true
  | .departure .. => false

/-! ## Parts of a policy -/

namespace Policy

variable {π α : Type} [Policy π]

/-- Hits and fills of a set change this part of the policy in a certain way.  The other
hooks leave it as it is. -/
structure Touching (touch : Nat → α → α → Prop) (part : π → α) : Prop where
  chooseVictim {policy policy' : π} {set set' : CacheSet} {way : Nat} :
    Policy.chooseVictim policy set = .ok (way, policy', set') → part policy' = part policy
  onHit {policy policy' : π} {set set' : CacheSet} {way : Nat} :
    Policy.onHit policy set way = .ok (policy', set') →
    touch set.index (part policy) (part policy')
  onFill {policy policy' : π} {set set' : CacheSet} {way : Nat} :
    Policy.onFill policy set way = .ok (policy', set') →
    touch set.index (part policy) (part policy')
  onInsert {policy policy' : π} {set set' : CacheSet} {way : Nat} {access : AccessKind} :
    Policy.onInsert policy set way access = .ok (policy', set') → part policy' = part policy
  onInvalidate {policy policy' : π} {set set' : CacheSet} {way : Nat} :
    Policy.onInvalidate policy set way = .ok (policy', set') → part policy' = part policy

/-- No hook changes this part of the policy. -/
abbrev Constant (part : π → α) : Prop := Touching (fun _ before after => after = before) part

namespace Touching

variable {touch : Nat → α → α → Prop} {part : π → α} {way : Nat} {policy policy' : π}
  {set set' : CacheSet} {turn : Turn}

theorem vacate (h : Touching touch part) {victim : Option Block}
    (hvacate : set.vacate policy way = .ok (victim, policy', set')) :
    part policy' = part policy := by
  obtain ⟨block, -, ⟨-, -, told, block', hhook, -, -⟩ | ⟨-, -, rfl, -⟩⟩ :=
    CacheSet.vacate_eq_ok_iff.1 hvacate
  · exact h.onInvalidate hhook
  · rfl

theorem accept (h : Touching touch part) {tag : Nat} {kind : MemoryKind} {access : AccessKind}
    (haccept : set.accept policy way tag kind access = .ok (policy', set')) :
    touch set.index (part policy) (part policy') := by
  obtain ⟨block, -, -, told, filled, hfill, hinsert, -⟩ := CacheSet.accept_eq_ok_iff.1 haccept
  have htouch := h.onFill hfill
  rw [h.onInsert hinsert]
  exact htouch

/-- A hit or an arrival touches its own set, and a departure touches none. -/
theorem takes_cases [Policy.Tame π] (h : Touching touch part) {f : Frame} {index : Nat}
    (hset : set.WellFormed f index) (htakes : set.Takes policy turn policy' set') :
    if turn.isTouch then touch index (part policy) (part policy')
    else part policy' = part policy := by
  rw [← hset.index_eq]
  cases htakes with
  | hit hb hv hhit =>
    rw [CacheSet.hit_eq hb hv] at hhit
    have htouch := h.onHit hhit
    exact htouch
  | arrival hbring =>
    rcases CacheSet.bringIn_cases hbring with ⟨-, -, haccept⟩ |
      ⟨chosen, aged, block, left, vacated, -, hchoice, -, hvacate, haccept⟩
    · exact h.accept haccept
    · have haged := hset.adjusted (Policy.Tame.chooseVictim hchoice)
      have hindex : vacated.index = set.index :=
        (haged.vacate hvacate).1.index_eq.trans hset.index_eq.symm
      rw [← hindex, ← h.chooseVictim hchoice, ← h.vacate hvacate]
      exact h.accept haccept
  | departure hvacate => exact h.vacate hvacate

/-- A turn touches its own set, unless a line leaves. -/
theorem takes [Policy.Tame π] (h : Touching touch part) {f : Frame} {index : Nat}
    (hset : set.WellFormed f index) (htakes : set.Takes policy turn policy' set') :
    part policy' = part policy ∨ touch index (part policy) (part policy') := by
  have hcases := h.takes_cases hset htakes
  split at hcases
  · exact .inr hcases
  · exact .inl hcases

end Touching

theorem Constant.takes [Policy.Tame π] {part : π → α} (h : Constant part) {f : Frame}
    {index : Nat} {policy policy' : π} {set set' : CacheSet} {turn : Turn}
    (hset : set.WellFormed f index) (htakes : set.Takes policy turn policy' set') :
    part policy' = part policy :=
  (Touching.takes h hset htakes).elim id id

end Policy

/-! ## Counters of touches -/

namespace Intervals

variable {i i' : Intervals} {n : Nat}

/-- No set is further into its interval than this. -/
def AtMost (n : Nat) (i : Intervals) : Prop :=
  ∀ ⦃index count : Nat⦄, i.counters.counterAt index = .ok count → count ≤ n

theorem atMost_start {numSets interval : Nat} (h : start numSets interval = .ok i) :
    i.interval = interval ∧ i.AtMost 0 := by
  obtain ⟨row, hrow, h⟩ := bind_eq_ok_iff.1 h
  cases h
  refine ⟨rfl, fun index count hcount => ?_⟩
  obtain ⟨-, rfl⟩ := Counters.zeros_eq_ok_iff.1 hrow
  unfold Counters.counterAt at hcount
  split at hcount
  · rw [Std.HashMap.getD_empty] at hcount
    cases hcount
    exact Nat.le_refl 0
  · cases hcount

/-- A touch takes a set at most one step further. -/
theorem AtMost.touch (h : i.AtMost n) {index : Nat} (htouch : i.touch index = .ok i') :
    i'.interval = i.interval ∧ i'.AtMost (n + 1) := by
  obtain ⟨hinterval, counter, hcounter, hcounters⟩ := counterAt_of_touch htouch
  refine ⟨hinterval, fun other count hcount => ?_⟩
  rw [hcounters] at hcount
  split at hcount
  · cases hcount
    have hle := h hcounter
    unfold next
    split <;> omega
  · exact Nat.le_succ_of_le (h hcount)

/-- A set that is not far enough into its interval has not completed it. -/
theorem AtMost.not_isComplete (h : i.AtMost n) (hn : n < i.interval) (index : Nat) :
    i.isComplete index ≠ .ok true := by
  intro hcomplete
  obtain ⟨counter, hcounter, hcomplete⟩ := bind_eq_ok_iff.1 hcomplete
  have hsame : counter = i.interval := beq_iff_eq.1 (Except.ok.inj hcomplete)
  have := h hcounter
  omega

end Intervals

theorem ThrashResistant.intervals_of_touch {policy touched : ThrashResistant} {set : CacheSet}
    (h : policy.touch set = .ok touched) :
    policy.intervals.touch set.index = .ok touched.intervals := by
  obtain ⟨_, hcount, h⟩ := bind_eq_ok_iff.1 h
  cases h
  exact hcount

theorem ThrashResistant.touching :
    Policy.Touching (fun index i i' => i.touch index = .ok i') ThrashResistant.intervals where
  chooseVictim h := by
    obtain ⟨_, -, h⟩ := bind_eq_ok_iff.1 h
    cases h
    rfl
  onHit h := by
    obtain ⟨touched, htouch, h⟩ := bind_eq_ok_iff.1 h
    obtain ⟨_, -, h⟩ := bind_eq_ok_iff.1 h
    cases h
    exact intervals_of_touch htouch
  onFill h := by
    obtain ⟨touched, htouch, h⟩ := bind_eq_ok_iff.1 h
    cases h
    exact intervals_of_touch htouch
  onInsert h := by
    obtain ⟨tailed, -, h⟩ := bind_eq_ok_iff.1 h
    obtain ⟨onInterval, -, h⟩ := bind_eq_ok_iff.1 h
    split at h
    · obtain ⟨_, -, h⟩ := bind_eq_ok_iff.1 h
      cases h
      rfl
    · split at h
      · obtain ⟨block, -, h⟩ := bind_eq_ok_iff.1 h
        split at h
        · obtain ⟨_, -, h⟩ := bind_eq_ok_iff.1 h
          cases h
          rfl
        · cases h
          rfl
      · cases h
        rfl
  onInvalidate h := by
    obtain ⟨_, -, h⟩ := bind_eq_ok_iff.1 h
    cases h
    rfl

theorem TypeAwareRrip.intervals_of_touch {policy touched : TypeAwareRrip} {set : CacheSet}
    (h : policy.touch set = .ok touched) :
    policy.intervals.touch set.index = .ok touched.intervals := by
  obtain ⟨_, hcount, h⟩ := bind_eq_ok_iff.1 h
  cases h
  exact hcount

theorem TypeAwareRrip.touching :
    Policy.Touching (fun index i i' => i.touch index = .ok i') TypeAwareRrip.intervals where
  chooseVictim h := by
    obtain ⟨_, -, h⟩ := bind_eq_ok_iff.1 h
    cases h
    rfl
  onHit h := by
    obtain ⟨touched, htouch, h⟩ := bind_eq_ok_iff.1 h
    obtain ⟨_, -, h⟩ := bind_eq_ok_iff.1 h
    cases h
    exact intervals_of_touch htouch
  onFill h := by
    obtain ⟨touched, htouch, h⟩ := bind_eq_ok_iff.1 h
    cases h
    exact intervals_of_touch htouch
  onInsert h := by
    obtain ⟨_, -, h⟩ := bind_eq_ok_iff.1 h
    obtain ⟨_, -, h⟩ := bind_eq_ok_iff.1 h
    cases h
    rfl
  onInvalidate h := by
    cases h
    rfl

/-! ## The policies of configurations -/

namespace AnyPolicy

/-- Where the sets stand in their intervals, for the policies that have them. -/
def intervals? : AnyPolicy → Option Intervals
  | .thrashResistant policy => some policy.intervals
  | .typeAwareRrip policy => some policy.intervals
  | .lru _ | .lfu _ | .random _ | .staticRrip _ | .dynamicRrip _ | .fullyAssociativeLru _
  | .bimodal _ | .writeBackAware _ => none

/-- The latest touch of a set completed its interval. -/
def OnInterval (policy : AnyPolicy) (index : Nat) : Prop :=
  ∃ intervals ∈ policy.intervals?, intervals.isComplete index = .ok true

variable {policy policy' : AnyPolicy} {intervals : Intervals}

/-- A hit or an arrival moves the interval of its set on, and nothing else does. -/
theorem touch_of_takes {f : Frame} {index : Nat} {set set' : CacheSet} {turn : Turn}
    (hset : set.WellFormed f index) (h : set.Takes policy turn policy' set')
    (hintervals : policy.intervals? = some intervals) :
    ∃ after, policy'.intervals? = some after ∧
      if turn.isTouch then intervals.touch index = .ok after else after = intervals := by
  rw [← close_opened policy] at h
  obtain ⟨value', rfl, hturn⟩ := policy.takes_cases h
  cases policy with
  | thrashResistant policy =>
    cases hintervals
    exact ⟨_, rfl, ThrashResistant.touching.takes_cases hset hturn⟩
  | typeAwareRrip policy =>
    cases hintervals
    exact ⟨_, rfl, TypeAwareRrip.touching.takes_cases hset hturn⟩
  | _ => cases hintervals

theorem intervals?_of_takes {f : Frame} {index : Nat} {set set' : CacheSet} {turn : Turn}
    (hset : set.WellFormed f index) (h : set.Takes policy turn policy' set')
    (hintervals : policy'.intervals? = some intervals) :
    ∃ before, policy.intervals? = some before ∧
      (intervals = before ∨ before.touch index = .ok intervals) := by
  rw [← close_opened policy] at h
  obtain ⟨value', rfl, hturn⟩ := policy.takes_cases h
  cases policy with
  | thrashResistant policy =>
    cases hintervals
    exact ⟨_, rfl, ThrashResistant.touching.takes hset hturn⟩
  | typeAwareRrip policy =>
    cases hintervals
    exact ⟨_, rfl, TypeAwareRrip.touching.takes hset hturn⟩
  | _ => cases hintervals

end AnyPolicy

/-- The interval that a configuration sets, for the policies that count touches. -/
def Config.touchInterval? (c : Config) : Option Nat :=
  match c.policy with
  | .thrashResistant => some c.params.thrashInterval.toNat
  | .typeAwareRrip => some c.params.typeAwareInterval.toNat
  | .lru | .lfu | .random | .staticRrip | .dynamicRrip | .fullyAssociativeLru | .bimodal
  | .writeBackAware => none

/-- A new policy has the interval of its configuration and has counted no touch. -/
theorem AnyPolicy.intervals?_of_ofConfig {c : Config} {g : Geometry} {policy : AnyPolicy}
    {intervals : Intervals} (h : AnyPolicy.ofConfig c g = .ok policy)
    (hintervals : policy.intervals? = some intervals) :
    c.touchInterval? = some intervals.interval ∧ intervals.AtMost 0 := by
  unfold AnyPolicy.ofConfig at h
  cases hkind : c.policy <;> simp only [hkind] at h <;> rw [Config.touchInterval?, hkind]
  case thrashResistant =>
    obtain ⟨built, hbuilt, rfl⟩ := map_eq_ok_iff.1 h
    obtain ⟨i, hstart, hbuilt⟩ := bind_eq_ok_iff.1 hbuilt
    cases hbuilt
    cases hintervals
    obtain ⟨hinterval, hfresh⟩ := Intervals.atMost_start hstart
    exact ⟨by rw [hinterval], hfresh⟩
  case typeAwareRrip =>
    obtain ⟨built, hbuilt, rfl⟩ := map_eq_ok_iff.1 h
    obtain ⟨max, -, hbuilt⟩ := bind_eq_ok_iff.1 hbuilt
    obtain ⟨i, hstart, hbuilt⟩ := bind_eq_ok_iff.1 hbuilt
    cases hbuilt
    cases hintervals
    obtain ⟨hinterval, hfresh⟩ := Intervals.atMost_start hstart
    exact ⟨by rw [hinterval], hfresh⟩
  case staticRrip | dynamicRrip =>
    obtain ⟨_, -, rfl⟩ := map_eq_ok_iff.1 h
    cases hintervals
  case writeBackAware =>
    obtain ⟨_, -, h⟩ := bind_eq_ok_iff.1 h
    obtain ⟨_, -, rfl⟩ := map_eq_ok_iff.1 h
    cases hintervals
  case lru | lfu | random | fullyAssociativeLru | bimodal =>
    cases h
    cases hintervals

/-- A new policy that counts touches has the interval of its configuration, and all its
counters are at zero. -/
theorem AnyPolicy.exists_intervals_of_ofConfig {c : Config} {g : Geometry} {policy : AnyPolicy}
    {interval : Nat} (h : AnyPolicy.ofConfig c g = .ok policy)
    (hinterval : c.touchInterval? = some interval) :
    ∃ intervals, policy.intervals? = some intervals ∧ intervals.interval = interval ∧
      ∀ index < g.numSets, intervals.counters.counterAt index = .ok 0 := by
  unfold AnyPolicy.ofConfig at h
  unfold Config.touchInterval? at hinterval
  cases hkind : c.policy <;> simp only [hkind, reduceCtorEq, Option.some.injEq] at h hinterval
  case thrashResistant =>
    subst hinterval
    obtain ⟨built, hbuilt, rfl⟩ := map_eq_ok_iff.1 h
    obtain ⟨i, hstart, hbuilt⟩ := bind_eq_ok_iff.1 hbuilt
    cases hbuilt
    exact ⟨i, rfl, Intervals.counterAt_of_start hstart⟩
  case typeAwareRrip =>
    subst hinterval
    obtain ⟨built, hbuilt, rfl⟩ := map_eq_ok_iff.1 h
    obtain ⟨max, -, hbuilt⟩ := bind_eq_ok_iff.1 hbuilt
    obtain ⟨i, hstart, hbuilt⟩ := bind_eq_ok_iff.1 hbuilt
    cases hbuilt
    exact ⟨i, rfl, Intervals.counterAt_of_start hstart⟩

end AssocCache
