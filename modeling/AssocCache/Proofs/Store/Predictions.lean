import AssocCache.Proofs.Policy.Local
import AssocCache.Proofs.Policy.Predicting
import AssocCache.Proofs.Policy.Touches
import AssocCache.Proofs.Store.LongRuns

/-!
# Predictions in the runs of a store

The three predicting policies keep a prediction in each block.  The most distant
prediction is fixed by the configuration and no hook changes it
(`mostDistant?_of_takes`), no prediction ever passes it, and so the search for a victim
ends for every set that a run can lead to (`predictions_of_run`).
-/

/-!
## The victim search in closed form

The search for a victim ages the set until a block has the most distant prediction.  So
the first block with the largest prediction goes, and the search takes as many rounds of
ageing as this prediction is short of the maximum (`searchVictim_eq`).  Every block ages
by as much, so the predictions keep their differences.

In each round the invariant of the search is that the same way comes first among those
with the largest prediction, and that this prediction has moved up by one.
-/

namespace AssocCache.Prediction

open Success CacheSet

variable {max m way : Nat} {set : CacheSet}

/-- The set with all predictions moved up by as much. -/
def agedBy (steps : Nat) (set : CacheSet) : CacheSet :=
  { set with blocks := set.blocks.map fun block => { block with word := block.word + steps } }

@[simp] theorem agedBy_zero (set : CacheSet) : agedBy 0 set = set := by
  simp [agedBy]

theorem agedBy_agedBy (first second : Nat) (set : CacheSet) :
    agedBy second (agedBy first set) = agedBy (first + second) set := by
  simp [agedBy, Nat.add_assoc]

@[simp] theorem broken_agedBy (steps : Nat) (set : CacheSet) (cause : Inconsistency) :
    (agedBy steps set).broken cause = set.broken cause := rfl

/-- The first block with some prediction is the same after all have moved. -/
theorem findIdx?_agedBy (steps word : Nat) (set : CacheSet) :
    (agedBy steps set).blocks.findIdx? (·.word == word + steps) =
      set.blocks.findIdx? (·.word == word) := by
  rw [agedBy, List.findIdx?_map]
  congr 1
  funext block
  simp

/-- A round of ageing short of the maximum moves all predictions up by one. -/
theorem age_eq_agedBy (hmax : max + 1 < 2 ^ 64) (hle : ∀ block ∈ set.blocks, block.word ≤ m)
    (hm : m < max) : age max set = .ok (agedBy 1 set) := by
  have hbounded : Bounded max set := fun block hblock =>
    Nat.le_trans (hle block hblock) (Nat.le_of_lt hm)
  rw [age_eq hmax hbounded, agedBy]
  congr 2
  refine List.map_congr_left fun block hblock => ?_
  have hword : min (block.word + 1) max = block.word + 1 := by
    have := hle block hblock
    omega
  rw [older, hword]

/-- The search ends in the round in which the largest prediction has become the maximum,
and fails if it is given fewer rounds. -/
theorem searchVictim_eq (hmax : max + 1 < 2 ^ 64) (rounds : Nat)
    (hle : ∀ block ∈ set.blocks, block.word ≤ m)
    (hfirst : set.blocks.findIdx? (·.word == m) = some way) (hm : m ≤ max) :
    searchVictim max rounds set =
      if max - m < rounds then .ok (way, agedBy (max - m) set)
      else .error (set.broken (.noDistantWay max)) := by
  induction rounds generalizing set m with
  | zero => rw [searchVictim, if_neg (Nat.not_lt_zero _)]
  | succ rounds ih =>
    rcases Nat.eq_or_lt_of_le hm with rfl | hlt
    · rw [searchVictim, hfirst, Nat.sub_self, if_pos (Nat.succ_pos _), agedBy_zero]
    · -- No block is at the maximum yet, so the set ages and the search begins again.
      have hnone : set.blocks.findIdx? (·.word == max) = none := by
        rw [List.findIdx?_eq_none_iff]
        intro block hblock
        have := hle block hblock
        simp only [beq_eq_false_iff_ne]
        omega
      have hle' : ∀ block ∈ (agedBy 1 set).blocks, block.word ≤ m + 1 := by
        intro block hblock
        obtain ⟨young, hyoung, rfl⟩ := List.mem_map.1 hblock
        exact Nat.succ_le_succ (hle young hyoung)
      have hrest := ih hle' ((findIdx?_agedBy 1 m set).trans hfirst) hlt
      have hsteps : 1 + (max - (m + 1)) = max - m := by omega
      have hsearch : searchVictim max (rounds + 1) set =
          searchVictim max rounds (agedBy 1 set) := by
        rw [searchVictim, hnone]
        show age max set >>= searchVictim max rounds = _
        rw [age_eq_agedBy hmax hle hlt]
        rfl
      rw [hsearch, hrest, agedBy_agedBy, hsteps, broken_agedBy]
      congr 1
      rw [eq_iff_iff]
      omega

/-- A set with a way and no prediction beyond the maximum has a victim: the first block
with the largest prediction. -/
theorem victim_eq (hmax : max + 1 < 2 ^ 64) (hle : ∀ block ∈ set.blocks, block.word ≤ m)
    (hfirst : set.blocks.findIdx? (·.word == m) = some way) (hm : m ≤ max) :
    victim max set = .ok (way, agedBy (max - m) set) := by
  have hrounds : max - m < max + 1 := by omega
  rw [victim, searchVictim_eq hmax (max + 1) hle hfirst hm, if_pos hrounds]

/-- The search settles on the first way with the most distant prediction, whatever the
predictions were. -/
theorem first_of_searchVictim {rounds : Nat} {aged : CacheSet}
    (h : searchVictim max rounds set = .ok (way, aged)) :
    aged.blocks.findIdx? (·.word == max) = some way := by
  induction rounds generalizing set with
  | zero => cases h
  | succ rounds ih =>
    rw [searchVictim] at h
    split at h
    · rename_i hfirst
      cases h
      exact hfirst
    · obtain ⟨older, -, h⟩ := bind_eq_ok_iff.1 h
      exact ih h

/-- A set in which some block has the most distant prediction does not age. -/
theorem eq_of_victim {aged : CacheSet} (h : victim max set = .ok (way, aged))
    (hfirst : (set.blocks.findIdx? (·.word == max)).isSome = true) : aged = set := by
  obtain ⟨first, hfirst⟩ := Option.isSome_iff_exists.1 hfirst
  rw [victim, searchVictim, hfirst] at h
  cases h
  rfl

/-- The way comes first among those with a prediction. -/
theorem of_findIdx? (h : set.blocks.findIdx? (·.word == m) = some way) :
    (∀ {block : Block}, set.blocks[way]? = some block → block.word = m) ∧
      ∀ {other : Nat} {found : Block}, set.blocks[other]? = some found → found.word = m →
        way ≤ other := by
  obtain ⟨hlt, hword, hbefore⟩ := List.findIdx?_eq_some_iff_getElem.1 h
  refine ⟨fun hb => ?_, fun {other found} hfound hsame => ?_⟩
  · obtain ⟨-, rfl⟩ := List.getElem?_eq_some_iff.1 hb
    exact beq_iff_eq.1 hword
  · obtain ⟨hother, rfl⟩ := List.getElem?_eq_some_iff.1 hfound
    refine Nat.le_of_not_lt fun hless => hbefore other hless ?_
    exact beq_iff_eq.2 hsame

/-- Some block comes first among those with the largest prediction. -/
theorem exists_first_of_max? (hlargest : (set.blocks.map (·.word)).max? = some m) :
    (∀ block ∈ set.blocks, block.word ≤ m) ∧
      ∃ way, set.blocks.findIdx? (·.word == m) = some way := by
  obtain ⟨hmem, hle⟩ := List.max?_eq_some_iff.1 hlargest
  refine ⟨fun block hblock => hle _ (List.mem_map_of_mem hblock), ?_⟩
  obtain ⟨block, hblock, hword⟩ := List.mem_map.1 hmem
  rw [← Option.isSome_iff_exists, List.findIdx?_isSome, List.any_eq_true]
  exact ⟨block, hblock, beq_iff_eq.2 hword⟩

end AssocCache.Prediction

/-! ## The most distant prediction is fixed -/

namespace AssocCache

open Success

theorem StaticRrip.constant : Policy.Constant StaticRrip.max where
  chooseVictim h := by
    obtain ⟨_, -, h⟩ := bind_eq_ok_iff.1 h
    cases h
    rfl
  onHit h := by
    obtain ⟨_, -, h⟩ := bind_eq_ok_iff.1 h
    cases h
    rfl
  onFill h := by
    cases h
    rfl
  onInsert h := by
    obtain ⟨_, -, h⟩ := bind_eq_ok_iff.1 h
    cases h
    rfl
  onInvalidate h := by
    cases h
    rfl

theorem DynamicRrip.constant : Policy.Constant DynamicRrip.max where
  chooseVictim h := by
    obtain ⟨_, -, h⟩ := bind_eq_ok_iff.1 h
    cases h
    rfl
  onHit h := by
    obtain ⟨_, -, h⟩ := bind_eq_ok_iff.1 h
    cases h
    rfl
  onFill h := by
    cases h
    rfl
  onInsert {policy policy' set set' way access} h := by
    obtain ⟨counted, hcount, h⟩ := bind_eq_ok_iff.1 h
    obtain ⟨⟨prediction, next⟩, hinsertion, h⟩ := bind_eq_ok_iff.1 h
    obtain ⟨_, -, h⟩ := bind_eq_ok_iff.1 h
    cases h
    have hinserted : policy'.max = counted.max := (counted.max_of_insertion _).of_ok hinsertion
    exact hinserted.trans ((policy.max_of_countFill _).of_ok hcount)
  onInvalidate h := by
    cases h
    rfl

/-- A touch counts and changes nothing else. -/
theorem TypeAwareRrip.max_of_touch {policy touched : TypeAwareRrip} {set : CacheSet}
    (h : policy.touch set = .ok touched) : touched.max = policy.max := by
  obtain ⟨_, -, h⟩ := bind_eq_ok_iff.1 h
  cases h
  rfl

theorem TypeAwareRrip.constant : Policy.Constant TypeAwareRrip.max where
  chooseVictim h := by
    obtain ⟨_, -, h⟩ := bind_eq_ok_iff.1 h
    cases h
    rfl
  onHit h := by
    obtain ⟨touched, htouch, h⟩ := bind_eq_ok_iff.1 h
    obtain ⟨_, -, h⟩ := bind_eq_ok_iff.1 h
    cases h
    exact max_of_touch htouch
  onFill h := by
    obtain ⟨touched, htouch, h⟩ := bind_eq_ok_iff.1 h
    cases h
    exact max_of_touch htouch
  onInsert h := by
    obtain ⟨_, -, h⟩ := bind_eq_ok_iff.1 h
    obtain ⟨_, -, h⟩ := bind_eq_ok_iff.1 h
    cases h
    rfl
  onInvalidate h := by
    cases h
    rfl

namespace AnyPolicy

/-- The most distant prediction, for the policies that predict. -/
def mostDistant? : AnyPolicy → Option Nat
  | .staticRrip policy => some policy.max
  | .dynamicRrip policy => some policy.max
  | .typeAwareRrip policy => some policy.max
  | .lru _ | .lfu _ | .random _ | .thrashResistant _ | .fullyAssociativeLru _ | .bimodal _
  | .writeBackAware _ => none

variable {policy policy' : AnyPolicy} {set set' : CacheSet} {turn : Turn} {max : Nat}

/-- No turn changes the most distant prediction. -/
theorem mostDistant?_of_takes {f : Frame} {index : Nat} (hset : set.WellFormed f index)
    (h : set.Takes policy turn policy' set') :
    policy'.mostDistant? = policy.mostDistant? := by
  rw [← close_opened policy] at h
  obtain ⟨value', rfl, hturn⟩ := policy.takes_cases h
  cases policy with
  | staticRrip policy => exact congrArg some (StaticRrip.constant.takes hset hturn)
  | dynamicRrip policy => exact congrArg some (DynamicRrip.constant.takes hset hturn)
  | typeAwareRrip policy => exact congrArg some (TypeAwareRrip.constant.takes hset hturn)
  | _ => rfl

/-- A predicting policy gives up what the search finds, and stays as it is. -/
theorem chooseVictim_of_victim (h : policy.mostDistant? = some max) {way : Nat} {aged : CacheSet}
    (hvictim : Prediction.victim max set = .ok (way, aged)) :
    Policy.chooseVictim policy set = .ok (way, policy, aged) := by
  cases policy with
  | staticRrip _ | dynamicRrip _ | typeAwareRrip _ =>
    cases h
    exact map_eq_ok_iff.2 ⟨_, bind_eq_ok_iff.2 ⟨_, hvictim, rfl⟩, rfl⟩
  | _ => cases h

theorem bounded_of_fits (h : policy.mostDistant? = some max)
    (hfits : ∀ room, Policy.Dependable.Fits room policy set) : Prediction.Bounded max set := by
  cases policy with
  | staticRrip _ =>
    cases h
    exact StaticRrip.Fits.bounded (hfits 0)
  | dynamicRrip _ =>
    cases h
    exact (hfits 0).2
  | typeAwareRrip _ =>
    cases h
    exact TypeAwareRrip.Fits.bounded (hfits 0)
  | _ => cases h

/-- A predicting policy has no need of room. -/
theorem countsTouches_of_mostDistant? (h : policy.mostDistant? = some max) :
    policy.countsTouches = false := by
  cases policy with
  | staticRrip _ | dynamicRrip _ | typeAwareRrip _ => rfl
  | _ => cases h

end AnyPolicy

/-! ## Runs -/

/-- How many bits the policy of a configuration has for a prediction, if it predicts. -/
def Config.predictionBits? (c : Config) : Option Nat :=
  match c.policy with
  | .staticRrip | .dynamicRrip => some c.params.predictionBits.toNat
  | .typeAwareRrip => some c.params.typeAwarePredictionBits.toNat
  | .lru | .lfu | .random | .thrashResistant | .fullyAssociativeLru | .bimodal
  | .writeBackAware => none

theorem AnyPolicy.mostDistant?_of_ofConfig {c : Config} {g : Geometry} {policy : AnyPolicy}
    {bits : Nat} (h : AnyPolicy.ofConfig c g = .ok policy) (hbits : c.predictionBits? = some bits) :
    policy.mostDistant? = some (2 ^ bits - 1) ∧ bits < 64 := by
  unfold AnyPolicy.ofConfig at h
  cases hkind : c.policy <;>
    simp only [Config.predictionBits?, hkind, reduceCtorEq, Option.some.injEq] at h hbits
  case staticRrip =>
    subst hbits
    obtain ⟨built, hbuilt, rfl⟩ := map_eq_ok_iff.1 h
    obtain ⟨max, hmax, hbuilt⟩ := bind_eq_ok_iff.1 hbuilt
    obtain ⟨hlt, rfl⟩ := Word.ones_eq_ok_iff.1 hmax
    refine ⟨?_, hlt⟩
    split at hbuilt
    · cases hbuilt
      rfl
    · split at hbuilt
      · cases hbuilt
        rfl
      · cases hbuilt
  case dynamicRrip =>
    subst hbits
    obtain ⟨built, hbuilt, rfl⟩ := map_eq_ok_iff.1 h
    obtain ⟨selectorMax, -, hbuilt⟩ := bind_eq_ok_iff.1 hbuilt
    obtain ⟨max, hmax, hbuilt⟩ := bind_eq_ok_iff.1 hbuilt
    obtain ⟨hlt, rfl⟩ := Word.ones_eq_ok_iff.1 hmax
    cases hbuilt
    exact ⟨rfl, hlt⟩
  case typeAwareRrip =>
    subst hbits
    obtain ⟨built, hbuilt, rfl⟩ := map_eq_ok_iff.1 h
    obtain ⟨max, hmax, hbuilt⟩ := bind_eq_ok_iff.1 hbuilt
    obtain ⟨intervals, -, hbuilt⟩ := bind_eq_ok_iff.1 hbuilt
    obtain ⟨hlt, rfl⟩ := Word.ones_eq_ok_iff.1 hmax
    cases hbuilt
    exact ⟨rfl, hlt⟩

namespace Store

variable {c : Config} {s₀ s : Store AnyPolicy} {calls : List Call} {history : List Exchange}
  {bits : Nat}

/-- The most distant prediction is the same in all stores that a run leads to. -/
theorem mostDistant?_of_run (hbuilt : (ofConfig c).result = .ok s₀)
    (hrun : run calls s₀ = .ok (history, s)) : s.policy.mostDistant? = s₀.policy.mostDistant? := by
  have hwell := (wellFormed_of_ofConfig hbuilt).2
  refine hwell.policy_of_run (Q := fun policy => policy.mostDistant? = s₀.policy.mostDistant?)
    (fun hset htakes hsame => ?_) hrun rfl
  exact (AnyPolicy.mostDistant?_of_takes hset htakes).trans hsame

/-- No prediction passes the most distant one in a store that a run leads to. -/
theorem bounded_of_run (hbuilt : (ofConfig c).result = .ok s₀)
    (hrun : run calls s₀ = .ok (history, s)) (hbits : c.predictionBits? = some bits)
    {index : Nat} {set : CacheSet} (hset : s.sets[index]? = some set) :
    Prediction.Bounded (2 ^ bits - 1) set := by
  obtain ⟨hpolicy, huntouched⟩ := untouched_of_ofConfig hbuilt
  have hmost := (AnyPolicy.mostDistant?_of_ofConfig hpolicy hbits).1
  have hready := ready_of_ofConfig hbuilt (show 0 < 2 ^ 32 by decide)
  have hfresh : s₀.Upheld fun policy set => ∀ room, Policy.Dependable.Fits room policy set :=
    fun index set hset => AnyPolicy.fits_of_roomless
      (AnyPolicy.countsTouches_of_mostDistant? hmost) (hready.fits hset)
  have hfits := hready.wellFormed.upheld_of_run Policy.Dependable.upholds allows_any hfresh
    (throughout_of_forall (fun _ _ _ => trivial) calls s₀) hrun
  exact AnyPolicy.bounded_of_fits ((mostDistant?_of_run hbuilt hrun).trans hmost) (hfits hset)

/-- In a store that a run leads to no prediction passes the most distant one.  For every set
with a way and no prediction beyond, the search for a victim ends: it takes as many rounds
of ageing as the largest prediction is short of the most distant one, finds the first way
with the largest prediction, and leaves all predictions greater by as much. -/
theorem predictions_of_run (hbuilt : (ofConfig c).result = .ok s₀)
    (hrun : run calls s₀ = .ok (history, s)) (hbits : c.predictionBits? = some bits) :
    (∀ (index way : Nat) (block : Block), s.block? index way = some block →
      block.word ≤ 2 ^ bits - 1) ∧
    ∀ (set : CacheSet) (m : Nat), (set.blocks.map (·.word)).max? = some m → m ≤ 2 ^ bits - 1 →
      ∃ way, set.blocks.findIdx? (·.word == m) = some way ∧
        (∀ rounds, Prediction.searchVictim (2 ^ bits - 1) rounds set =
          if 2 ^ bits - 1 - m < rounds then .ok (way, Prediction.agedBy (2 ^ bits - 1 - m) set)
          else .error (set.broken (.noDistantWay (2 ^ bits - 1)))) ∧
        Prediction.victim (2 ^ bits - 1) set =
          .ok (way, Prediction.agedBy (2 ^ bits - 1 - m) set) ∧
        Policy.chooseVictim s.policy set =
          .ok (way, s.policy, Prediction.agedBy (2 ^ bits - 1 - m) set) := by
  obtain ⟨hpolicy, -⟩ := untouched_of_ofConfig hbuilt
  obtain ⟨hmost, hlt⟩ := AnyPolicy.mostDistant?_of_ofConfig hpolicy hbits
  have hmost' := (mostDistant?_of_run hbuilt hrun).trans hmost
  have hmax : 2 ^ bits - 1 + 1 < 2 ^ 64 :=
    AnyPolicy.max_lt_of_maxOfBits (Word.ones_eq_ok_iff.2 ⟨hlt, rfl⟩)
  refine ⟨fun index way block hblock => ?_, fun set m hlargest hm => ?_⟩
  · obtain ⟨set, hset, hb⟩ := Option.bind_eq_some_iff.1 hblock
    exact (bounded_of_run hbuilt hrun hbits hset).word_le hb
  · obtain ⟨hle, way, hfirst⟩ := Prediction.exists_first_of_max? hlargest
    have hvictim := Prediction.victim_eq hmax hle hfirst hm
    exact ⟨way, hfirst, fun rounds => Prediction.searchVictim_eq hmax rounds hle hfirst hm, hvictim,
      AnyPolicy.chooseVictim_of_victim hmost' hvictim⟩

/-- A set of two lines of which the first was hit.  The second one goes, after one round of
ageing. -/
theorem predictions_of_two_lines :
    ∃ s₀ history s set,
      (ofConfig { Config.ofShape .staticRrip 128 64 2 with addressBits := 32 }).result = .ok s₀ ∧
      run [.fill 0 .read, .fill 64 .read, .probe 0 .read] s₀ = .ok (history, s) ∧
      s.sets[0]? = some set ∧ set.blocks.map (·.word) = [0, 2] ∧
      Policy.chooseVictim s.policy set = .ok (1, s.policy, Prediction.agedBy 1 set) := by
  obtain ⟨s₀, history, s, set, hbuilt, hrun, hset, hwords⟩ : ∃ s₀ history s set,
      (ofConfig { Config.ofShape .staticRrip 128 64 2 with addressBits := 32 }).result = .ok s₀ ∧
      run [.fill 0 .read, .fill 64 .read, .probe 0 .read] s₀ = .ok (history, s) ∧
      s.sets[0]? = some set ∧ set.blocks.map (·.word) = [0, 2] :=
    ⟨_, _, _, _, rfl, rfl, rfl, rfl⟩
  refine ⟨s₀, history, s, set, hbuilt, hrun, hset, hwords, ?_⟩
  have hlargest : (set.blocks.map (·.word)).max? = some 2 := by rw [hwords]; rfl
  have hbits : Config.predictionBits?
      { Config.ofShape .staticRrip 128 64 2 with addressBits := 32 } = some 2 := rfl
  obtain ⟨way, hfirst, -, -, hchoice⟩ :=
    (predictions_of_run hbuilt hrun hbits).2 set 2 hlargest (by decide)
  have hway : (set.blocks.map (·.word)).findIdx? (· == 2) = some way := by
    rw [List.findIdx?_map]
    exact hfirst
  rw [hwords] at hway
  cases hway
  exact hchoice

end Store

end AssocCache
