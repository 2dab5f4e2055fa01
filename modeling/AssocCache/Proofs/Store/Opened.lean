import AssocCache.Proofs.Policy.Any
import AssocCache.Proofs.Store.Paired

/-!
# Stores of a named policy

A store that a configuration describes holds its policy in an `AnyPolicy`.  It
answers every call as the store around the value inside does (`run_opened`), so what
is proved about a policy of its own type holds of the stores of configurations that
name it.
-/

namespace AssocCache

open Success
open Policy (Matching Departing Mimics)

namespace AnyPolicy

/-- The second set is the first one, and the second policy holds a value of the same
type as this one, the first one. -/
def Holds (policy : AnyPolicy) (value : policy.opened.π) (set : CacheSet) (policy' : AnyPolicy)
    (set' : CacheSet) : Prop :=
  policy' = policy.opened.close value ∧ set' = set

variable {policy : AnyPolicy} {value : policy.opened.π} {set : CacheSet} {way index tag : Nat}
  {excused : Fault → Prop} {access : AccessKind}

theorem Holds.matching (policy' : AnyPolicy) (x : policy.opened.π × CacheSet) :
    Matching policy.Holds index value policy' x (policy.opened.close x.1, x.2) where
  here := ⟨rfl, rfl⟩
  elsewhere := fun _ h => ⟨rfl, h.2⟩

@[simp] theorem close_opened (policy : AnyPolicy) :
    policy.opened.close policy.opened.value = policy := by
  cases policy <;> rfl

/-! ## The hooks -/

section Hooks

variable (policy value set way access)

theorem onHit_close :
    Policy.onHit (policy.opened.close value) set way =
      policy.rewrap (Policy.onHit value set way) := by
  cases policy <;> rfl

theorem onFill_close :
    Policy.onFill (policy.opened.close value) set way =
      policy.rewrap (Policy.onFill value set way) := by
  cases policy <;> rfl

theorem onInvalidate_close :
    Policy.onInvalidate (policy.opened.close value) set way =
      policy.rewrap (Policy.onInvalidate value set way) := by
  cases policy <;> rfl

theorem chooseVictim_close :
    Policy.chooseVictim (policy.opened.close value) set =
      (Policy.chooseVictim value set).map fun (way, value, set) =>
        (way, policy.opened.close value, set) := by
  cases policy <;> rfl

end Hooks

/-- A hook and its wrapped form are coupled. -/
theorem coupled_rewrap (outcome : Except Fault (policy.opened.π × CacheSet)) :
    Coupled excused (fun x x' => x' = (policy.opened.close x.1, x.2)) outcome
      (policy.rewrap outcome) :=
  Coupled.map_right outcome fun _ => rfl

/-! ## The steps -/

theorem coupled_hit :
    Coupled excused (fun x x' => x' = (policy.opened.close x.1, x.2)) (set.hit value way access)
      (set.hit (policy.opened.close value) way access) := by
  unfold CacheSet.hit
  split
  · apply Coupled.bind_same (set.blockAt way)
    intro block _
    split
    · rw [onHit_close]
      exact coupled_rewrap _
    · exact .error _
  · rw [onHit_close]
    exact coupled_rewrap _

theorem coupled_vacate :
    Coupled excused (fun x x' => x' = (x.1, policy.opened.close x.2.1, x.2.2))
      (set.vacate value way) (set.vacate (policy.opened.close value) way) := by
  unfold CacheSet.vacate
  apply Coupled.bind_same (set.blockAt way)
  intro block _
  split
  · rw [onInvalidate_close]
    refine (coupled_rewrap _).bind ?_
    rintro ⟨value₁, told⟩ _ rfl
    apply Coupled.bind_same (told.change way Block.clear)
    intro cleared _
    exact .ok rfl
  · exact .ok rfl

theorem coupled_choose :
    Coupled excused (fun x x' => x' = (x.1, policy.opened.close x.2.1, x.2.2))
      (set.choose value) (set.choose (policy.opened.close value)) := by
  unfold CacheSet.choose
  cases set.vacancy with
  | some way => exact .ok rfl
  | none =>
    rw [chooseVictim_close]
    refine (Coupled.map_right (R := fun x x' => x' = (x.1, policy.opened.close x.2.1, x.2.2))
      (Policy.chooseVictim value set) fun _ => rfl).bind ?_
    rintro ⟨way, chosen, aged⟩ _ rfl
    dsimp only
    split
    · exact .ok rfl
    · exact .error _

theorem coupled_accept {kind : MemoryKind} :
    Coupled excused (fun x x' => x' = (policy.opened.close x.1, x.2))
      (set.accept value way tag kind access)
      (set.accept (policy.opened.close value) way tag kind access) := by
  unfold CacheSet.accept
  apply Coupled.bind_same (set.blockAt way)
  intro block _
  split
  · exact .error _
  · dsimp only
    rw [onFill_close]
    refine (coupled_rewrap _).bind ?_
    rintro ⟨told, filled⟩ _ rfl
    dsimp only
    rw [onInsert_close]
    refine (coupled_rewrap _).bind ?_
    rintro ⟨value₁, inserted⟩ _ rfl
    apply Coupled.bind_same inserted.checkUniqueTags
    intro _ _
    exact .ok rfl

theorem coupled_bringIn {kind : MemoryKind} :
    Coupled excused (fun x x' => x' = (x.1, x.2.1, policy.opened.close x.2.2.1, x.2.2.2))
      (set.bringIn value tag kind access)
      (set.bringIn (policy.opened.close value) tag kind access) := by
  unfold CacheSet.bringIn
  refine coupled_choose.bind ?_
  rintro ⟨way, value₁, set₁⟩ _ rfl
  refine coupled_vacate.bind ?_
  rintro ⟨victim, value₂, set₂⟩ _ rfl
  refine coupled_accept.bind ?_
  rintro ⟨value₃, set₃⟩ _ rfl
  exact .ok rfl

theorem mimics (policy : AnyPolicy) (f : Frame) (excused : Fault → Prop) :
    Mimics f excused policy.Holds where
  find_eq tag _ h := by rw [h.2]
  hit access _ h _ := by
    obtain ⟨rfl, rfl⟩ := h
    refine coupled_hit.mono ?_
    rintro x _ rfl
    exact Holds.matching _ x
  bringIn access _ h _ _ := by
    obtain ⟨rfl, rfl⟩ := h
    refine coupled_bringIn.mono ?_
    rintro x _ rfl
    exact ⟨rfl, rfl, Holds.matching _ x.2.2⟩
  vacate _ h _ := by
    obtain ⟨rfl, rfl⟩ := h
    refine coupled_vacate.mono ?_
    rintro x _ rfl
    exact ⟨rfl, Holds.matching _ x.2⟩

/-! ## The stores -/

theorem layout_close (c : Config) (g : Geometry) (policy : AnyPolicy) (value : policy.opened.π) :
    Store.layout c g (policy.opened.close value) = Store.layout c g value := by
  cases policy <;> rfl

/-- The stores around a value and around the wrapped value are built together, or neither is. -/
theorem result_create_close {c : Config} {g : Geometry} (hgeometry : c.geometry = .ok g)
    (policy : AnyPolicy) (value : policy.opened.π) :
    (Store.create c (policy.opened.close value)).result =
      (Store.create c value).result.map fun s => { s with policy := policy.opened.close value } := by
  rw [Store.result_create hgeometry, Store.result_create hgeometry, layout_close]
  cases Store.layout c g value <;> rfl

/-- A store around a wrapped value stands beside a store around the value itself. -/
theorem exists_paired_of_create {c : Config} {s' : Store AnyPolicy} (policy : AnyPolicy)
    (value : policy.opened.π)
    (hbuilt : (Store.create c (policy.opened.close value)).result = .ok s') :
    ∃ s, (Store.create c value).result = .ok s ∧
      Store.Paired (Store.frameOf c s.geometry value) policy.Holds s s' := by
  obtain ⟨geometry, sets, hgeometry, hlayout, rfl⟩ := Store.create_eq_ok_iff.1 hbuilt
  rw [layout_close] at hlayout
  have hbuilt' := Store.create_eq_ok_iff.2 ⟨geometry, sets, hgeometry, hlayout, rfl⟩
  refine ⟨_, hbuilt', (Store.wellFormed_of_create hbuilt').2, rfl, rfl, rfl, rfl, ?_⟩
  intro index set hset
  exact ⟨set, hset, rfl, rfl⟩

/-- Paired stores of which one holds the policy of the other have the same sets. -/
theorem sets_eq_of_paired {f : Frame} {s : Store policy.opened.π} {s' : Store AnyPolicy}
    (h : Store.Paired f policy.Holds s s') : s'.sets = s.sets := by
  refine Array.ext h.size_eq fun index _ hlt => ?_
  obtain ⟨set', hset', hholds⟩ := h.sets (Array.getElem?_eq_getElem hlt)
  obtain ⟨_, hsame⟩ := Array.getElem?_eq_some_iff.1 hset'
  rw [hsame, hholds.2]

/-- A store has a set, so what the sets say of the policy holds of the store. -/
theorem policy_eq_of_paired {f : Frame} {s : Store policy.opened.π} {s' : Store AnyPolicy}
    (h : Store.Paired f policy.Holds s s') : s'.policy = policy.opened.close s.policy := by
  obtain ⟨_, hset⟩ := h.wellFormed.exists_set h.wellFormed.valid.numSets_pos
  obtain ⟨_, -, hholds⟩ := h.sets hset
  exact hholds.1

/-- The store around a wrapped value answers each run as the store around the value
does, and ends with the same statistics and the same sets. -/
theorem run_opened {c : Config} {s' : Store AnyPolicy} (policy : AnyPolicy)
    (value : policy.opened.π)
    (hbuilt : (Store.create c (policy.opened.close value)).result = .ok s') :
    ∃ s, (Store.create c value).result = .ok s ∧ s'.geometry = s.geometry ∧ ∀ calls : List Call,
      Coupled (fun _ => False)
        (fun x x' => x'.1 = x.1 ∧ x'.2.stats = x.2.stats ∧ x'.2.sets = x.2.sets)
        (Store.run calls s) (Store.run calls s') := by
  obtain ⟨s, hcreate, hpaired⟩ := exists_paired_of_create policy value hbuilt
  refine ⟨s, hcreate, hpaired.geometry_eq, fun calls => ?_⟩
  refine (hpaired.run (policy.mimics _ _) calls).mono ?_
  intro x x' ⟨hhistory, hafter⟩
  exact ⟨hhistory, hafter.stats_eq, sets_eq_of_paired hafter⟩

end AnyPolicy

end AssocCache
