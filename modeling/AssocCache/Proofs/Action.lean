import AssocCache.Action

/-!
# How an action ends

`Action.Ends x s after failed` describes a run of an action from a state, whichever
way it ends: `after` holds of the answer and the state of a success, and `failed` of
the error and the state of a failure.  An action keeps the state it had reached when
it fails, so a failure needs a description as much as a success does.

A sequence is described part by part (`ends_bind`), and a loop by an invariant
(`Ends.forEach`).
-/

namespace AssocCache.Action

variable {ε ε' σ α β : Type} {x : Action ε σ α} {s t : σ} {after after' : α → σ → Prop}
  {failed failed' : ε → σ → Prop}

theorem step_pure_eq_ok_iff {a b : α} :
    (pure a : Action ε σ α).step s = (.ok b, t) ↔ a = b ∧ s = t := by
  rw [step_pure, Prod.mk.injEq, Except.ok.injEq]

/-- What holds at the end of a run. -/
def Ends (x : Action ε σ α) (s : σ) (after : α → σ → Prop) (failed : ε → σ → Prop) : Prop :=
  match x.step s with
  | (.ok a, t) => after a t
  | (.error e, t) => failed e t

theorem ends_iff :
    Ends x s after failed ↔ (∀ a t, x.step s = (.ok a, t) → after a t) ∧
      ∀ e t, x.step s = (.error e, t) → failed e t := by
  unfold Ends
  rcases x.step s with ⟨e | a, t⟩
  · simp
  · simp

theorem Ends.of_ok {a : α} (h : Ends x s after failed) (hstep : x.step s = (.ok a, t)) :
    after a t :=
  (ends_iff.1 h).1 a t hstep

theorem Ends.of_error {e : ε} (h : Ends x s after failed) (hstep : x.step s = (.error e, t)) :
    failed e t :=
  (ends_iff.1 h).2 e t hstep

theorem ends_bind {f : α → Action ε σ β} {after : β → σ → Prop} :
    Ends (x >>= f) s after failed ↔ Ends x s (fun a t => Ends (f a) t after failed) failed := by
  unfold Ends
  rw [step_bind]
  rcases x.step s with ⟨e | a, t⟩
  · rfl
  · rfl

theorem ends_mapError {f : ε → ε'} {failed : ε' → σ → Prop} :
    Ends (x.mapError f) s after failed ↔ Ends x s after fun e => failed (f e) := by
  unfold Ends
  rw [step_mapError]
  rcases x.step s with ⟨e | a, t⟩
  · rfl
  · rfl

theorem ends_of_ok {a : α} (hstep : x.step s = (.ok a, t)) (h : after a t) :
    Ends x s after failed := by
  unfold Ends
  rw [hstep]
  exact h

theorem ends_of_error {e : ε} (hstep : x.step s = (.error e, t)) (h : failed e t) :
    Ends x s after failed := by
  unfold Ends
  rw [hstep]
  exact h

theorem Ends.of_step_eq {y : Action ε σ α} (h : Ends y s after failed) (hstep : x.step s = y.step s) :
    Ends x s after failed := by
  unfold Ends
  rw [hstep]
  exact h

theorem Ends.weaken (h : Ends x s after failed) (hafter : ∀ a t, after a t → after' a t)
    (hfailed : ∀ e t, failed e t → failed' e t) : Ends x s after' failed' := by
  rw [ends_iff] at h ⊢
  constructor
  · intro a t hstep
    exact hafter a t (h.1 a t hstep)
  · intro e t hstep
    exact hfailed e t (h.2 e t hstep)

/-- A sequence of actions that fail in the same way. -/
theorem Ends.bind {f : α → Action ε σ β} {after' : β → σ → Prop} (h : Ends x s after failed)
    (hnext : ∀ a t, after a t → Ends (f a) t after' failed) : Ends (x >>= f) s after' failed :=
  ends_bind.2 (h.weaken hnext fun _ _ hfailed => hfailed)

/-- The two ways to end can be described apart. -/
theorem Ends.of_failed (h : Ends x s (fun _ _ => True) failed)
    (hafter : ∀ a t, x.step s = (.ok a, t) → after a t) : Ends x s after failed :=
  ends_iff.2 ⟨hafter, fun _ _ => h.of_error⟩

theorem ends_forEach_cons {f : α → Action ε σ Unit} {a : α} {as : List α}
    {after : Unit → σ → Prop} :
    Ends (forEach (a :: as) f) s after failed ↔
      Ends (f a) s (fun _ t => Ends (forEach as f) t after failed) failed := by
  unfold Ends
  rw [step_forEach_cons]
  rcases (f a).step s with ⟨e | u, t⟩
  · rfl
  · rfl

/-- A loop keeps what each of its rounds keeps, by induction on the list. -/
theorem Ends.forEach {as : List α} {f : α → Action ε σ Unit} {invariant : σ → Prop}
    (hround : ∀ a ∈ as, ∀ s, invariant s → Ends (f a) s (fun _ => invariant) failed)
    (hstart : invariant s) : Ends (forEach as f) s (fun _ => invariant) failed := by
  induction as generalizing s with
  | nil => exact hstart
  | cons a as ih =>
    refine ends_forEach_cons.2 ((hround a List.mem_cons_self s hstart).weaken ?_ fun _ _ h => h)
    exact fun _ t ht => ih (fun b hb => hround b (List.mem_cons_of_mem a hb)) ht

end AssocCache.Action
