import AssocCache.Logged

/-!
# Actions on a state

`Action ε σ α` is a computation that changes a state of type `σ`, logs, and may
fail.  A run always returns the state it had reached, also when it fails, so a
sequence of actions keeps what its successful part did.

`Action.step` forgets the log.  `step_pure` and `step_bind` describe sequences,
and `step_forEach_nil`, `step_forEach_cons` and `step_forEach_append` the loop
over a list, which runs in constant stack space.

`Action.outcome` forgets the state that a failure leaves behind as well.  It is what a
proof about the answers needs, and `outcome_bind` turns a sequence of actions into a
sequence of results.
-/

namespace AssocCache

/-- A computation that changes a state, logs, and may fail. -/
def Action (ε σ α : Type) : Type := σ → Logged ε α × σ

namespace Action

variable {ε σ α β : Type}

/-- Continues after a success, in the state reached. -/
def bind (x : Action ε σ α) (f : α → Action ε σ β) : Action ε σ β := fun s =>
  match x s with
  | (⟨log, .ok a⟩, s) =>
    match f a s with
    | (⟨more, result⟩, s) => (⟨log ++ more, result⟩, s)
  | (⟨log, .error e⟩, s) => (⟨log, .error e⟩, s)

instance : Monad (Action ε σ) where
  pure a := fun s => (pure a, s)
  bind := Action.bind

/-- Runs an action on a state. -/
def run (x : Action ε σ α) (s : σ) : Logged ε α × σ := x s

/-- How an action ends and the state it reaches, without the log. -/
def step (x : Action ε σ α) (s : σ) : Except ε α × σ := ((x s).1.result, (x s).2)

/-- How an action ends, with the state it reaches if that is a success. -/
def outcome (x : Action ε σ α) (s : σ) : Except ε (α × σ) :=
  match x.step s with
  | (.ok a, s) => .ok (a, s)
  | (.error e, _) => .error e

/-- The state. -/
def get : Action ε σ σ := fun s => (pure s, s)

/-- What is read off the state, if it can be. -/
def read (f : σ → Logged ε α) : Action ε σ α := fun s => (f s, s)

/-- A single assignment.  The new state is worked out from the old one, with an answer,
and then put in its place.  If it cannot be worked out, nothing has been assigned yet. -/
def assign (f : σ → Logged ε (α × σ)) : Action ε σ α := fun s =>
  match f s with
  | ⟨log, .ok (a, s)⟩ => (⟨log, .ok a⟩, s)
  | ⟨log, .error e⟩ => (⟨log, .error e⟩, s)

/-- Logs a message. -/
def note (message : Message) : Action ε σ Unit := fun s => (Logged.note message, s)

/-- Ends with a failure. -/
def fail (e : ε) : Action ε σ α := fun s => (Logged.fail e, s)

/-- The same action with its failure, if any, seen as another type's. -/
def mapError {ε' : Type} (f : ε → ε') (x : Action ε σ α) : Action ε' σ α := fun s =>
  ((x s).1.mapError f, (x s).2)

/-- The loop behind `forEach`, with the log of the steps so far. -/
def forEachFrom (f : α → Action ε σ Unit) : List α → Array Message → σ → Logged ε Unit × σ
  | [], log, s => (⟨log, .ok ()⟩, s)
  | a :: as, log, s =>
    match f a s with
    | (⟨more, .ok ()⟩, s) => forEachFrom f as (log ++ more) s
    | (⟨more, .error e⟩, s) => (⟨log ++ more, .error e⟩, s)

/-- Does an action for each member of a list, until one fails. -/
def forEach (as : List α) (f : α → Action ε σ Unit) : Action ε σ Unit := fun s =>
  forEachFrom f as #[] s

/-- The loop behind `mapEach`, with the log and the results of the steps so far,
the latest result first. -/
def mapEachFrom (f : α → Action ε σ β) :
    List α → List β → Array Message → σ → Logged ε (List β) × σ
  | [], bs, log, s => (⟨log, .ok bs.reverse⟩, s)
  | a :: as, bs, log, s =>
    match f a s with
    | (⟨more, .ok b⟩, s) => mapEachFrom f as (b :: bs) (log ++ more) s
    | (⟨more, .error e⟩, s) => (⟨log ++ more, .error e⟩, s)

/-- Does an action for each member of a list, until one fails, and collects the
results. -/
def mapEach (as : List α) (f : α → Action ε σ β) : Action ε σ (List β) := fun s =>
  mapEachFrom f as [] #[] s

/-! ## Without the log -/

@[simp] theorem step_pure (a : α) (s : σ) : (pure a : Action ε σ α).step s = (.ok a, s) := rfl

theorem step_bind (x : Action ε σ α) (f : α → Action ε σ β) (s : σ) :
    (x >>= f).step s =
      match x.step s with
      | (.ok a, s) => (f a).step s
      | (.error e, s) => (.error e, s) := by
  change (Action.bind x f).step s = _
  simp only [step, Action.bind]
  rcases x s with ⟨⟨log, e | a⟩, t⟩ <;> rfl

theorem step_bind_eq_ok_iff {x : Action ε σ α} {f : α → Action ε σ β} {b : β} {s t : σ} :
    (x >>= f).step s = (.ok b, t) ↔
      ∃ a u, x.step s = (.ok a, u) ∧ (f a).step u = (.ok b, t) := by
  rw [step_bind]
  rcases x.step s with ⟨e | a, u⟩
  · simp
  · constructor
    · intro h
      exact ⟨a, u, rfl, h⟩
    · rintro ⟨_, _, h, hf⟩
      cases h
      exact hf

@[simp] theorem step_get (s : σ) : (get : Action ε σ σ).step s = (.ok s, s) := rfl

@[simp] theorem step_note (message : Message) (s : σ) :
    (note message : Action ε σ Unit).step s = (.ok (), s) := rfl

@[simp] theorem step_fail (e : ε) (s : σ) : (fail e : Action ε σ α).step s = (.error e, s) := rfl

@[simp] theorem step_read (f : σ → Logged ε α) (s : σ) :
    (read f).step s = ((f s).result, s) := rfl

theorem step_assign_eq_ok_iff {f : σ → Logged ε (α × σ)} {a : α} {s t : σ} :
    (assign f).step s = (.ok a, t) ↔ (f s).result = .ok (a, t) := by
  simp only [step, assign]
  rcases f s with ⟨log, e | ⟨b, u⟩⟩ <;> simp

theorem step_assign (f : σ → Logged ε (α × σ)) (s : σ) :
    (assign f).step s =
      match (f s).result with
      | .ok (a, t) => (.ok a, t)
      | .error e => (.error e, s) := by
  simp only [step, assign]
  rcases f s with ⟨log, e | ⟨a, t⟩⟩ <;> rfl

@[simp] theorem step_mapError {ε' : Type} (f : ε → ε') (x : Action ε σ α) (s : σ) :
    (x.mapError f).step s = ((x.step s).1.mapError f, (x.step s).2) := rfl

theorem forEachFrom_log (f : α → Action ε σ Unit) (as : List α) (log : Array Message) (s : σ) :
    ((forEachFrom f as log s).1.result, (forEachFrom f as log s).2) = (forEach as f).step s := by
  suffices h : ∀ log log', ((forEachFrom f as log s).1.result, (forEachFrom f as log s).2) =
      ((forEachFrom f as log' s).1.result, (forEachFrom f as log' s).2) from h log #[]
  induction as generalizing s with
  | nil => intros; rfl
  | cons a as ih =>
    intro log log'
    simp only [forEachFrom]
    rcases f a s with ⟨⟨more, e | u⟩, t⟩
    · rfl
    · exact ih t _ _

@[simp] theorem step_forEach_nil (f : α → Action ε σ Unit) (s : σ) :
    (forEach [] f).step s = (.ok (), s) := rfl

theorem step_forEach_cons (f : α → Action ε σ Unit) (a : α) (as : List α) (s : σ) :
    (forEach (a :: as) f).step s =
      match (f a).step s with
      | (.ok _, s) => (forEach as f).step s
      | (.error e, s) => (.error e, s) := by
  simp only [step, forEach, forEachFrom]
  rcases f a s with ⟨⟨more, e | u⟩, t⟩
  · rfl
  · exact forEachFrom_log f as _ t

theorem step_forEach_append (f : α → Action ε σ Unit) (as bs : List α) (s : σ) :
    (forEach (as ++ bs) f).step s =
      match (forEach as f).step s with
      | (.ok _, s) => (forEach bs f).step s
      | (.error e, s) => (.error e, s) := by
  induction as generalizing s with
  | nil => rfl
  | cons a as ih =>
    rw [List.cons_append, step_forEach_cons, step_forEach_cons]
    rcases (f a).step s with ⟨e | u, t⟩
    · rfl
    · exact ih t

/-! ## Without the state of a failure -/

section Outcome

variable {x : Action ε σ α} {s t : σ} {a : α} {e : ε}

theorem outcome_eq_ok_iff : x.outcome s = .ok (a, t) ↔ x.step s = (.ok a, t) := by
  unfold outcome
  rcases x.step s with ⟨e | b, u⟩ <;> simp

theorem outcome_eq_error_iff : x.outcome s = .error e ↔ ∃ t, x.step s = (.error e, t) := by
  unfold outcome
  rcases x.step s with ⟨e | b, u⟩ <;> simp

@[simp] theorem outcome_pure (a : α) (s : σ) : (pure a : Action ε σ α).outcome s = .ok (a, s) := rfl

theorem outcome_bind (x : Action ε σ α) (f : α → Action ε σ β) (s : σ) :
    (x >>= f).outcome s = (x.outcome s).bind fun (a, t) => (f a).outcome t := by
  unfold outcome
  rw [step_bind]
  rcases x.step s with ⟨e | a, t⟩ <;> rfl

@[simp] theorem outcome_get (s : σ) : (get : Action ε σ σ).outcome s = .ok (s, s) := rfl

@[simp] theorem outcome_note (message : Message) (s : σ) :
    (note message : Action ε σ Unit).outcome s = .ok ((), s) := rfl

@[simp] theorem outcome_fail (e : ε) (s : σ) : (fail e : Action ε σ α).outcome s = .error e := rfl

theorem outcome_read (f : σ → Logged ε α) (s : σ) :
    (read f).outcome s = (f s).result.map fun a => (a, s) := by
  unfold outcome
  rw [step_read]
  cases (f s).result <;> rfl

theorem outcome_assign (f : σ → Logged ε (α × σ)) (s : σ) :
    (assign f).outcome s = (f s).result := by
  unfold outcome
  rw [step_assign]
  rcases (f s).result with e | ⟨a, t⟩ <;> rfl

end Outcome

end Action

end AssocCache
