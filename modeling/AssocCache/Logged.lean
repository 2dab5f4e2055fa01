import AssocCache.Fault

/-!
# Logged results

`Logged ε α` is how a computation ended, beside what it logged on the way.  A
failure does not take the messages back.  `Logged.result` forgets the messages,
and the lemmas `result_pure`, `result_bind` and their companions let a proof do so
step by step.
-/

/-!
## Log messages

What the library has to say while it works.  A message has a severity, the part
of the library that speaks, and a text.
-/

namespace AssocCache

/-- How much a message matters. -/
inductive Severity where
  | error
  | warn
  | info
  | debug
  | trace
  deriving DecidableEq, Repr

/-- The severities by rank, the gravest first. -/
def Severity.rank : Severity → Nat
  | .error => 0
  | .warn => 1
  | .info => 2
  | .debug => 3
  | .trace => 4

/-- How a severity is written. -/
def Severity.label : Severity → String
  | .error => "ERROR"
  | .warn => "WARN"
  | .info => "INFO"
  | .debug => "DEBUG"
  | .trace => "TRACE"

/-- The parts of the library that speak. -/
inductive Speaker where
  | set
  | store
  | victimSearch
  | hierarchy
  | commandLine
  deriving DecidableEq, Repr

/-- One log message. -/
structure Message where
  severity : Severity
  speaker : Speaker
  text : String
  deriving DecidableEq, Repr

/-! ## Results -/

/-- How a computation ended, and what it logged. -/
structure Logged (ε α : Type) where
  log : Array Message
  result : Except ε α

namespace Logged

variable {ε α β : Type}

/-- Continues after a success.  The messages of both parts stay in order. -/
def bind (x : Logged ε α) (f : α → Logged ε β) : Logged ε β :=
  match x.result with
  | .ok a => { log := x.log ++ (f a).log, result := (f a).result }
  | .error e => { log := x.log, result := .error e }

instance : Monad (Logged ε) where
  pure a := { log := #[], result := .ok a }
  bind := Logged.bind

/-- Ends with a failure. -/
def fail (e : ε) : Logged ε α := { log := #[], result := .error e }

/-- Logs a message. -/
def note (message : Message) : Logged ε Unit := { log := #[message], result := .ok () }

/-- Logs a message, if there is one. -/
def noteIfAny : Option Message → Logged ε Unit
  | some message => note message
  | none => pure ()

/-- The message a failure is announced with, if it is. -/
def announcement : Failure → Option Message
  | .refused _ => none
  | .aborted fault => fault.announcement.map fun text => ⟨.error, .set, text⟩

/-- A result that may be a failure, which is announced. -/
def ofExcept : Except Failure α → Logged Failure α
  | .ok a => pure a
  | .error e => { log := (announcement e).toArray, result := .error e }

/-- A result that may be a fault, which is announced. -/
def attempt (x : Except Fault α) : Logged Failure α := ofExcept (x.mapError .aborted)

/-- The same course with its failure, if any, seen as another type's. -/
def mapError {ε' : Type} (f : ε → ε') (x : Logged ε α) : Logged ε' α :=
  { log := x.log, result := x.result.mapError f }

@[simp] theorem result_pure (a : α) : (pure a : Logged ε α).result = .ok a := rfl

@[simp] theorem result_bind (x : Logged ε α) (f : α → Logged ε β) :
    (x >>= f).result = x.result.bind fun a => (f a).result := by
  change (Logged.bind x f).result = _
  unfold Logged.bind
  cases x.result <;> rfl

theorem result_bind_eq_ok_iff {x : Logged ε α} {f : α → Logged ε β} {b : β} :
    (x >>= f).result = .ok b ↔ ∃ a, x.result = .ok a ∧ (f a).result = .ok b := by
  rw [result_bind]
  exact Success.bind_eq_ok_iff

@[simp] theorem result_fail (e : ε) : (fail e : Logged ε α).result = .error e := rfl

@[simp] theorem result_note (message : Message) :
    (note message : Logged ε Unit).result = .ok () := rfl

@[simp] theorem result_noteIfAny (message : Option Message) :
    (noteIfAny message : Logged ε Unit).result = .ok () := by
  cases message <;> rfl

@[simp] theorem result_ofExcept (x : Except Failure α) : (ofExcept x).result = x := by
  cases x <;> rfl

@[simp] theorem result_attempt (x : Except Fault α) :
    (attempt x).result = x.mapError .aborted := by
  simp [attempt]

theorem result_attempt_eq_ok_iff {x : Except Fault α} {a : α} :
    (attempt x).result = .ok a ↔ x = .ok a := by
  rw [result_attempt]
  exact Success.mapError_eq_ok_iff

@[simp] theorem result_mapError {ε' : Type} (f : ε → ε') (x : Logged ε α) :
    (x.mapError f).result = x.result.mapError f := rfl

end Logged

end AssocCache
