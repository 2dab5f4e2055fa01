import AssocCache.Block
import AssocCache.Numeral

/-!
# Faults and failures

How a computation may end without a result, and what it takes for one to succeed.
-/

/-!
## Successful computations

What it takes for a computation that may fail to succeed.  A sequence of steps
succeeds when each of them does (`bind_eq_ok_iff`), so a proof about a successful
run of a hook or of an operation takes the run apart step by step.
-/

namespace AssocCache.Success

variable {ε ε' α β : Type}

theorem pure_eq_ok_iff {a b : α} : (pure a : Except ε α) = .ok b ↔ a = b := by
  simp [pure, Except.pure]

theorem bind_eq_ok_iff {x : Except ε α} {f : α → Except ε β} {b : β} :
    (x >>= f) = .ok b ↔ ∃ a, x = .ok a ∧ f a = .ok b := by
  cases x <;> simp [bind, Except.bind]

theorem map_eq_ok_iff {x : Except ε α} {f : α → β} {b : β} :
    x.map f = .ok b ↔ ∃ a, x = .ok a ∧ f a = b := by
  cases x <;> simp [Except.map]

@[simp] theorem mapError_ok (f : ε → ε') (a : α) :
    (Except.ok a : Except ε α).mapError f = .ok a := rfl

@[simp] theorem mapError_error (f : ε → ε') (e : ε) :
    (Except.error e : Except ε α).mapError f = .error (f e) := rfl

theorem mapError_eq_ok_iff {x : Except ε α} {f : ε → ε'} {a : α} :
    x.mapError f = .ok a ↔ x = .ok a := by
  cases x <;> simp

end AssocCache.Success

/-!
## Faults

A fault ends a run.  It is never the answer to a bad request: it reports that a
replacement policy has broken a rule of the set it works on, that fixed-width arithmetic has
left its range, or that a table is larger than any memory.  `Fault.message` gives
the wording, and `Fault.announcement` the part of it that is logged before the
run ends.

The counters of the library are natural numbers that stand for machine words.
`Word.add`, `Word.mul`, `Word.sub` and `Word.remainder` are the arithmetic on them:
exact where the result is defined and fits the width, and a fault where it is not.
-/

namespace AssocCache

/-- A broken rule of a set. -/
inductive Inconsistency where
  /-- Two valid ways carry this tag. -/
  | duplicateTag (tag : Nat)
  /-- The recency stack does not list this way. -/
  | unstackedWay (way : Nat)
  /-- The policy chose a victim outside the set. -/
  | noSuchWay (way : Nat)
  /-- No way of a full set has a time stamp. -/
  | noTimeStamp
  /-- Ageing never brought a way to the most distant prediction. -/
  | noDistantWay (max : Nat)
  /-- A policy declared the set broken in its own words. -/
  | declared (reason : String)
  deriving DecidableEq, Repr

/-- The wording of a broken rule. -/
def Inconsistency.reason : Inconsistency → String
  | .duplicateTag tag => s!"tag {Numeral.hex tag} is resident more than once"
  | .unstackedWay way => s!"way {way} missing from the recency stack"
  | .noSuchWay way => s!"policy chose way {way} which does not exist"
  | .noTimeStamp => "full set with no recency entries"
  | .noDistantWay max => s!"no way reached rrpv {max} after {max + 1} ageing rounds"
  | .declared reason => reason

/-- The operations whose results can leave their width. -/
inductive Arithmetic where
  | add
  | subtract
  | multiply
  | shiftLeft
  | shiftRight
  deriving DecidableEq, Repr

/-- Why a run ended. -/
inductive Fault where
  /-- The set with this index broke a rule. -/
  | inconsistent (set : Nat) (cause : Inconsistency)
  /-- A result does not fit its width. -/
  | overflow (operation : Arithmetic)
  /-- A remainder by zero was asked for. -/
  | zeroDivisor
  /-- A table was read past its end. -/
  | outOfBounds (length index : Nat)
  /-- A table has more entries than memory can address. -/
  | tooManyEntries
  /-- A line was put into a way that still carried one. -/
  | occupiedWay (set way : Nat)
  /-- A write hit a block that carries no line. -/
  | dirtiedEmpty (block : Block)
  /-- A configured insertion prediction lies beyond the most distant one. -/
  | insertionBeyond (max : Nat)
  deriving DecidableEq, Repr

/-- The wording of an arithmetic fault. -/
def Arithmetic.message : Arithmetic → String
  | .add => "attempt to add with overflow"
  | .subtract => "attempt to subtract with overflow"
  | .multiply => "attempt to multiply with overflow"
  | .shiftLeft => "attempt to shift left with overflow"
  | .shiftRight => "attempt to shift right with overflow"

/-- The name of a memory kind in messages. -/
def MemoryKind.name : MemoryKind → String
  | .dram => "Dram"
  | .nvm => "Nvm"

/-- All fields of a block, as messages show them. -/
def Block.description (b : Block) : String :=
  s!"Block \x7b tag: {b.tag}, valid: {b.valid}, dirty: {b.dirty}, set_index: {b.setIndex}, " ++
    s!"way_index: {b.wayIndex}, kind: {b.kind.name}, meta: {b.word} \x7d"

/-- The wording of a fault. -/
def Fault.message : Fault → String
  | .inconsistent set cause => s!"internal consistency failure in set {set}: {cause.reason}"
  | .overflow operation => operation.message
  | .zeroDivisor => "attempt to calculate the remainder with a divisor of zero"
  | .outOfBounds length index =>
    s!"index out of bounds: the len is {length} but the index is {index}"
  | .tooManyEntries => "capacity overflow"
  | .occupiedWay set way => s!"filling a valid way {way} of set {set}"
  | .dirtiedEmpty block => s!"marking an invalid block dirty: {block.description}"
  | .insertionBeyond max => s!"insertion rrpv above {max}"

/-- What is logged before the run ends: a broken set announces itself, the
other faults do not. -/
def Fault.announcement : Fault → Option String
  | f@(.inconsistent _ _) => some f.message
  | _ => none

/-! ### Arithmetic on machine words -/

namespace Word

/-- The sum, if it is below `2 ^ width`. -/
def add (width a b : Nat) : Except Fault Nat :=
  if a + b < 2 ^ width then .ok (a + b) else .error (.overflow .add)

/-- The product, if it is below `2 ^ width`. -/
def mul (width a b : Nat) : Except Fault Nat :=
  if a * b < 2 ^ width then .ok (a * b) else .error (.overflow .multiply)

/-- The difference, if it is not negative. -/
def sub (a b : Nat) : Except Fault Nat :=
  if b ≤ a then .ok (a - b) else .error (.overflow .subtract)

/-- The remainder, unless it is by zero. -/
def remainder (a b : Nat) : Except Fault Nat :=
  if b = 0 then .error .zeroDivisor else .ok (a % b)

/-- The largest value of a word that is `bits` wide, in a word of `width`
bits. -/
def ones (width bits : Nat) : Except Fault Nat :=
  if bits < width then .ok (2 ^ bits - 1) else .error (.overflow .shiftLeft)

theorem add_eq_ok_iff {width a b c : Nat} :
    add width a b = .ok c ↔ a + b < 2 ^ width ∧ c = a + b := by
  grind [add]

theorem mul_eq_ok_iff {width a b c : Nat} :
    mul width a b = .ok c ↔ a * b < 2 ^ width ∧ c = a * b := by
  grind [mul]

theorem sub_eq_ok_iff {a b c : Nat} : sub a b = .ok c ↔ b ≤ a ∧ c = a - b := by
  grind [sub]

theorem ones_eq_ok_iff {width bits c : Nat} :
    ones width bits = .ok c ↔ bits < width ∧ c = 2 ^ bits - 1 := by
  grind [ones]

end Word

/-! ### Tables -/

/-- A fault if a table with so many entries, of so many bytes each, takes half of
the addresses of a 64-bit memory or more.  It is found before any entry is made. -/
def checkTable (entryBytes count : Nat) : Except Fault Unit :=
  if entryBytes * count < 2 ^ (63 : Nat) then .ok () else .error .tooManyEntries

theorem checkTable_eq_ok_iff {entryBytes count : Nat} :
    checkTable entryBytes count = .ok () ↔ entryBytes * count < 2 ^ (63 : Nat) := by
  grind [checkTable]

/-- The entry at an index, or the fault of reading past the end. -/
def entryAt {α : Type} (table : List α) (index : Nat) : Except Fault α :=
  match table[index]? with
  | some a => .ok a
  | none => .error (.outOfBounds table.length index)

theorem entryAt_eq_ok_iff {α : Type} {table : List α} {index : Nat} {a : α} :
    entryAt table index = .ok a ↔ table[index]? = some a := by
  unfold entryAt; split <;> simp_all

/-!
## Failures

A request to a store fails in one of two ways.  A `Refusal` is the store's answer
to a request it cannot serve, and the store goes on as before.  A fault ends the
run.
-/

/-- A request a store cannot serve. -/
inductive Refusal where
  | addressOutOfRange (address addressBits : Nat)
  | alreadyResident (address : Nat)
  deriving DecidableEq, Repr

/-- The wording of a refusal. -/
def Refusal.message : Refusal → String
  | .addressOutOfRange address addressBits =>
    s!"address {Numeral.hex address} is outside the {addressBits} bit address space"
  | .alreadyResident address => s!"address {Numeral.hex address} is already resident"

/-- Why a request got no answer. -/
inductive Failure where
  | refused (refusal : Refusal)
  | aborted (fault : Fault)
  deriving DecidableEq, Repr

/-- The wording of a failure. -/
def Failure.message : Failure → String
  | .refused refusal => refusal.message
  | .aborted fault => fault.message

end AssocCache
