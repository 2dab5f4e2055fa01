/-!
# Accesses and blocks

The vocabulary that every other module speaks: how lines are requested, what memory is
behind them, and the ways of a set that hold them.
-/

/-!
## Accesses and the memory behind them

The two small vocabularies every other module speaks.  An `AccessKind` says how
a line is requested, and a `MemoryKind` says which technology of a hybrid main
memory backs the line's address.
-/

namespace AssocCache

/-- How a line is requested.  A write-back is a dirty line handed down by the
level above. -/
inductive AccessKind where
  | read
  | write
  | writeback
  deriving DecidableEq, Repr, Inhabited

/-- Only a plain read leaves the line clean. -/
def AccessKind.isWrite : AccessKind → Bool
  | .read => false
  | .write => true
  | .writeback => true

/-- The access kind of a demand request. -/
def AccessKind.demand (isWrite : Bool) : AccessKind :=
  if isWrite then .write else .read

@[simp] theorem AccessKind.isWrite_demand (w : Bool) : (AccessKind.demand w).isWrite = w := by
  cases w <;> rfl

/-- The technology of a main memory that is part DRAM, part NVM. -/
inductive MemoryKind where
  | dram
  | nvm
  deriving DecidableEq, Repr, Inhabited

/-- DRAM serves the addresses up to and including the border and NVM those
above it.  Without a border all memory is DRAM. -/
def MemoryKind.classify (lineAddress : Nat) : Option Nat → MemoryKind
  | some border => if border < lineAddress then .nvm else .dram
  | none => .dram

/-!
## Blocks

A block is one way of a set.  It holds no payload: only which line it carries,
whether that line has pending writes, and one word that belongs to the
replacement policy.
-/

/-- One way of a set.  When the block is not valid, `tag` and `kind` are what
the last line left behind. -/
structure Block where
  tag : Nat
  valid : Bool
  dirty : Bool
  setIndex : Nat
  wayIndex : Nat
  kind : MemoryKind
  /-- The policy's word: a time stamp, a use count or a re-reference
  prediction, whichever the policy of the store keeps. -/
  word : Nat
  deriving DecidableEq, Repr

namespace Block

/-- A block that has never held a line. -/
def empty (setIndex wayIndex : Nat) : Block :=
  { tag := 0, valid := false, dirty := false, setIndex, wayIndex, kind := .dram, word := 0 }

/-- The block once it carries a line.  The policy's word stays. -/
def fill (b : Block) (tag : Nat) (kind : MemoryKind) (dirty : Bool) : Block :=
  { b with tag, kind, dirty, valid := true }

/-- The block once its line has left.  Tag, kind and the policy's word stay. -/
def clear (b : Block) : Block :=
  { b with valid := false, dirty := false }

/-- Whether the block carries the line with this tag. -/
def holds (b : Block) (tag : Nat) : Bool :=
  b.valid && b.tag == tag

theorem holds_iff {b : Block} {tag : Nat} : b.holds tag ↔ b.valid = true ∧ b.tag = tag := by
  simp [holds]

@[simp] theorem holds_clear (b : Block) (tag : Nat) : b.clear.holds tag = false := rfl

@[simp] theorem holds_fill (b : Block) (t : Nat) (k : MemoryKind) (d : Bool) (tag : Nat) :
    (b.fill t k d).holds tag = (t == tag) := rfl

end Block

end AssocCache
