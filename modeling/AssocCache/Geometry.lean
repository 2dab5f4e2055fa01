import AssocCache.Fault

/-!
# Geometry

How a store divides an address.  From the low end an address consists of the
offset within a line, the set index and the tag.  `Geometry.locate` cuts an
address into the two upper parts, which name a line, and `Geometry.addressOf`
puts them together again, with a zero offset.

Addresses are 64-bit words.  On the geometry of a validated configuration no
shift is too far and no bit is lost.  A geometry put together by hand may break
this, and then the two functions fault or lose bits as word arithmetic does.
-/

namespace AssocCache

/-- The shape of a store. -/
structure Geometry where
  capacity : Nat
  blockSize : Nat
  associativity : Nat
  numSets : Nat
  offsetBits : Nat
  indexBits : Nat
  addressBits : Nat
  hitLatency : Nat
  deriving DecidableEq, Repr

/-- A line of memory, as a store sees it. -/
structure Line where
  set : Nat
  tag : Nat
  deriving DecidableEq, Repr

/-- A word moved up by some bits.  What passes bit 63 is lost. -/
def Word.shiftLeft (n bits : Nat) : Nat :=
  if bits < 64 then (n <<< bits) % 2 ^ (64 : Nat) else 0

namespace Geometry

/-- The number of lines a store holds. -/
def numBlocks (g : Geometry) : Nat := g.numSets * g.associativity

/-- The number of bits below the tag. -/
def tagShift (g : Geometry) : Nat := g.offsetBits + g.indexBits

/-- Whether the address has no bit beyond the address space. -/
def admits (g : Geometry) (address : Nat) : Bool := address >>> g.addressBits == 0

/-- The line an address lies in. -/
def lineOf (g : Geometry) (address : Nat) : Line where
  set := (address >>> g.offsetBits) &&& (g.numSets - 1)
  tag := address >>> g.tagShift

/-- The line an address lies in, if it is inside the address space. -/
def locate (g : Geometry) (address : Nat) : Except Failure Line :=
  if !g.admits address then .error (.refused (.addressOutOfRange address g.addressBits))
  else if 64 ≤ g.offsetBits then .error (.aborted (.overflow .shiftRight))
  else if g.numSets = 0 then .error (.aborted (.overflow .subtract))
  else if 2 ^ (32 : Nat) ≤ g.tagShift then .error (.aborted (.overflow .add))
  else .ok (g.lineOf address)

/-- The address of a line's first byte. -/
def addressOf (g : Geometry) (line : Line) : Nat :=
  Word.shiftLeft line.tag g.tagShift ||| Word.shiftLeft line.set g.offsetBits

/-- The address of a line's first byte, if no shift is too far. -/
def addressOf? (g : Geometry) (line : Line) : Except Fault Nat :=
  if 2 ^ (32 : Nat) ≤ g.tagShift then .error (.overflow .add)
  else if 64 ≤ g.offsetBits then .error (.overflow .shiftLeft)
  else .ok (g.addressOf line)

theorem admits_iff {g : Geometry} {address : Nat} :
    g.admits address = true ↔ address < 2 ^ g.addressBits := by
  simp [admits, Nat.shiftRight_eq_div_pow, Nat.div_eq_zero_iff]

theorem locate_of_lt {g : Geometry} {address : Nat} (ha : address < 2 ^ g.addressBits)
    (ho : g.offsetBits < 64) (hs : g.numSets ≠ 0) (ht : g.tagShift < 2 ^ (32 : Nat)) :
    g.locate address = .ok (g.lineOf address) := by
  rw [locate, admits_iff.2 ha, if_neg (by decide), if_neg (Nat.not_le.2 ho), if_neg hs,
    if_neg (Nat.not_le.2 ht)]

theorem locate_of_le {g : Geometry} {address : Nat} (ha : 2 ^ g.addressBits ≤ address) :
    g.locate address = .error (.refused (.addressOutOfRange address g.addressBits)) := by
  have h : g.admits address = false := by
    rw [← Bool.not_eq_true, admits_iff]; omega
  rw [locate, h, if_pos (by decide)]

theorem locate_eq_ok {g : Geometry} {address : Nat} {line : Line}
    (h : g.locate address = .ok line) :
    address < 2 ^ g.addressBits ∧ line = g.lineOf address := by
  unfold locate at h
  split at h
  · simp at h
  · rename_i hadm
    repeat (split at h; · simp at h)
    exact ⟨admits_iff.1 (by simpa using hadm), (Except.ok.inj h).symm⟩

end Geometry

end AssocCache
