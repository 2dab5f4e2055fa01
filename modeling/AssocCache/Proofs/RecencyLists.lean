import AssocCache.Store
import Mathlib.Logic.Function.Basic

/-!
# Recency lists

The machine that a store of least recently used lines is compared with.  It knows no
ways, no clock and no stamps: each set is a list of its lines, the most recently used
first, and a line is known by the address of its first byte.

* A hit moves the entry of the line to the front, and a write marks it.
* A line that comes in goes to the front.  If the list is full, its last entry goes
  first (`makeRoom`).
* An invalidation takes the entry out.

`RecencyLists.respond` answers a call and `RecencyLists.run` a list of calls.  What an
answer tells is a `Sight`, which leaves out where in a set a line was put.
-/

namespace AssocCache

/-- A line in a recency list. -/
structure Entry where
  /-- The address of the line's first byte. -/
  address : Nat
  /-- Whether the line has pending writes. -/
  dirty : Bool
  deriving DecidableEq, Repr

/-- What is reported of a line that leaves. -/
def Entry.eviction (entry : Entry) : Eviction := ⟨entry.address, entry.dirty⟩

/-- What an answer tells of the lines. -/
inductive Sight where
  | lookup (hit : Bool)
  | install (evicted : Option Eviction)
  | access (hit : Bool) (evicted : Option Eviction)
  | departure (evicted : Option Eviction)
  deriving DecidableEq, Repr

/-- What a reply tells of the lines. -/
def Reply.sight : Reply → Sight
  | .lookup answer => .lookup answer.hit
  | .install answer => .install answer.evicted
  | .access answer => .access answer.hit answer.evicted
  | .departure evicted => .departure evicted

/-- The last entry of a full list, which has to go, and what is left of the list. -/
def makeRoom {α : Type} (capacity : Nat) (entries : List α) : Option α × List α :=
  if entries.length < capacity then (none, entries) else (entries.getLast?, entries.dropLast)

theorem makeRoom_map {α β : Type} (capacity : Nat) (f : α → β) (entries : List α) :
    makeRoom capacity (entries.map f) =
      ((makeRoom capacity entries).1.map f, (makeRoom capacity entries).2.map f) := by
  unfold makeRoom
  rw [List.length_map]
  split
  · rfl
  · rw [List.getLast?_map, List.map_dropLast]

theorem makeRoom_segment {α : Type} (capacity : Nat) (entries : List α) :
    (makeRoom capacity entries).2 <+: entries := by
  unfold makeRoom
  split
  · exact List.prefix_rfl
  · exact List.dropLast_prefix entries

/-- A recency list for each set of a store. -/
structure RecencyLists where
  geometry : Geometry
  lists : Nat → List Entry

namespace RecencyLists

/-- No set has a line yet. -/
def empty (g : Geometry) : RecencyLists := ⟨g, fun _ => []⟩

/-- The index of the set that an address maps to. -/
def setIndex (m : RecencyLists) (address : Nat) : Nat :=
  address / m.geometry.blockSize % m.geometry.numSets

/-- The address of the first byte of the line that an address lies in. -/
def lineAddress (m : RecencyLists) (address : Nat) : Nat :=
  m.geometry.blockSize * (address / m.geometry.blockSize)

/-- The list that an address maps to. -/
def entries (m : RecencyLists) (address : Nat) : List Entry := m.lists (m.setIndex address)

/-- The entry of the line of an address, if the line is resident. -/
def entry? (m : RecencyLists) (address : Nat) : Option Entry :=
  (m.entries address).find? (·.address == m.lineAddress address)

/-- The list that an address maps to without the entry of its line. -/
def others (m : RecencyLists) (address : Nat) : List Entry :=
  (m.entries address).filter (·.address != m.lineAddress address)

/-- The lists after a change of the one that an address maps to. -/
def put (m : RecencyLists) (address : Nat) (entries : List Entry) : RecencyLists :=
  { m with lists := Function.update m.lists (m.setIndex address) entries }

/-- Looks for the line of an address. -/
def probe (m : RecencyLists) (address : Nat) (isWrite : Bool) : Bool × RecencyLists :=
  match m.entry? address with
  | some entry =>
    (true, m.put address (⟨m.lineAddress address, entry.dirty || isWrite⟩ :: m.others address))
  | none => (false, m)

/-- Brings in the line of an address, which is absent. -/
def bringIn (m : RecencyLists) (address : Nat) (isWrite : Bool) : Option Eviction × RecencyLists :=
  let (last, rest) := makeRoom m.geometry.associativity (m.entries address)
  (last.map Entry.eviction, m.put address (⟨m.lineAddress address, isWrite⟩ :: rest))

/-- Makes the line of an address leave. -/
def invalidate (m : RecencyLists) (address : Nat) : Option Eviction × RecencyLists :=
  ((m.entry? address).map Entry.eviction, m.put address (m.others address))

/-- Answers a call about an address of the address space. -/
def respondWithin (m : RecencyLists) : Call → Except Refusal Sight × RecencyLists
  | .probe address access =>
    let (hit, m) := m.probe address access.isWrite
    (.ok (.lookup hit), m)
  | .fill address access =>
    if (m.entry? address).isSome then
      (.error (.alreadyResident address), m)
    else
      let (evicted, m) := m.bringIn address access.isWrite
      (.ok (.install evicted), m)
  | .access address access =>
    let (hit, m) := m.probe address access.isWrite
    if hit then
      (.ok (.access true none), m)
    else
      let (evicted, m) := m.bringIn address access.isWrite
      (.ok (.access false evicted), m)
  | .invalidate address =>
    let (evicted, m) := m.invalidate address
    (.ok (.departure evicted), m)

/-- Answers a call. -/
def respond (m : RecencyLists) (call : Call) : Except Refusal Sight × RecencyLists :=
  if call.address < 2 ^ m.geometry.addressBits then m.respondWithin call
  else (.error (.addressOutOfRange call.address m.geometry.addressBits), m)

/-- The answers to a list of calls, and the lists after them. -/
def run : List Call → RecencyLists → List (Except Refusal Sight) × RecencyLists
  | [], m => ([], m)
  | call :: calls, m =>
    let (answer, m) := m.respond call
    let (answers, m) := run calls m
    (answer :: answers, m)

end RecencyLists

/-!
## The lines of recency lists

Which lines are resident, and in which order they leave, does not depend on what was
written.  `RecencyLists.lines` leaves the marks out of the lists.  An access touches
the line in what is left (`touch`), and an invalidation filters it out, so each of the
two is one step on a list of numbers (`respond_access`, `respond_invalidate`).
-/

/-- The lines of a set after an access to one line: it is in front, and if it had to
come in, the last line of a full set is gone. -/
def touch (capacity line : Nat) (lines : List Nat) : List Nat :=
  if line ∈ lines then line :: lines.filter (· != line) else line :: (makeRoom capacity lines).2

section Lists

variable {capacity line : Nat} {lines : List Nat}

theorem touch_of_mem (h : line ∈ lines) :
    touch capacity line lines = line :: lines.filter (· != line) := if_pos h

theorem touch_of_not_mem (h : line ∉ lines) :
    touch capacity line lines = line :: (makeRoom capacity lines).2 := if_neg h

theorem filter_ne_of_not_mem (h : line ∉ lines) : lines.filter (· != line) = lines := by
  rw [List.filter_eq_self]
  intro other hmem
  simp only [bne_iff_ne]
  rintro rfl
  exact h hmem

end Lists

/-- An access or an invalidation.  Unlike a fill, these two are answered whether or not
the line is resident, and unlike a probe, they leave no line waiting to be filled. -/
def Call.Complete : Call → Prop
  | .access _ _ | .invalidate _ => True
  | .probe _ _ | .fill _ _ => False

namespace RecencyLists

variable {m : RecencyLists} {a : Nat}

/-- The lines of a set, the most recently used first. -/
def lines (m : RecencyLists) (index : Nat) : List Nat := (m.lists index).map Entry.address

theorem isSome_entry?_iff :
    (m.entry? a).isSome = true ↔ m.lineAddress a ∈ m.lines (m.setIndex a) := by
  rw [RecencyLists.entry?, List.find?_isSome, lines, List.mem_map, entries]
  simp only [beq_iff_eq]

theorem lines_put (entries : List Entry) :
    (m.put a entries).lines =
      Function.update m.lines (m.setIndex a) (entries.map Entry.address) := by
  funext index
  rw [lines, put, Function.apply_update (fun _ => List.map Entry.address)]
  rfl

theorem map_address_others :
    (m.others a).map Entry.address =
      (m.lines (m.setIndex a)).filter (· != m.lineAddress a) := by
  rw [others, lines, entries, List.filter_map]
  rfl

theorem map_address_makeRoom (capacity : Nat) :
    ((makeRoom capacity (m.entries a)).2).map Entry.address =
      (makeRoom capacity (m.lines (m.setIndex a))).2 := by
  rw [lines, makeRoom_map]
  rfl

/-- A call about an address outside the address space changes nothing. -/
theorem respond_of_outside (call : Call) (ha : 2 ^ m.geometry.addressBits ≤ call.address) :
    m.respond call =
      (.error (.addressOutOfRange call.address m.geometry.addressBits), m) :=
  if_neg (Nat.not_lt.2 ha)

theorem respond_of_lt (call : Call) (ha : call.address < 2 ^ m.geometry.addressBits) :
    m.respond call = m.respondWithin call :=
  if_pos ha

/-- An access touches its line. -/
theorem respond_access (ha : a < 2 ^ m.geometry.addressBits) (kind : AccessKind) :
    (∃ evicted, (m.respond (.access a kind)).1 =
        .ok (.access (decide (m.lineAddress a ∈ m.lines (m.setIndex a))) evicted)) ∧
      (m.respond (.access a kind)).2.geometry = m.geometry ∧
      (m.respond (.access a kind)).2.lines = Function.update m.lines (m.setIndex a)
        (touch m.geometry.associativity (m.lineAddress a) (m.lines (m.setIndex a))) := by
  have hresident := isSome_entry?_iff (m := m) (a := a)
  rw [respond_of_lt (.access a kind) ha, respondWithin, probe]
  cases hentry : m.entry? a with
  | some entry =>
    rw [hentry] at hresident
    have hmem : m.lineAddress a ∈ m.lines (m.setIndex a) := hresident.1 rfl
    rw [decide_eq_true hmem, touch_of_mem hmem, ← map_address_others]
    exact ⟨⟨none, rfl⟩, rfl, lines_put _⟩
  | none =>
    rw [hentry] at hresident
    have hmem : m.lineAddress a ∉ m.lines (m.setIndex a) := fun hmem =>
      Bool.false_ne_true (hresident.2 hmem)
    rw [decide_eq_false hmem, touch_of_not_mem hmem, ← map_address_makeRoom]
    exact ⟨⟨_, rfl⟩, rfl, lines_put _⟩

/-- An invalidation takes its line out. -/
theorem respond_invalidate (ha : a < 2 ^ m.geometry.addressBits) :
    (m.respond (.invalidate a)).2.geometry = m.geometry ∧
      (m.respond (.invalidate a)).2.lines = Function.update m.lines (m.setIndex a)
        ((m.lines (m.setIndex a)).filter (· != m.lineAddress a)) := by
  rw [respond_of_lt (.invalidate a) ha, ← map_address_others]
  exact ⟨rfl, lines_put _⟩

end RecencyLists

end AssocCache
