import AssocCache.Block
import AssocCache.Proofs.RecencyLists

/-!
# Recency lists with distrust

Lists of lines like `RecencyLists`, but a line that comes in may go to the back of its list,
where it is the next to leave.  A `TrustRule` says which lines go to the front.  It sees how
much has happened so far (`Progress`), the memory behind the line and the memory behind the
lines that it comes to.

* A hit moves the entry of the line to the front, and a write marks it.
* A fill into a full list takes the last entry out first, and then puts the new one at the
  front or at the back (`enlist`).
* An invalidation takes the entry out.

A rule that trusts every line gives recency lists (`TrustingLists.Trustful.run`).
-/

namespace AssocCache

/-- How much has happened in a store. -/
structure Progress where
  /-- The lines that came in. -/
  fills : Nat
  /-- The hits and fills of each set. -/
  touches : Nat → Nat

namespace Progress

/-- Nothing has happened yet. -/
def start : Progress := ⟨0, fun _ => 0⟩

/-- A line of a set is hit. -/
def hit (p : Progress) (index : Nat) : Progress :=
  { p with touches := Function.update p.touches index (p.touches index + 1) }

/-- A line comes into a set. -/
def fill (p : Progress) (index : Nat) : Progress :=
  { p.hit index with fills := p.fills + 1 }

theorem touches_hit (p : Progress) (index other : Nat) :
    (p.hit index).touches other =
      if other = index then p.touches index + 1 else p.touches other :=
  Function.update_apply ..

end Progress

/-- Whether a line that comes in goes to the front of its list: by the lines that have come
into the store and the touches that the set has had, both with this one, by the memory behind
the line and by that behind the other lines of the list. -/
abbrev TrustRule := (fills touches : Nat) → (kind : MemoryKind) → (others : List MemoryKind) → Bool

/-- The list with a new entry at the front or at the back. -/
def enlist {α : Type} (front : Bool) (newest : α) (rest : List α) : List α :=
  if front then newest :: rest else rest ++ [newest]

theorem enlist_map {α β : Type} (front : Bool) (f : α → β) (newest : α) (rest : List α) :
    (enlist front newest rest).map f = enlist front (f newest) (rest.map f) := by
  cases front
  · exact List.map_append
  · rfl

/-- Recency lists under a rule of trust, and how far they have got. -/
structure TrustingLists extends RecencyLists where
  rule : TrustRule
  /-- The highest address served by DRAM, if memory is hybrid. -/
  regionBorder : Option Nat
  progress : Progress

namespace TrustingLists

/-- No set has a line yet. -/
def empty (g : Geometry) (regionBorder : Option Nat) (rule : TrustRule) : TrustingLists :=
  { RecencyLists.empty g with rule, regionBorder, progress := .start }

/-- The memory behind an address. -/
def kindOf (m : TrustingLists) (address : Nat) : MemoryKind := .classify address m.regionBorder

/-- Looks for the line of an address. -/
def probe (m : TrustingLists) (address : Nat) (isWrite : Bool) : Bool × TrustingLists :=
  let (hit, lists) := m.toRecencyLists.probe address isWrite
  if hit then
    (true, { m with toRecencyLists := lists, progress := m.progress.hit (m.setIndex address) })
  else
    (false, m)

/-- Brings in the line of an address, which is absent. -/
def bringIn (m : TrustingLists) (address : Nat) (isWrite : Bool) :
    Option Eviction × TrustingLists :=
  let (last, rest) := makeRoom m.geometry.associativity (m.entries address)
  let progress := m.progress.fill (m.setIndex address)
  let front := m.rule progress.fills (progress.touches (m.setIndex address))
    (m.kindOf (m.lineAddress address)) (rest.map fun entry => m.kindOf entry.address)
  let lists := m.put address (enlist front ⟨m.lineAddress address, isWrite⟩ rest)
  (last.map Entry.eviction, { m with toRecencyLists := lists, progress })

/-- Makes the line of an address leave. -/
def invalidate (m : TrustingLists) (address : Nat) : Option Eviction × TrustingLists :=
  let (evicted, lists) := m.toRecencyLists.invalidate address
  (evicted, { m with toRecencyLists := lists })

/-- Answers a call about an address of the address space. -/
def respondWithin (m : TrustingLists) : Call → Except Refusal Sight × TrustingLists
  | .probe address access =>
    let (hit, m) := m.probe address access.isWrite
    (.ok (.lookup hit), m)
  | .fill address access =>
    if (m.entry? address).isSome then
      (.error (.alreadyResident address), m)
    else
      let (evicted, m) := m.bringIn address access.isWrite
      (.ok (.install evicted), m)
  | .access address access =>
    let (hit, m) := m.probe address access.isWrite
    if hit then
      (.ok (.access true none), m)
    else
      let (evicted, m) := m.bringIn address access.isWrite
      (.ok (.access false evicted), m)
  | .invalidate address =>
    let (evicted, m) := m.invalidate address
    (.ok (.departure evicted), m)

/-- Answers a call. -/
def respond (m : TrustingLists) (call : Call) : Except Refusal Sight × TrustingLists :=
  if call.address < 2 ^ m.geometry.addressBits then m.respondWithin call
  else (.error (.addressOutOfRange call.address m.geometry.addressBits), m)

/-- The answers to a list of calls, and the lists after them. -/
def run : List Call → TrustingLists → List (Except Refusal Sight) × TrustingLists
  | [], m => ([], m)
  | call :: calls, m =>
    let (answer, m) := m.respond call
    let (answers, m) := run calls m
    (answer :: answers, m)

/-! ## Rules that trust every line -/

/-- Every line goes to the front. -/
def Trustful (m : TrustingLists) : Prop :=
  ∀ fills touches kind others, m.rule fills touches kind others = true

/-- The second machine gives the same answer and has the same lists, and the rule of the first
one trusts every line. -/
structure Agrees {α : Type} (x : α × TrustingLists) (y : α × RecencyLists) : Prop where
  answer_eq : x.1 = y.1
  lists_eq : x.2.toRecencyLists = y.2
  trustful : x.2.Trustful

variable {m : TrustingLists}

theorem Trustful.probe (h : m.Trustful) (a : Nat) (isWrite : Bool) :
    Agrees (m.probe a isWrite) (m.toRecencyLists.probe a isWrite) := by
  unfold TrustingLists.probe RecencyLists.probe
  cases m.entry? a <;> exact ⟨rfl, rfl, h⟩

theorem Trustful.bringIn (h : m.Trustful) (a : Nat) (isWrite : Bool) :
    Agrees (m.bringIn a isWrite) (m.toRecencyLists.bringIn a isWrite) := by
  refine ⟨rfl, ?_, h⟩
  unfold TrustingLists.bringIn RecencyLists.bringIn
  dsimp only
  rw [h, enlist, if_pos rfl]

/-- A call is answered as the recency lists answer it. -/
theorem Trustful.respond (h : m.Trustful) (call : Call) :
    Agrees (m.respond call) (m.toRecencyLists.respond call) := by
  unfold TrustingLists.respond RecencyLists.respond
  by_cases hcall : call.address < 2 ^ m.geometry.addressBits
  · rw [if_pos hcall, if_pos hcall]
    cases call <;> rw [TrustingLists.respondWithin, RecencyLists.respondWithin]
    case probe a access =>
      have hprobe := h.probe a access.isWrite
      have hanswer := congrArg (fun hit => (.ok (.lookup hit) : Except Refusal Sight))
        hprobe.answer_eq
      exact ⟨hanswer, hprobe.lists_eq, hprobe.trustful⟩
    case fill a access =>
      have hbring := h.bringIn a access.isWrite
      have hanswer := congrArg (fun evicted => (.ok (.install evicted) : Except Refusal Sight))
        hbring.answer_eq
      split
      · exact ⟨rfl, rfl, h⟩
      · exact ⟨hanswer, hbring.lists_eq, hbring.trustful⟩
    case access a access =>
      have hbring := h.bringIn a access.isWrite
      have hanswer := congrArg
        (fun evicted => (.ok (.access false evicted) : Except Refusal Sight)) hbring.answer_eq
      unfold TrustingLists.probe RecencyLists.probe
      cases m.entry? a with
      | some entry => exact ⟨rfl, rfl, h⟩
      | none => exact ⟨hanswer, hbring.lists_eq, hbring.trustful⟩
    case invalidate a => exact ⟨rfl, rfl, h⟩
  · rw [if_neg hcall, if_neg hcall]
    exact ⟨rfl, rfl, h⟩

/-- A run of lists that trust every line is one of recency lists. -/
theorem Trustful.run (h : m.Trustful) (calls : List Call) :
    Agrees (m.run calls) (m.toRecencyLists.run calls) := by
  induction calls generalizing m with
  | nil => exact ⟨rfl, rfl, h⟩
  | cons call calls ih =>
    have hrespond := h.respond call
    have hrest := ih hrespond.trustful
    rw [hrespond.lists_eq] at hrest
    exact ⟨congrArg₂ List.cons hrespond.answer_eq hrest.answer_eq, hrest.lists_eq, hrest.trustful⟩

end TrustingLists

end AssocCache
