import AssocCache.Policy.Any
import AssocCache.Store
import AssocCache.Store.Build
import AssocCache.Trace

/-!
# Hierarchies

A hierarchy is a row of stores between a processor and main memory, the one
closest to the processor first.  A trace is cut into accesses to lines of the
first store (`TraceRecord.lines`), and each of them goes down the row until a
store has the line (`Hierarchy.descend`).  Every store that misses brings the line
in.  A line with pending writes that has to go is written back into the next
store (`Hierarchy.writeBack`), or to main memory from the last one, but only after
the line in demand has been looked up there.

`Hierarchy.accessLine` does both for one line and answers with the addresses that
were written to main memory.  What a trace did before it failed stays done.
-/

namespace AssocCache

/-- What a hierarchy counts about one of its stores.  Hits and misses are those of
demand accesses only. -/
structure Tally where
  hits : Nat := 0
  misses : Nat := 0
  evictions : Nat := 0
  /-- Evictions of lines that were written back to the next level. -/
  writebacks : Nat := 0
  deriving DecidableEq, Repr, Inhabited

/-- A store of a hierarchy, and what was counted about it. -/
structure Level where
  store : Store AnyPolicy
  tally : Tally

/-- A row of stores between a processor and main memory. -/
structure Hierarchy where
  levels : List Level
  /-- The cycles charged for a line served by main memory. -/
  memoryLatency : Nat
  memoryAccesses : Nat
  memoryWritebacks : Nat
  /-- The hit latency of every store that was looked into, and the memory latency
  of every line served by main memory. -/
  cycles : Nat

/-- Why a trace was not finished. -/
inductive TraceFailure where
  | store (failure : Failure)
  | trace (error : TraceError)
  deriving DecidableEq, Repr

/-- The wording of the failure. -/
def TraceFailure.message : TraceFailure → String
  | .store failure => failure.message
  | .trace error => error.message

/-- The addresses of the lines that hold the bytes of a record, for lines of some
size.  A record of size zero counts as one byte, and the last byte of the address
space is never reached. -/
def TraceRecord.lines (record : TraceRecord) (lineSize : Nat) : List Nat :=
  let address := record.address.toNat
  let past := min (address + max record.size.toNat 1) (2 ^ (64 : Nat) - 1)
  let first := address - address % lineSize
  List.range' first ((past - first + (lineSize - 1)) / lineSize) lineSize

/-- A line with pending writes on its way down, and the levels it has to pass, the
next one first. -/
structure Victim where
  address : Nat
  below : List Nat
  deriving DecidableEq, Repr

/-- Where a descent ended, and what it pushed out on its way. -/
structure Descent where
  /-- Whether a store had the line. -/
  served : Bool
  victims : List Victim
  deriving DecidableEq, Repr

namespace Tally

/-- A demand access found its line. -/
def countHit (t : Tally) : Except Fault Tally := do
  pure { t with hits := ← Word.add 64 t.hits 1 }

/-- A demand access did not find its line. -/
def countMiss (t : Tally) : Except Fault Tally := do
  pure { t with misses := ← Word.add 64 t.misses 1 }

/-- A line had to go. -/
def countEviction (t : Tally) : Except Fault Tally := do
  pure { t with evictions := ← Word.add 64 t.evictions 1 }

/-- The line that had to go is written back to the next level. -/
def countWriteback (t : Tally) : Except Fault Tally := do
  pure { t with writebacks := ← Word.add 64 t.writebacks 1 }

end Tally

namespace Hierarchy

/-- A computation on a hierarchy. -/
abbrev Run := Action Failure Hierarchy

/-- An operation on the store of a level. -/
def onStore {α : Type} (level : Nat) (operation : Action Failure (Store AnyPolicy) α) : Run α :=
  fun h =>
    match h.levels[level]? with
    | none => (Logged.attempt (.error (.outOfBounds h.levels.length level)), h)
    | some l =>
      let (outcome, store) := operation l.store
      (outcome, { h with levels := h.levels.set level { l with store } })

/-- Counts an event about a level. -/
def count (level : Nat) (event : Tally → Except Fault Tally) : Run Unit :=
  Action.assign fun h =>
    match h.levels[level]? with
    | none => Logged.attempt (.error (.outOfBounds h.levels.length level))
    | some l => do
      let tally ← Logged.attempt (event l.tally)
      pure ((), { h with levels := h.levels.set level { l with tally } })

/-- Counts the line that had to go from a level, if there was one, and its way down if it
is dirty. -/
def countEviction (level : Nat) : Option Eviction → Run Unit
  | none => pure ()
  | some evicted => do
    count level Tally.countEviction
    if evicted.wasDirty then count level Tally.countWriteback

/-- Charges some cycles. -/
def charge (cycles : Nat) : Run Unit :=
  Action.assign fun h => do
    let cycles ← Logged.attempt (Word.add 64 h.cycles cycles)
    pure ((), { h with cycles })

/-- Counts a line served by main memory, and charges for it.  The line is counted even if
the charge is more than the cycles can hold. -/
def countMemoryAccess : Run Unit := do
  Action.assign fun h => do
    let memoryAccesses ← Logged.attempt (Word.add 64 h.memoryAccesses 1)
    pure ((), { h with memoryAccesses })
  charge (← Action.get).memoryLatency

/-- Counts a line written to main memory. -/
def countMemoryWriteback : Run Unit :=
  Action.assign fun h => do
    let memoryWritebacks ← Logged.attempt (Word.add 64 h.memoryWritebacks 1)
    pure ((), { h with memoryWritebacks })

/-- The line with pending writes that had to go, if there was one. -/
def victim? (below : List Nat) : Option Eviction → Option Victim
  | some evicted => if evicted.wasDirty then some ⟨evicted.address, below⟩ else none
  | none => none

/-- Looks for a line in one level after the other and brings it in where it is
missing.  Only the first level sees what kind of access it is.  The levels below
are only read. -/
def descend (address : Nat) : List Nat → AccessKind → Run Descent
  | [], _ => pure ⟨false, []⟩
  | level :: below, kind => do
    let outcome ← onStore level (Store.access address kind)
    charge outcome.lookup.latency
    if outcome.hit then
      count level Tally.countHit
      pure ⟨true, []⟩
    else
      count level Tally.countMiss
      countEviction level outcome.evicted
      let descent ← descend address below .read
      pure { descent with
        victims := (victim? below outcome.evicted).toList ++ descent.victims }

/-- Writes a line back into the next level, and the line that had to go there, if
it has pending writes, into the one after it.  The answer is the address that was
written to main memory in the end, if one was. -/
def writeBack : List Nat → Nat → Run (Option Nat)
  | [], address => do
    countMemoryWriteback
    pure (some address)
  | level :: below, address => do
    let lookup ← onStore level (Store.probe address .writeback)
    if lookup.hit then
      pure none
    else
      let install ← onStore level (Store.fill address .writeback)
      countEviction level install.evicted
      match victim? below install.evicted with
      | none => pure none
      | some victim =>
        Action.note ⟨.debug, .hierarchy, s!"writeback of {Numeral.hex address} displaced dirty " ++
          s!"{Numeral.hex victim.address} from level {level}"⟩
        writeBack below victim.address

/-- Writes the victims of a descent back, one after the other.  The answer is the
addresses that were written to main memory. -/
def writeBackAll : List Victim → Run (List Nat)
  | [] => pure []
  | victim :: rest => do
    let written ← writeBack victim.below victim.address
    pure (written.toList ++ (← writeBackAll rest))

/-- Accesses a line of the first level.  The answer is the addresses that were
written to main memory. -/
def accessLine (address : Nat) (kind : AccessKind) : Run (List Nat) := do
  let h ← Action.get
  let descent ← descend address (List.range h.levels.length) kind
  if !descent.served then countMemoryAccess
  writeBackAll descent.victims

/-- The line size of the first level. -/
def lineSize (h : Hierarchy) : Nat :=
  match h.levels with
  | [] => 1
  | level :: _ => level.store.geometry.blockSize

/-- Accesses the lines that hold the bytes of a record. -/
def access (record : TraceRecord) : Run Unit := do
  let h ← Action.get
  Action.forEach (record.lines h.lineSize) fun line => do
    let _ ← accessLine line record.kind

/-- Runs a trace of fixed-width records. -/
def simulateFixed (bytes : List UInt8) : Action TraceFailure Hierarchy Unit :=
  match FixedForm.parse bytes with
  | .error error => Action.fail (.trace error)
  | .ok records => Action.forEach records fun record => (access record).mapError .store

/-- Runs the line of text with a number. -/
def accessTextLine (number : Nat) (line : List Char) : Action TraceFailure Hierarchy Unit :=
  match TextForm.parseLine number line with
  | .error error => Action.fail (.trace error)
  | .ok none => pure ()
  | .ok (some record) => (access record).mapError .store

/-- Runs a trace of lines of text, which are numbered from one. -/
def simulateText (text : List Char) : Action TraceFailure Hierarchy Unit :=
  Action.forEach ((Text.lines text).zipIdx 1) fun (line, number) => accessTextLine number line

/-- The number of resident lines of each level. -/
def occupancies (h : Hierarchy) : List Nat := h.levels.map (·.store.stats.occupancy)

end Hierarchy

end AssocCache

/-!
## Building hierarchies

A hierarchy is built from the configurations of its stores, of which there has to
be at least one.  The first that is rejected is reported.
-/

namespace AssocCache.Hierarchy

/-- Builds the empty stores of a row. -/
def buildLevels : List Config → Logged BuildFailure (List Level)
  | [] => pure []
  | c :: rest => do
    let store ← Store.ofConfig c
    let levels ← buildLevels rest
    pure (⟨store, {}⟩ :: levels)

/-- Builds the empty hierarchy that a configuration describes. -/
def ofConfig (c : HierarchyConfig) : Logged BuildFailure Hierarchy :=
  if c.caches.isEmpty then Logged.fail (.rejected .noCaches)
  else do
    let levels ← buildLevels c.caches
    pure { levels, memoryLatency := c.memoryLatency.toNat, memoryAccesses := 0,
           memoryWritebacks := 0, cycles := 0 }

end AssocCache.Hierarchy
