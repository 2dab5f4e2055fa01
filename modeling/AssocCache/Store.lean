import AssocCache.Action
import AssocCache.Fault
import AssocCache.Geometry
import AssocCache.Policy

/-!
# Stores

A `Store` models the tag array of a cache: which lines of memory are resident,
in which ways, and which of them have pending writes.  It is a pure state
machine.  Every operation runs to completion, and a latency is reported to the
caller, not waited for.

Three operations change a store.

* `probe` looks an address up and tells the policy of a hit.
* `fill` brings in a line that is absent, in the place of another one if the set
  is full.
* `invalidate` makes a line leave.

`access` is a probe, followed by a fill if the probe missed.

The operations change the store in place, part by part, and an operation that fails
leaves the store as its parts so far have made it.
-/

/-!
## Statistics of a store

What a store counts about itself.  The counters stand for 64-bit words, so an
update that does not fit is a fault.
-/

namespace AssocCache

/-- The counters of a store. -/
structure Stats where
  hits : Nat := 0
  misses : Nat := 0
  evictions : Nat := 0
  /-- Evictions of lines with pending writes. -/
  writebacks : Nat := 0
  /-- Resident lines. -/
  occupancy : Nat := 0
  deriving DecidableEq, Repr, Inhabited

namespace Stats

/-- A lookup found its line. -/
def countHit (s : Stats) : Except Fault Stats := do
  pure { s with hits := ← Word.add 64 s.hits 1 }

/-- A lookup did not find its line. -/
def countMiss (s : Stats) : Except Fault Stats := do
  pure { s with misses := ← Word.add 64 s.misses 1 }

/-- A line was put into a vacant way. -/
def countArrival (s : Stats) : Except Fault Stats := do
  pure { s with occupancy := ← Word.add 64 s.occupancy 1 }

/-- A line was put in the place of another one. -/
def countEviction (s : Stats) : Except Fault Stats := do
  pure { s with evictions := ← Word.add 64 s.evictions 1 }

/-- The line that had to go was dirty. -/
def countWriteback (s : Stats) : Except Fault Stats := do
  pure { s with writebacks := ← Word.add 64 s.writebacks 1 }

/-- A line left without another one taking its place. -/
def countDeparture (s : Stats) : Except Fault Stats := do
  pure { s with occupancy := ← Word.sub s.occupancy 1 }

end Stats

/-! ## The state of a store -/

/-- The tag array of a cache under a replacement policy. -/
structure Store (π : Type) where
  name : String
  geometry : Geometry
  /-- The highest address served by DRAM, if memory is hybrid. -/
  regionBorder : Option Nat
  sets : Array CacheSet
  policy : π
  stats : Stats

/-- The answer to a lookup. -/
structure Lookup where
  set : Nat
  /-- The way that carries the line, on a hit. -/
  way : Option Nat
  /-- The hit latency of the store, in cycles. -/
  latency : Nat
  deriving DecidableEq, Repr

/-- Whether the line was resident. -/
def Lookup.hit (lookup : Lookup) : Bool := lookup.way.isSome

/-- A line that left a store, and whether it has to be written back. -/
structure Eviction where
  /-- The address of the line's first byte. -/
  address : Nat
  wasDirty : Bool
  deriving DecidableEq, Repr

/-- The address and the state of a line that had to go. -/
def Eviction.description (evicted : Eviction) : String :=
  let state := if evicted.wasDirty then "dirty" else "clean"
  s!"{Numeral.hex evicted.address} ({state})"

/-- Where a line was put, and what had to go. -/
structure Install where
  set : Nat
  way : Nat
  evicted : Option Eviction
  deriving DecidableEq, Repr

/-- A lookup, and the install that followed if it missed. -/
structure AccessOutcome where
  lookup : Lookup
  install : Option Install
  deriving DecidableEq, Repr

/-- Whether the line was resident. -/
def AccessOutcome.hit (outcome : AccessOutcome) : Bool := outcome.lookup.hit

/-- The line that had to go. -/
def AccessOutcome.evicted (outcome : AccessOutcome) : Option Eviction :=
  outcome.install.bind Install.evicted

/-- The way the line is in after the access. -/
def AccessOutcome.way (outcome : AccessOutcome) : Option Nat :=
  outcome.lookup.way <|> outcome.install.map Install.way

namespace Store

variable {π α : Type}

/-- The set with an index. -/
def setAt (s : Store π) (index : Nat) : Except Fault CacheSet :=
  match s.sets[index]? with
  | some set => .ok set
  | none => .error (.outOfBounds s.sets.size index)

/-- A message in the name of this store. -/
def say (s : Store π) (severity : Severity) (text : String) : Message :=
  ⟨severity, .store, s!"cache `{s.name}`: " ++ text⟩

/-- The line of a block of the set with an index, as it is reported when it leaves. -/
def departure (s : Store π) (index : Nat) (block : Block) : Eviction :=
  ⟨s.geometry.addressOf ⟨index, block.tag⟩, block.dirty⟩

/-! ## The parts of an operation -/

/-- The set and the tag of an address. -/
def locate (address : Nat) : Action Failure (Store π) Line :=
  Action.read fun s => Logged.ofExcept (s.geometry.locate address)

/-- The way that carries a line. -/
def wayOf (line : Line) : Action Failure (Store π) (Option Nat) :=
  Action.read fun s => do
    let set ← Logged.attempt (s.setAt line.set)
    pure (set.find line.tag)

/-- The kind of memory that a line is kept in. -/
def memoryOf (line : Line) : Action Failure (Store π) MemoryKind :=
  Action.read fun s => pure (.classify (s.geometry.addressOf line) s.regionBorder)

/-- What is reported about the line of a block that left its set. -/
def departureOf (index : Nat) (block : Block) : Action Failure (Store π) Eviction :=
  Action.read fun s => pure (s.departure index block)

/-- A step on the set with an index and on the policy.  A fault in the step ends the run,
and nobody looks at the set again. -/
def onSet (index : Nat) (step : π → CacheSet → Logged Failure (α × π × CacheSet)) :
    Action Failure (Store π) α :=
  Action.assign fun s => do
    let set ← Logged.attempt (s.setAt index)
    let (answer, policy, set) ← step s.policy set
    pure (answer, { s with sets := s.sets.setIfInBounds index set, policy })

/-- Counts an event. -/
def count (event : Stats → Except Fault Stats) : Action Failure (Store π) Unit :=
  Action.assign fun s => do
    let stats ← Logged.attempt (event s.stats)
    pure ((), { s with stats })

/-- Counts a line that had to go, and the write-back that it needs if it is dirty. -/
def countEviction (wasDirty : Bool) : Action Failure (Store π) Unit := do
  count Stats.countEviction
  if wasDirty then count Stats.countWriteback

/-- Logs a message in the name of this store. -/
def tell (severity : Severity) (text : String) : Action Failure (Store π) Unit :=
  Action.read fun s => Logged.note (s.say severity text)

/-- The answer to a lookup that found a way, or none. -/
def answerLookup (line : Line) (way : Option Nat) : Action Failure (Store π) Lookup :=
  Action.read fun s => pure ⟨line.set, way, s.geometry.hitLatency⟩

variable [Policy π]

/-- The way a new line goes to: the first vacant one, or else the policy's
choice. -/
def chooseWay (set : CacheSet) (policy : π) : Logged Failure (Nat × π × CacheSet) :=
  match set.vacancy with
  | some way => pure (way, policy, set)
  | none => do
    let (way, chosen, aged) ← Logged.attempt (Policy.chooseVictim policy set)
    Logged.noteIfAny ((Policy.victimNote policy set.index way).map (⟨.trace, .victimSearch, ·⟩))
    if way < aged.associativity then
      pure (way, chosen, aged)
    else
      Logged.attempt (.error (aged.broken (.noSuchWay way)))

/-- The line of a way is hit. -/
def hitWay (line : Line) (way : Nat) (access : AccessKind) : Action Failure (Store π) Unit :=
  onSet line.set fun policy set => Logged.attempt ((set.hit policy way access).map ((), ·))

/-- The line of a way leaves, if there is one. -/
def vacateWay (index way : Nat) : Action Failure (Store π) (Option Block) :=
  onSet index fun policy set => Logged.attempt (set.vacate policy way)

/-- A line enters in a way. -/
def enterWay (line : Line) (way : Nat) (kind : MemoryKind) (access : AccessKind) :
    Action Failure (Store π) Unit :=
  onSet line.set fun policy set =>
    Logged.attempt ((set.accept policy way line.tag kind access).map ((), ·))

/-! ## The operations -/

/-- Looks an address up and tells the policy of a hit. -/
def probe (address : Nat) (access : AccessKind) : Action Failure (Store π) Lookup := do
  let line ← locate address
  match ← wayOf line with
  | some way =>
    hitWay line way access
    count Stats.countHit
    tell .trace s!"hit {Numeral.hex address} in set {line.set} way {way}"
    answerLookup line (some way)
  | none =>
    count Stats.countMiss
    tell .trace s!"miss {Numeral.hex address} in set {line.set}"
    answerLookup line none

/-- Brings in a line that is absent. -/
def fill (address : Nat) (access : AccessKind) : Action Failure (Store π) Install := do
  let line ← locate address
  if (← wayOf line).isSome then
    Action.fail (.refused (.alreadyResident address))
  else
    let kind ← memoryOf line
    let way ← onSet line.set fun policy set => chooseWay set policy
    let victim ← vacateWay line.set way
    enterWay line way kind access
    match victim with
    | some block =>
      let evicted ← departureOf line.set block
      countEviction evicted.wasDirty
      tell .debug (s!"{Numeral.hex address} evicts {evicted.description} " ++
        s!"from set {line.set} way {way}")
      pure ⟨line.set, way, some evicted⟩
    | none =>
      count Stats.countArrival
      pure ⟨line.set, way, none⟩

/-- Makes a line leave.  Nothing happens if it is absent. -/
def invalidate (address : Nat) : Action Failure (Store π) (Option Eviction) := do
  let line ← locate address
  match ← wayOf line with
  | none => pure none
  | some way =>
    match ← vacateWay line.set way with
    | none => pure none
    | some block =>
      let evicted ← departureOf line.set block
      count Stats.countDeparture
      tell .debug s!"invalidated {Numeral.hex evicted.address} (dirty: {evicted.wasDirty})"
      pure (some evicted)

/-- Looks an address up and brings its line in if it was absent. -/
def access (address : Nat) (kind : AccessKind) : Action Failure (Store π) AccessOutcome := do
  let lookup ← probe address kind
  if lookup.hit then
    pure ⟨lookup, none⟩
  else
    let install ← fill address kind
    pure ⟨lookup, some install⟩

/-- Accesses one address after the other, until one access fails. -/
def replay (addresses : List Nat) (kind : AccessKind) :
    Action Failure (Store π) (List AccessOutcome) :=
  Action.mapEach addresses fun address => access address kind

end Store

/-!
## Calls

The operations of a store as data.  A `Call` is a request with its arguments, and
`Store.serve` answers it with a `Reply`, so a history of a store is a list of
calls.
-/

/-- A request to a store. -/
inductive Call where
  | probe (address : Nat) (access : AccessKind)
  | fill (address : Nat) (access : AccessKind)
  | access (address : Nat) (access : AccessKind)
  | invalidate (address : Nat)
  deriving DecidableEq, Repr

namespace Call

/-- The address a request is about. -/
def address : Call → Nat
  | .probe address _ | .fill address _ | .access address _ | .invalidate address => address

/-- A demand lookup. -/
def lookup (address : Nat) (isWrite : Bool) : Call := .probe address (.demand isWrite)

/-- A demand fill. -/
def install (address : Nat) (isWrite : Bool) : Call := .fill address (.demand isWrite)

/-- The fill of a line written back from the level above. -/
def installWriteback (address : Nat) : Call := .fill address .writeback

end Call

/-- The answer to a request. -/
inductive Reply where
  | lookup (lookup : Lookup)
  | install (install : Install)
  | access (outcome : AccessOutcome)
  | departure (evicted : Option Eviction)
  deriving DecidableEq, Repr

namespace Store

variable {π : Type} [Policy π]

/-- Answers a request. -/
def serve : Call → Action Failure (Store π) Reply
  | .probe address access => do pure (.lookup (← Store.probe address access))
  | .fill address access => do pure (.install (← Store.fill address access))
  | .access address kind => do pure (.access (← Store.access address kind))
  | .invalidate address => do pure (.departure (← Store.invalidate address))

omit [Policy π] in
/-- The set an address maps to, if it is inside the address space. -/
def setOf? (s : Store π) (address : Nat) : Option CacheSet :=
  match s.geometry.locate address with
  | .ok line => s.sets[line.set]?
  | .error _ => none

omit [Policy π] in
/-- The block of a way of a set, if there is one. -/
def block? (s : Store π) (set way : Nat) : Option Block :=
  s.sets[set]?.bind fun set => set.blocks[way]?

end Store

end AssocCache
