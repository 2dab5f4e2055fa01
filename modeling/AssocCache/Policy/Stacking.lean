import AssocCache.Policy
import AssocCache.Policy.Counters

/-!
# Stack policies

The policies that keep the ways of a set in a recency stack and give up the last one.  They
differ in where a new line enters the stack.
-/

/-!
## Bimodal insertion

A stack policy like least recently used, except that a new line enters the
recency stack at its least recently used end, and only one in every interval at
the other.  A scan that is larger than the set then passes through a single way
and leaves the lines in use alone.
-/

namespace AssocCache

/-- Bimodal insertion. -/
structure Bimodal where
  /-- The fills since the last one at the most recently used end. -/
  fills : Nat
  interval : Nat
  deriving DecidableEq, Repr

namespace Bimodal

/-- One fill in every interval is trusted.  An interval of zero counts as
one. -/
def start (interval : Nat) : Bimodal := ⟨0, Nat.max interval 1⟩

instance : Policy Bimodal where
  chooseVictim policy set := do
    pure (← set.tailWay, policy, set)
  onHit policy set way := do
    pure (policy, ← set.moveToHead way)
  onInsert policy set way _ := do
    let fills ← Word.add 32 policy.fills 1
    if policy.interval ≤ fills then
      pure ({ policy with fills := 0 }, ← set.moveToHead way)
    else
      pure ({ policy with fills }, ← set.moveToTail way)
  onInvalidate policy set way := do
    pure (policy, ← set.moveToTail way)

end Bimodal

/-!
## Thrash-resistant replacement

A stack policy for a main memory that is part DRAM, part NVM.  New lines are
distrusted: they enter the recency stack at its least recently used end, and only
a hit moves a line to the other end.  Two kinds of fill enter at the most
recently used end all the same: one that completes its set's interval, and one of
an NVM line into a set that still holds a DRAM line, so DRAM lines are given up
first.
-/

/-- Thrash-resistant replacement. -/
structure ThrashResistant where
  intervals : Intervals

namespace ThrashResistant

/-- The policy of a store with some sets. -/
def start (numSets interval : Nat) : Except Fault ThrashResistant := do
  pure ⟨← Intervals.start numSets interval⟩

/-- Counts a touch of the set. -/
def touch (policy : ThrashResistant) (set : CacheSet) : Except Fault ThrashResistant := do
  pure ⟨← policy.intervals.touch set.index⟩

/-- Whether a block other than that of the way carries a DRAM line. -/
def holdsOtherDram (set : CacheSet) (way : Nat) : Bool :=
  set.blocks.any fun block => block.wayIndex != way && block.valid && block.kind == .dram

instance : Policy ThrashResistant where
  chooseVictim policy set := do
    pure (← set.tailWay, policy, set)
  onHit policy set way := do
    let policy ← policy.touch set
    pure (policy, ← set.moveToHead way)
  onFill policy set _ := do
    pure (← policy.touch set, set)
  onInsert policy set way _ := do
    let set ← set.moveToTail way
    let onInterval ← policy.intervals.isComplete set.index
    if onInterval then
      pure (policy, ← set.moveToHead way)
    else if holdsOtherDram set way then
      let block ← set.blockAt way
      if block.kind = .nvm then pure (policy, ← set.moveToHead way) else pure (policy, set)
    else
      pure (policy, set)
  onInvalidate policy set way := do
    pure (policy, ← set.moveToTail way)

end ThrashResistant

/-!
## Write-back aware replacement

A stack policy for a main memory that is part DRAM, part NVM.  Where a new line
enters the recency stack depends on the memory behind it, on whether it is a
write-back from the level above, and on a counter of its set.  The counter rises
with demand fills of DRAM lines and falls with those of NVM lines.  At zero an NVM
write-back starts at the most recently used end, where it puts off a costly write,
and every other line at the other end.  The higher the count, the farther each starts
from there.
-/

/-- Write-back aware replacement. -/
structure WriteBackAware where
  counters : Counters
  counterMax : Nat

namespace WriteBackAware

/-- The policy of a store with some sets. -/
def start (numSets counterMax : Nat) : Except Fault WriteBackAware := do
  pure ⟨← Counters.zeros numSets, counterMax⟩

/-- The stack position of a new line in a set whose last position is `last`. -/
def insertionPosition (count last : Nat) : AccessKind → MemoryKind → Nat
  | .writeback, .nvm => count / 8
  | .writeback, .dram => last - count / 2
  | _, .nvm => last - count / 4
  | _, .dram => last - count / 8

/-- The counter of a set after a fill. -/
def nextCount (counterMax count : Nat) : AccessKind → MemoryKind → Except Fault Nat
  | .writeback, _ => .ok count
  | _, .nvm => .ok (count - 1)
  | _, .dram => do pure (Nat.min (← Word.add 32 count 1) counterMax)

instance : Policy WriteBackAware where
  chooseVictim policy set := do
    pure (← set.tailWay, policy, set)
  onHit policy set way := do
    let block ← set.blockAt way
    match block.kind with
    | .nvm => pure (policy, ← set.moveToHead way)
    | .dram =>
      let count ← policy.counters.counterAt set.index
      pure (policy, ← set.promote way (count / 2))
  onInsert policy set way access := do
    let count ← policy.counters.counterAt set.index
    let block ← set.blockAt way
    let position := insertionPosition count (set.associativity - 1) access block.kind
    let next ← nextCount policy.counterMax count access block.kind
    let set' ← set.moveTo way position
    pure ({ policy with counters := policy.counters.write set.index next }, set')
  onInvalidate policy set way := do
    pure (policy, ← set.moveToTail way)

end WriteBackAware

end AssocCache
