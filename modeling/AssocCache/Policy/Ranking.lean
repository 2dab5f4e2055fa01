import AssocCache.CacheSet
import AssocCache.Policy
import AssocCache.Random
import Std.Data.TreeMap

/-!
# Ranking and chance

The policies that keep a number in each block and give up the block with the smallest one, and
the policy that leaves the choice to chance.
-/

/-!
## Ranking ways by their words

The victim rule of the policies that keep a number in each block and give up the
block with the smallest one.
-/

namespace AssocCache

/-- The number and way of the best candidate so far, after a look at one more. -/
def leastOf (best : Nat × Nat) (candidate : Block × Nat) : Nat × Nat :=
  if candidate.1.word < best.1 then (candidate.1.word, candidate.2) else best

/-- The lowest way with the smallest word.  A word with all of its 64 bits set
never counts as smaller, so a set full of them gives up way 0. -/
def CacheSet.leastWordWay (set : CacheSet) : Nat :=
  (set.blocks.zipIdx.foldl leastOf (2 ^ (64 : Nat) - 1, 0)).2

/-!
## Least recently used

Each block's word is the time it was last touched.  One clock serves all sets of
the store and advances with every hit and fill, so the stamps of a set differ and
the smallest belongs to the least recently used line.
-/

/-- Least recently used.  The clock starts at one, so a stamp is never the word
of a block that was not stamped yet. -/
structure Lru where
  clock : Nat := 1
  deriving DecidableEq, Repr

namespace Lru

/-- Stamps a way with the time, and lets time advance. -/
def stamp (policy : Lru) (set : CacheSet) (way : Nat) : Except Fault (Lru × CacheSet) := do
  let set ← set.setWord way policy.clock
  let clock ← Word.add 64 policy.clock 1
  pure (⟨clock⟩, set)

instance : Policy Lru where
  chooseVictim policy set := .ok (set.leastWordWay, policy, set)
  onHit := stamp
  onInsert policy set way _ := policy.stamp set way

end Lru

/-!
## Least frequently used

Each block's word counts the uses of its line.  A new line has been used once,
and a count that has reached the cap stays there until the line is replaced.
-/

/-- Least frequently used, with counts up to a cap. -/
structure Lfu where
  maxCount : Nat
  deriving DecidableEq, Repr

namespace Lfu

/-- Counts that are `counterBits` wide, at most 64 bits. -/
def ofCounterBits (counterBits : Nat) : Lfu where
  maxCount := if 64 ≤ counterBits then 2 ^ (64 : Nat) - 1 else 2 ^ counterBits - 1

/-- One use more, up to the cap and never beyond 64 bits. -/
def countUse (policy : Lfu) (count : Nat) : Nat :=
  min (min (count + 1) (2 ^ (64 : Nat) - 1)) policy.maxCount

instance : Policy Lfu where
  chooseVictim policy set := .ok (set.leastWordWay, policy, set)
  onHit policy set way := do
    pure (policy, ← set.changeWord way policy.countUse)
  onInsert policy set way _ := do
    pure (policy, ← set.setWord way 1)

end Lfu

/-!
## Least recently used, fully associative

The whole store is one set, which can be very wide.  Instead of a scan for the
oldest stamp the policy keeps the resident ways ordered by their stamps, and the
set finds its lines through its tag index.
-/

/-- Least recently used in a single wide set. -/
structure FullyAssociativeLru where
  /-- The resident ways by the time of their last touch. -/
  recency : Std.TreeMap Nat Nat
  clock : Nat

namespace FullyAssociativeLru

/-- No way has been touched yet.  The clock starts at one, so a stamp is never
the word of a block that was not stamped yet. -/
def start : FullyAssociativeLru := ⟨∅, 1⟩

/-- Stamps a way with the time, and lets time advance. -/
def stamp (policy : FullyAssociativeLru) (set : CacheSet) (way : Nat) :
    Except Fault (FullyAssociativeLru × CacheSet) := do
  let block ← set.blockAt way
  let recency := (policy.recency.erase block.word).insert policy.clock way
  let clock ← Word.add 64 policy.clock 1
  pure (⟨recency, clock⟩, set.put way { block with word := policy.clock })

/-- The way that was not touched for the longest time. -/
def oldestWay? (policy : FullyAssociativeLru) : Option Nat :=
  policy.recency.minKey?.bind fun time => policy.recency[time]?

instance : Policy FullyAssociativeLru where
  chooseVictim policy set :=
    match policy.oldestWay? with
    | some way => .ok (way, policy, set)
    | none => .error (set.broken .noTimeStamp)
  onHit := stamp
  onInsert policy set way _ := policy.stamp set way
  onInvalidate policy set way := do
    let block ← set.blockAt way
    pure ({ policy with recency := policy.recency.erase block.word }, set)
  fullyAssociative _ := true

end FullyAssociativeLru

/-!
## Random replacement

Victims are drawn uniformly from the ways of the set.  The draws come from a
generator, so the same generator and the same history of evictions give the same
victims.
-/

/-- Random replacement. -/
structure RandomChoice where
  generator : Random.Generator
  /-- The place in the stream of the generator. -/
  place : Nat

namespace RandomChoice

/-- Random replacement with a generator at its start. -/
def start (generator : Random.Generator) : RandomChoice := ⟨generator, 0⟩

instance : Policy RandomChoice where
  chooseVictim policy set :=
    let (way, place) := policy.generator.below set.associativity policy.place
    .ok (way, { policy with place }, set)
  onHit policy set _ := .ok (policy, set)
  onInsert policy set _ _ := .ok (policy, set)

end RandomChoice

end AssocCache
