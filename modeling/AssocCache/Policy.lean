import AssocCache.CacheSet

/-!
# Replacement policies

A replacement policy decides which line of a full set has to go.  It is told of
everything that happens to a set and keeps its knowledge in three places: its own
value, the word of each block, and the recency stack of the set.

The set calls the hooks in a fixed order.  A hit calls `onHit`.  A fill calls
`chooseVictim` if no way is vacant, `onInvalidate` for the line that has to go,
and, once the new line is in place, `onFill` and `onInsert`.
-/

namespace AssocCache

/-- A replacement policy with values of type `π`. -/
class Policy (π : Type) where
  /-- Chooses the way to vacate in a set without a vacancy. -/
  chooseVictim : π → CacheSet → Except Fault (Nat × π × CacheSet)
  /-- A way was hit. -/
  onHit : π → CacheSet → Nat → Except Fault (π × CacheSet)
  /-- A way was filled.  `onInsert` follows. -/
  onFill : π → CacheSet → Nat → Except Fault (π × CacheSet) := fun policy set _ => .ok (policy, set)
  /-- A way was filled by an access of this kind. -/
  onInsert : π → CacheSet → Nat → AccessKind → Except Fault (π × CacheSet)
  /-- The line of a way is about to leave. -/
  onInvalidate : π → CacheSet → Nat → Except Fault (π × CacheSet) := fun policy set _ =>
    .ok (policy, set)
  /-- What is traced when `chooseVictim` has settled on a way of the set with
  this index. -/
  victimNote : π → Nat → Nat → Option String := fun _ _ _ => none
  /-- Whether the store must be a single set with a tag index. -/
  fullyAssociative : π → Bool := fun _ => false
  /-- Whether sets play parts in a duel. -/
  duelsSets : π → Bool := fun _ => false

namespace CacheSet

variable {π : Type} [Policy π]

/-- The way that carries the tag is hit. -/
def hit (set : CacheSet) (policy : π) (way : Nat) (access : AccessKind) :
    Except Fault (π × CacheSet) := do
  if access.isWrite then
    let block ← set.blockAt way
    if block.valid then
      Policy.onHit policy (set.put way { block with dirty := true }) way
    else
      .error (.dirtiedEmpty block)
  else
    Policy.onHit policy set way

/-- The line of a way leaves the set.  The answer is the block as it was, or
nothing if there was no line to leave. -/
def vacate (set : CacheSet) (policy : π) (way : Nat) :
    Except Fault (Option Block × π × CacheSet) := do
  let block ← set.blockAt way
  if block.valid then
    let (policy, set) ← Policy.onInvalidate policy set way
    let set ← set.change way Block.clear
    pure (some block, policy, set.forget block.tag)
  else
    pure (none, policy, set)

/-- A line enters the set in a vacant way. -/
def accept (set : CacheSet) (policy : π) (way tag : Nat) (kind : MemoryKind)
    (access : AccessKind) : Except Fault (π × CacheSet) := do
  let block ← set.blockAt way
  if block.valid then
    .error (.occupiedWay set.index way)
  else
    let set := (set.put way (block.fill tag kind access.isWrite)).enter tag way
    let (policy, set) ← Policy.onFill policy set way
    let (policy, set) ← Policy.onInsert policy set way access
    set.checkUniqueTags
    pure (policy, set)

end CacheSet

end AssocCache
