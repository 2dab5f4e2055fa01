import AssocCache.Policy.Any
import AssocCache.Store

/-!
# Building stores

A store is built from a configuration, either around a policy that is given
(`Store.create`) or around the one the configuration names (`Store.ofConfig`).
The layout follows the policy: a fully associative one gets a single set with a
tag index, and one that duels gets leader sets.  A layout that is too large for
any memory is a fault, which is found before anything is built.
-/

namespace AssocCache

/-- Why a store was not built. -/
inductive BuildFailure where
  | rejected (error : ConfigError)
  | aborted (fault : Fault)
  deriving DecidableEq, Repr

/-- The wording of the failure. -/
def BuildFailure.message : BuildFailure → String
  | .rejected error => error.message
  | .aborted fault => fault.message

namespace Store

variable {π : Type} [Policy π]

/-- The bytes of a set in the table of sets, without its blocks. -/
def setBytes : Nat := 112

/-- The bytes of a block in the table of blocks of a set. -/
def blockBytes : Nat := 40

/-- A fault if the sets, or the blocks of one of them, are too many for a table. -/
def checkSize (g : Geometry) : Except Fault Unit := do
  checkTable setBytes g.numSets
  checkTable blockBytes g.associativity

theorem checkSize_eq_ok_iff {g : Geometry} :
    checkSize g = .ok () ↔
      setBytes * g.numSets < 2 ^ (63 : Nat) ∧ blockBytes * g.associativity < 2 ^ (63 : Nat) := by
  rw [← checkTable_eq_ok_iff, ← checkTable_eq_ok_iff, checkSize, Success.bind_eq_ok_iff]
  exact ⟨fun ⟨(), hs, hb⟩ => ⟨hs, hb⟩, fun ⟨hs, hb⟩ => ⟨(), hs, hb⟩⟩

/-- How many sets apart the leaders of a duel are, or zero for a policy that does
not duel. -/
def leaderStride (c : Config) (policy : π) : Except ConfigError Nat :=
  let stride := c.params.leaderStride.toNat
  if Policy.duelsSets policy then
    if stride < 2 then .error (.parameterOutOfRange c.name "leader_set_stride" stride)
    else .ok stride
  else
    .ok 0

/-- The empty sets of a store of some shape, as the policy wants them. -/
def layout (c : Config) (g : Geometry) (policy : π) : Except BuildFailure (Array CacheSet) :=
  if Policy.fullyAssociative policy then
    if g.numSets = 1 then do
      (checkSize g).mapError .aborted
      pure #[CacheSet.indexed 0 g.associativity]
    else
      .error (.rejected (.notFullyAssociative c.name g.associativity g.numBlocks))
  else do
    let stride ← (leaderStride c policy).mapError .rejected
    (checkSize g).mapError .aborted
    pure (Array.ofFn fun index : Fin g.numSets =>
      CacheSet.scanned index g.associativity (DuelRole.ofIndex index stride))

/-- What is logged about a new store. -/
def description (c : Config) (g : Geometry) : String :=
  s!"{g.capacity} bytes, {g.numSets} sets of {g.associativity} ways, {g.blockSize} byte blocks, " ++
    s!"{c.policy.name} replacement, {g.hitLatency} cycles"

/-- Builds an empty store around a policy. -/
def create (c : Config) (policy : π) : Logged BuildFailure (Store π) :=
  let built : Except BuildFailure (Store π) := do
    let geometry ← c.geometry.mapError .rejected
    let sets ← layout c geometry policy
    pure { name := c.name, geometry, regionBorder := c.regionBorder.map UInt64.toNat, sets, policy,
           stats := {} }
  match built with
  | .error failure => Logged.fail failure
  | .ok store => do
    Logged.note (store.say .info (description c store.geometry))
    pure store

/-- Builds the empty store that a configuration describes. -/
def ofConfig (c : Config) (random : UInt64 → Random.Generator := ChaCha.generator) :
    Logged BuildFailure (Store AnyPolicy) :=
  match c.geometry with
  | .error error => Logged.fail (.rejected error)
  | .ok geometry =>
    match AnyPolicy.ofConfig c geometry random with
    | .error fault => Logged.fail (.aborted fault)
    | .ok policy => create c policy

end Store

end AssocCache
