import AssocCache.Config
import AssocCache.Geometry

/-!
# Validation of configurations

`Config.geometry` derives the shape of a store from its configuration, or says
why there is none.  Nothing is ever rounded to make a configuration fit: the
capacity has to be a power of two times the bytes of a set, the offset and index
bits have to fit into an address, and the settings of the chosen policy have to
be in range.  Where several of these fail, the first in that order is reported.
-/

namespace AssocCache

/-- Why a configuration was rejected.  All but the last name the store at
fault. -/
inductive ConfigError where
  | zeroCapacity (name : String)
  | zeroAssociativity (name : String)
  | blockSizeNotPowerOfTwo (name : String) (blockSize : Nat)
  | capacityNotDivisible (name : String) (capacity blockSize associativity : Nat)
  | setsNotPowerOfTwo (name : String) (numSets : Nat)
  | notFullyAssociative (name : String) (associativity expected : Nat)
  | addressSpaceTooSmall (name : String) (addressBits needed : Nat)
  | parameterOutOfRange (name param : String) (value : Nat)
  | noCaches
  deriving DecidableEq, Repr

/-- The wording of a rejection. -/
def ConfigError.message : ConfigError → String
  | .zeroCapacity name => s!"cache `{name}`: capacity must be non-zero"
  | .zeroAssociativity name => s!"cache `{name}`: associativity must be at least 1"
  | .blockSizeNotPowerOfTwo name blockSize =>
    s!"cache `{name}`: block size {blockSize} is not a power of two"
  | .capacityNotDivisible name capacity blockSize associativity =>
    s!"cache `{name}`: capacity {capacity} isn't a multiple of {blockSize}x{associativity}"
  | .setsNotPowerOfTwo name numSets =>
    s!"cache `{name}`: number of sets {numSets} is not a power of two"
  | .notFullyAssociative name associativity expected =>
    s!"cache `{name}`: fully associative needs {expected} ways, got {associativity}"
  | .addressSpaceTooSmall name addressBits needed =>
    s!"cache `{name}`: {addressBits} address bits can't hold {needed} offset/index bits"
  | .parameterOutOfRange name param value =>
    s!"cache `{name}`: parameter `{param}` = {value} is out of range"
  | .noCaches => "configuration contains no caches"

/-- Whether a number is a power of two. -/
def IsPowerOfTwo (n : Nat) : Prop := 2 ^ n.log2 = n

instance (n : Nat) : Decidable (IsPowerOfTwo n) := inferInstanceAs (Decidable (_ = _))

theorem isPowerOfTwo_iff {n : Nat} : IsPowerOfTwo n ↔ ∃ k : Nat, n = 2 ^ k := by
  constructor
  · intro h
    exact ⟨n.log2, h.symm⟩
  · rintro ⟨k, rfl⟩
    simp [IsPowerOfTwo]

namespace Config

/-- A setting with its value, unless it lies between its bounds.  The upper one
may be missing. -/
def reject (param : String) (value low : Nat) (high : Option Nat) : Option (String × Nat) :=
  if low ≤ value ∧ ∀ h ∈ high, value ≤ h then none else some (param, value)

/-- The first setting of the chosen policy that is out of range, with its
value. -/
def badParam? (c : Config) : Option (String × Nat) :=
  let p := c.params
  match c.policy with
  | .lfu => reject "lfu_counter_bits" p.useCountBits.toNat 1 (some 64)
  | .staticRrip =>
    reject "rrpv_bits" p.predictionBits.toNat 1 (some 8) <|>
      p.staticInsertion.bind fun prediction =>
        reject "srrip_insertion" prediction.toNat 0 (some (2 ^ p.predictionBits.toNat - 1))
  | .dynamicRrip =>
    reject "rrpv_bits" p.predictionBits.toNat 1 (some 8) <|>
      reject "psel_bits" p.selectorBits.toNat 1 (some 16) <|>
      reject "leader_set_stride" p.leaderStride.toNat 2 none <|>
      reject "bimodal_interval" p.bimodalInterval.toNat 1 none
  | .bimodal => reject "bimodal_interval" p.bimodalInterval.toNat 1 none
  | .typeAwareRrip => reject "trrip_rrpv_bits" p.typeAwarePredictionBits.toNat 1 (some 8)
  | .lru | .random | .thrashResistant | .fullyAssociativeLru | .writeBackAware => none

/-- The shape of the store, or why there is none. -/
def geometry (c : Config) : Except ConfigError Geometry :=
  let capacity := c.capacity.toNat
  let blockSize := c.blockSize.toNat
  let associativity := c.associativity.toNat
  let setBytes := blockSize * associativity
  let numSets := capacity / setBytes
  let needed := blockSize.log2 + numSets.log2
  if capacity = 0 then .error (.zeroCapacity c.name)
  else if associativity = 0 then .error (.zeroAssociativity c.name)
  else if ¬ IsPowerOfTwo blockSize then .error (.blockSizeNotPowerOfTwo c.name blockSize)
  else if 2 ^ (64 : Nat) ≤ setBytes ∨ capacity % setBytes ≠ 0 then
    .error (.capacityNotDivisible c.name capacity blockSize associativity)
  else if ¬ IsPowerOfTwo numSets then .error (.setsNotPowerOfTwo c.name numSets)
  else if c.policy = .fullyAssociativeLru ∧ numSets ≠ 1 then
    .error (.notFullyAssociative c.name associativity (capacity / blockSize))
  else if c.addressBits.toNat = 0 ∨ 64 < c.addressBits.toNat then
    .error (.parameterOutOfRange c.name "address_bits" c.addressBits.toNat)
  else if c.addressBits.toNat < needed then
    .error (.addressSpaceTooSmall c.name c.addressBits.toNat needed)
  else
    match c.badParam? with
    | some (param, value) => .error (.parameterOutOfRange c.name param value)
    | none =>
      .ok { capacity, blockSize, associativity, numSets, offsetBits := blockSize.log2,
            indexBits := numSets.log2, addressBits := c.addressBits.toNat,
            hitLatency := c.hitLatency.toNat }

end Config

end AssocCache
