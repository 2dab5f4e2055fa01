import AssocCache.Numeral
import AssocCache.Text.Quoted

/-!
# Configurations

What a user says about a store, or about a hierarchy of stores.  Numbers are
machine words here, because that is what a configuration file can hold.  Whether
the numbers make sense is the question of `AssocCache.Config.Validation`.
-/

namespace AssocCache

/-- The replacement policies a configuration can name. -/
inductive PolicyKind where
  | lru
  | lfu
  | random
  | staticRrip
  | dynamicRrip
  | thrashResistant
  | fullyAssociativeLru
  | bimodal
  | typeAwareRrip
  | writeBackAware
  deriving DecidableEq, Repr, Inhabited

namespace PolicyKind

/-- All policies. -/
def all : List PolicyKind :=
  [.lru, .lfu, .random, .staticRrip, .dynamicRrip, .thrashResistant, .fullyAssociativeLru,
    .bimodal, .typeAwareRrip, .writeBackAware]

theorem mem_all (kind : PolicyKind) : kind ∈ all := by
  cases kind <;> decide

/-- The full name of a policy. -/
def name : PolicyKind → String
  | .lru => "Lru"
  | .lfu => "Lfu"
  | .random => "Random"
  | .staticRrip => "StaticRrip"
  | .dynamicRrip => "DynamicRrip"
  | .thrashResistant => "TrashResistant"
  | .fullyAssociativeLru => "FullyAssociativeLru"
  | .bimodal => "Bimodal"
  | .typeAwareRrip => "TypeAwareRrip"
  | .writeBackAware => "WriteBackAware"

/-- The short name of a policy, which configurations may use too. -/
def shortName : PolicyKind → String
  | .lru => "lru"
  | .lfu => "lfu"
  | .random => "random"
  | .staticRrip => "srrip"
  | .dynamicRrip => "drrip"
  | .thrashResistant => "trash"
  | .fullyAssociativeLru => "fa_lru"
  | .bimodal => "bip"
  | .typeAwareRrip => "trrip"
  | .writeBackAware => "wbar"

/-- The policy with a full or short name. -/
def ofName? (text : String) : Option PolicyKind :=
  all.find? fun kind => kind.name == text || kind.shortName == text

theorem ofName?_name (kind : PolicyKind) : ofName? kind.name = some kind := by
  cases kind <;> decide

theorem ofName?_shortName (kind : PolicyKind) : ofName? kind.shortName = some kind := by
  cases kind <;> decide

end PolicyKind

/-- The settings of the policies.  Only those that a policy reads matter to
it. -/
structure PolicyParams where
  /-- The width of a prediction under static and dynamic prediction. -/
  predictionBits : UInt32 := 2
  /-- The prediction of a new line under static prediction, one step short of the
  most distant one when absent. -/
  staticInsertion : Option UInt64 := none
  /-- One leader set for each insertion rule in so many sets. -/
  leaderStride : UInt64 := 32
  /-- The width of the selection counter. -/
  selectorBits : UInt32 := 10
  /-- One fill in so many is an exception under bimodal insertion. -/
  bimodalInterval : UInt32 := 32
  /-- Where the random choices start. -/
  seed : UInt64 := 0
  /-- The width of a use count. -/
  useCountBits : UInt32 := 32
  /-- The touches between two exceptions under thrash-resistant replacement. -/
  thrashInterval : UInt32 := 23
  /-- The width of a prediction under memory-type aware prediction. -/
  typeAwarePredictionBits : UInt32 := 3
  /-- The touches between two exceptions under memory-type aware prediction. -/
  typeAwareInterval : UInt32 := 80
  /-- How much nearer a hit brings the prediction of a DRAM line. -/
  dramHitStep : UInt64 := 3
  /-- Where the counter of write-back aware replacement saturates, at four times
  the associativity when absent. -/
  writeBackCounterMax : Option UInt32 := none
  deriving DecidableEq, Repr, Inhabited

/-- The configuration of one store. -/
structure Config where
  name : String
  capacity : UInt64
  blockSize : UInt64
  associativity : UInt64
  hitLatency : UInt64 := 1
  policy : PolicyKind := .lru
  /-- The width of the address space.  Addresses beyond it are refused. -/
  addressBits : UInt32 := 64
  /-- The highest address served by DRAM.  All memory is DRAM when absent. -/
  regionBorder : Option UInt64 := some ((1 : UInt64) <<< 30)
  params : PolicyParams := {}
  deriving DecidableEq, Repr

/-- The configuration of a hierarchy of stores, the one closest to the processor
first. -/
structure HierarchyConfig where
  /-- The cycles charged for a line served by main memory. -/
  memoryLatency : UInt64 := 0
  caches : List Config
  deriving DecidableEq, Repr

/-- A store named after its policy, with the default setting everywhere but in
its shape. -/
def Config.ofShape (kind : PolicyKind) (capacity blockSize associativity : UInt64) : Config :=
  { name := kind.name, capacity, blockSize, associativity, policy := kind }

/-!
## Descriptions of configurations

A configuration with all of its settings on one line, defaults included.
-/

/-- A setting that may be absent. -/
def describeOption (value : Option Nat) : String :=
  match value with
  | some n => s!"Some({n})"
  | none => "None"

/-- A structure with its fields. -/
def describeFields (name : String) (fields : List (String × String)) : String :=
  name ++ " \x7b " ++ ", ".intercalate (fields.map fun field => field.1 ++ ": " ++ field.2) ++
    " \x7d"

/-- All settings of the policies. -/
def PolicyParams.description (p : PolicyParams) : String :=
  describeFields "PolicyParams" [
    ("rrpv_bits", toString p.predictionBits.toNat),
    ("srrip_insertion", describeOption (p.staticInsertion.map UInt64.toNat)),
    ("leader_set_stride", toString p.leaderStride.toNat),
    ("psel_bits", toString p.selectorBits.toNat),
    ("bimodal_interval", toString p.bimodalInterval.toNat),
    ("seed", toString p.seed.toNat),
    ("lfu_counter_bits", toString p.useCountBits.toNat),
    ("trash_interval", toString p.thrashInterval.toNat),
    ("trrip_rrpv_bits", toString p.typeAwarePredictionBits.toNat),
    ("trrip_interval", toString p.typeAwareInterval.toNat),
    ("dram_hit_demotion", toString p.dramHitStep.toNat),
    ("wbar_counter_max", describeOption (p.writeBackCounterMax.map UInt32.toNat))]

/-- The whole configuration of a store. -/
def Config.description (c : Config) : String :=
  describeFields "TagStoreConfig" [
    ("name", Text.quote c.name),
    ("capacity", toString c.capacity.toNat),
    ("block_size", toString c.blockSize.toNat),
    ("associativity", toString c.associativity.toNat),
    ("hit_latency", toString c.hitLatency.toNat),
    ("replacement_policy", c.policy.name),
    ("address_bits", toString c.addressBits.toNat),
    ("region_border", describeOption (c.regionBorder.map UInt64.toNat)),
    ("policy_params", c.params.description)]

/-- The whole configuration of a hierarchy. -/
def HierarchyConfig.description (c : HierarchyConfig) : String :=
  describeFields "LayeredCacheConfig" [
    ("memory_latency", toString c.memoryLatency.toNat),
    ("caches", "[" ++ ", ".intercalate (c.caches.map Config.description) ++ "]")]

end AssocCache
