import AssocCache.Config
import AssocCache.Json.Reader

/-!
# Reading configurations

The JSON form of configurations.  Settings that are not given take their
defaults, numbers have to be whole and to fit their words, and only a setting
that may be absent can be null.  A policy is given by one of its names, or as an
object with its name and null.
-/

namespace AssocCache

open Json

/-- The policy a value names. -/
def PolicyKind.ofJson? : Json → Option PolicyKind
  | .string name => name.toString?.bind ofName?
  | .object [(name, .null)] => name.toString?.bind ofName?
  | _ => none

/-- The fields of the settings of the policies. -/
def PolicyParams.fieldNames : List FieldName :=
  [⟨"rrpv_bits", []⟩, ⟨"srrip_insertion", []⟩, ⟨"leader_set_stride", []⟩, ⟨"psel_bits", []⟩,
    ⟨"bimodal_interval", []⟩, ⟨"seed", []⟩, ⟨"lfu_counter_bits", []⟩, ⟨"trash_interval", []⟩,
    ⟨"trrip_rrpv_bits", []⟩, ⟨"trrip_interval", []⟩, ⟨"dram_hit_demotion", []⟩,
    ⟨"wbar_counter_max", []⟩]

/-- Reads the settings of the policies. -/
def PolicyParams.ofJson? (value : Json) : Option PolicyParams := do
  let preset : PolicyParams := {}
  let fields ← fields? fieldNames value
  pure {
    predictionBits := ← fields.optional "rrpv_bits" preset.predictionBits word32?
    staticInsertion :=
      ← fields.optional "srrip_insertion" preset.staticInsertion (nullable? word64?)
    leaderStride := ← fields.optional "leader_set_stride" preset.leaderStride word64?
    selectorBits := ← fields.optional "psel_bits" preset.selectorBits word32?
    bimodalInterval := ← fields.optional "bimodal_interval" preset.bimodalInterval word32?
    seed := ← fields.optional "seed" preset.seed word64?
    useCountBits := ← fields.optional "lfu_counter_bits" preset.useCountBits word32?
    thrashInterval := ← fields.optional "trash_interval" preset.thrashInterval word32?
    typeAwarePredictionBits :=
      ← fields.optional "trrip_rrpv_bits" preset.typeAwarePredictionBits word32?
    typeAwareInterval := ← fields.optional "trrip_interval" preset.typeAwareInterval word32?
    dramHitStep := ← fields.optional "dram_hit_demotion" preset.dramHitStep word64?
    writeBackCounterMax :=
      ← fields.optional "wbar_counter_max" preset.writeBackCounterMax (nullable? word32?) }

/-- The fields of the configuration of a store. -/
def Config.fieldNames : List FieldName :=
  [⟨"name", []⟩, ⟨"capacity", ["size"]⟩, ⟨"block_size", ["line_size"]⟩, ⟨"associativity", []⟩,
    ⟨"hit_latency", []⟩, ⟨"replacement_policy", []⟩, ⟨"address_bits", []⟩,
    ⟨"region_border", []⟩, ⟨"policy_params", []⟩]

/-- Reads the configuration of a store. -/
def Config.ofJson? (value : Json) : Option Config := do
  let preset := Config.ofShape .lru 0 0 0
  let fields ← fields? fieldNames value
  pure {
    name := ← fields.required "name" text?
    capacity := ← fields.required "capacity" word64?
    blockSize := ← fields.required "block_size" word64?
    associativity := ← fields.required "associativity" word64?
    hitLatency := ← fields.optional "hit_latency" preset.hitLatency word64?
    policy := ← fields.optional "replacement_policy" preset.policy PolicyKind.ofJson?
    addressBits := ← fields.optional "address_bits" preset.addressBits word32?
    regionBorder := ← fields.optional "region_border" preset.regionBorder (nullable? word64?)
    params := ← fields.optional "policy_params" preset.params PolicyParams.ofJson? }

/-- The fields of the configuration of a hierarchy. -/
def HierarchyConfig.fieldNames : List FieldName := [⟨"memory_latency", []⟩, ⟨"caches", []⟩]

/-- Reads the configuration of a hierarchy. -/
def HierarchyConfig.ofJson? (value : Json) : Option HierarchyConfig := do
  let fields ← fields? fieldNames value
  pure {
    memoryLatency := ← fields.optional "memory_latency" 0 word64?
    caches := ← fields.required "caches" (list? Config.ofJson?) }

end AssocCache
