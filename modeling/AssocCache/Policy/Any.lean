import AssocCache.Config.Validation
import AssocCache.Policy.Stacking
import AssocCache.Policy.Rereference
import AssocCache.Policy.Ranking

/-!
# The policies a configuration can name

`AnyPolicy` holds a value of one of the ten policies and is a policy itself, which
does what the value inside does.  `AnyPolicy.ofConfig` builds the policy that a
configuration names, with the settings it gives.
-/

namespace AssocCache

/-- A value of one of the policies that a configuration can name. -/
inductive AnyPolicy where
  | lru (policy : Lru)
  | lfu (policy : Lfu)
  | random (policy : RandomChoice)
  | staticRrip (policy : StaticRrip)
  | dynamicRrip (policy : DynamicRrip)
  | thrashResistant (policy : ThrashResistant)
  | fullyAssociativeLru (policy : FullyAssociativeLru)
  | bimodal (policy : Bimodal)
  | typeAwareRrip (policy : TypeAwareRrip)
  | writeBackAware (policy : WriteBackAware)

namespace AnyPolicy

/-- The value inside, as a policy of its own type, and the way back. -/
structure Opened where
  {π : Type}
  [isPolicy : Policy π]
  value : π
  close : π → AnyPolicy

/-- Opens the wrapping. -/
def opened : AnyPolicy → Opened
  | .lru policy => ⟨policy, .lru⟩
  | .lfu policy => ⟨policy, .lfu⟩
  | .random policy => ⟨policy, .random⟩
  | .staticRrip policy => ⟨policy, .staticRrip⟩
  | .dynamicRrip policy => ⟨policy, .dynamicRrip⟩
  | .thrashResistant policy => ⟨policy, .thrashResistant⟩
  | .fullyAssociativeLru policy => ⟨policy, .fullyAssociativeLru⟩
  | .bimodal policy => ⟨policy, .bimodal⟩
  | .typeAwareRrip policy => ⟨policy, .typeAwareRrip⟩
  | .writeBackAware policy => ⟨policy, .writeBackAware⟩

attribute [instance] Opened.isPolicy

/-- The outcome of a hook of the value inside, with the new value wrapped
again. -/
def rewrap (policy : AnyPolicy) (outcome : Except Fault (policy.opened.π × CacheSet)) :
    Except Fault (AnyPolicy × CacheSet) :=
  outcome.map fun (value, set) => (policy.opened.close value, set)

instance : Policy AnyPolicy where
  chooseVictim policy set :=
    (Policy.chooseVictim policy.opened.value set).map fun (way, value, set) =>
      (way, policy.opened.close value, set)
  onHit policy set way := policy.rewrap (Policy.onHit policy.opened.value set way)
  onFill policy set way := policy.rewrap (Policy.onFill policy.opened.value set way)
  onInsert policy set way access :=
    policy.rewrap (Policy.onInsert policy.opened.value set way access)
  onInvalidate policy set way := policy.rewrap (Policy.onInvalidate policy.opened.value set way)
  victimNote policy := Policy.victimNote policy.opened.value
  fullyAssociative policy := Policy.fullyAssociative policy.opened.value
  duelsSets policy := Policy.duelsSets policy.opened.value

/-- The saturation point of the write-back aware counters when none is set: four
times the associativity, in 32 bits. -/
def defaultCounterMax (associativity : Nat) : Except Fault Nat :=
  Word.mul 32 4 (associativity % 2 ^ (32 : Nat))

/-- The policy that a configuration names, for a store of some shape.  Chance is left to the
generator of its seed. -/
def ofConfig (c : Config) (g : Geometry)
    (random : UInt64 → Random.Generator := ChaCha.generator) : Except Fault AnyPolicy :=
  let p := c.params
  match c.policy with
  | .lru => .ok (.lru {})
  | .lfu => .ok (.lfu (.ofCounterBits p.useCountBits.toNat))
  | .random => .ok (.random (.start (random p.seed)))
  | .staticRrip =>
    AnyPolicy.staticRrip <$>
      StaticRrip.build p.predictionBits.toNat (p.staticInsertion.map UInt64.toNat)
  | .dynamicRrip =>
    AnyPolicy.dynamicRrip <$>
      DynamicRrip.build p.predictionBits.toNat p.selectorBits.toNat p.bimodalInterval.toNat
  | .thrashResistant =>
    AnyPolicy.thrashResistant <$> ThrashResistant.start g.numSets p.thrashInterval.toNat
  | .fullyAssociativeLru => .ok (.fullyAssociativeLru .start)
  | .bimodal => .ok (.bimodal (.start p.bimodalInterval.toNat))
  | .typeAwareRrip =>
    AnyPolicy.typeAwareRrip <$>
      TypeAwareRrip.build g.numSets p.typeAwarePredictionBits.toNat p.typeAwareInterval.toNat
        p.dramHitStep.toNat
  | .writeBackAware => do
    let preset ← defaultCounterMax g.associativity
    let counterMax := (p.writeBackCounterMax.map UInt32.toNat).getD preset
    AnyPolicy.writeBackAware <$> WriteBackAware.start g.numSets counterMax

end AnyPolicy

end AssocCache
