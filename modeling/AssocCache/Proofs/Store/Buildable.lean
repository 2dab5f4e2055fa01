import AssocCache.Proofs.Config.Consistent
import AssocCache.Proofs.Store.WellFormed

/-!
# Which configurations can be built

A configuration that validation accepts describes a store around a new policy with the
settings of the configuration (`AnyPolicy.Configured`), and if memory is no limit such a
store is built, with one exception.  The saturation point that write-back aware replacement
has when none is set, four times the associativity, is worked out from the low 32 bits of
the associativity, in 32 bits, and whether or not one is set.

So the product overflows for associativities from `2 ^ 30` on, unless their low 32 bits are
below `2 ^ 30`; and then four times these bits is not four times the associativity
(`Store.built_iff_narrow`).
-/

namespace AssocCache

open Success

variable {c : Config} {g : Geometry} {n : Nat}

/-- A row of zeros, one for each of so many sets. -/
def Counters.Fresh (row : Counters) (count : Nat) : Prop :=
  row.count = count ∧ ∀ index < count, row.counterAt index = .ok 0

theorem Counters.exists_fresh {count : Nat} (h : Store.setBytes * count < 2 ^ 63) :
    ∃ row, zeros count = .ok row ∧ row.Fresh count := by
  have hbytes : entryBytes * count < 2 ^ 63 :=
    Nat.lt_of_le_of_lt (Nat.mul_le_mul_right count (by decide)) h
  have hzeros : zeros count = .ok ⟨count, ∅⟩ := zeros_eq_ok_iff.2 ⟨hbytes, rfl⟩
  exact ⟨_, hzeros, rfl, fun index hindex => counterAt_zeros hzeros hindex⟩

theorem start_of_zeros {count : Nat} {row : Counters} (h : Counters.zeros count = .ok row)
    (interval : Nat) : Intervals.start count interval = .ok ⟨interval, row⟩ :=
  bind_eq_ok_iff.2 ⟨row, h, rfl⟩

/-- The largest count that write-back aware replacement gives the sets of a store of some shape.
What it is without a setting goes by the low bits of the associativity. -/
def Config.counterMax (c : Config) (g : Geometry) : Nat :=
  (c.params.writeBackCounterMax.map UInt32.toNat).getD (4 * (g.associativity % 2 ^ 32))

namespace AnyPolicy

/-- A new policy, the one that a configuration names, with the settings it gives, for a store
of some shape. -/
def Configured (c : Config) (g : Geometry) (policy : AnyPolicy) : Prop :=
  let p := c.params
  match policy with
  | .lru policy => c.policy = .lru ∧ policy = {}
  | .lfu policy => c.policy = .lfu ∧ policy.maxCount = 2 ^ p.useCountBits.toNat - 1
  | .random policy => c.policy = .random ∧ policy = .start (ChaCha.generator p.seed)
  | .staticRrip policy => c.policy = .staticRrip ∧
      policy.max = 2 ^ p.predictionBits.toNat - 1 ∧
      policy.insertion = (p.staticInsertion.map UInt64.toNat).getD (policy.max - 1)
  | .dynamicRrip policy => c.policy = .dynamicRrip ∧
      policy.max = 2 ^ p.predictionBits.toNat - 1 ∧
      policy.selectorMax = 2 ^ p.selectorBits.toNat - 1 ∧
      policy.selector = (2 ^ p.selectorBits.toNat - 1) / 2 ∧
      policy.interval = p.bimodalInterval.toNat ∧ policy.bimodalFills = 0
  | .thrashResistant policy => c.policy = .thrashResistant ∧
      policy.intervals.interval = p.thrashInterval.toNat ∧
      policy.intervals.counters.Fresh g.numSets
  | .fullyAssociativeLru policy => c.policy = .fullyAssociativeLru ∧ policy = .start
  | .bimodal policy => c.policy = .bimodal ∧
      policy.interval = p.bimodalInterval.toNat ∧ policy.fills = 0
  | .typeAwareRrip policy => c.policy = .typeAwareRrip ∧
      policy.max = 2 ^ p.typeAwarePredictionBits.toNat - 1 ∧
      policy.dramHitStep = p.dramHitStep.toNat ∧
      policy.intervals.interval = p.typeAwareInterval.toNat ∧
      policy.intervals.counters.Fresh g.numSets
  | .writeBackAware policy => c.policy = .writeBackAware ∧
      policy.counterMax = (p.writeBackCounterMax.map UInt32.toNat).getD (4 * g.associativity) ∧
      policy.counters.Fresh g.numSets

/-! ## The policy of a configuration -/

/-- The policies without a preset are built as they are configured. -/
theorem exists_configured (hc : c.Consistent n) (hsize : Store.setBytes * n < 2 ^ 63)
    (hkind : c.policy ≠ .writeBackAware) :
    ∃ policy, ofConfig c (c.shape n) = .ok policy ∧ policy.Configured c (c.shape n) := by
  obtain ⟨row, hrow, hfresh⟩ := Counters.exists_fresh hsize
  have hsettings := hc.settings
  unfold Config.SettingsInRange at hsettings
  cases hpolicy : c.policy <;> simp only [hpolicy] at hsettings <;> simp only [ofConfig, hpolicy]
  case writeBackAware => exact absurd hpolicy hkind
  case lru => exact ⟨_, rfl, hpolicy, rfl⟩
  case random => exact ⟨_, rfl, hpolicy, rfl⟩
  case fullyAssociativeLru => exact ⟨_, rfl, hpolicy, rfl⟩
  case lfu =>
    refine ⟨_, rfl, hpolicy, ?_⟩
    show (if 64 ≤ c.params.useCountBits.toNat then _ else _) = _
    split
    · rw [show c.params.useCountBits.toNat = 64 by omega]
    · rfl
  case staticRrip =>
    obtain ⟨⟨hleast, hmost⟩, hinsertion⟩ := hsettings
    have hmax := Word.ones_eq_ok_iff.2 ⟨show c.params.predictionBits.toNat < 64 by omega, rfl⟩
    cases hgiven : c.params.staticInsertion with
    | none =>
      have hbuild : StaticRrip.build c.params.predictionBits.toNat none =
          .ok ⟨2 ^ c.params.predictionBits.toNat - 1, 2 ^ c.params.predictionBits.toNat - 1 - 1⟩ :=
        bind_eq_ok_iff.2 ⟨_, hmax, rfl⟩
      exact ⟨_, map_eq_ok_iff.2 ⟨_, hbuild, rfl⟩, hpolicy, rfl, by rw [hgiven]; rfl⟩
    | some prediction =>
      have hle := hinsertion prediction hgiven
      have hbuild : StaticRrip.build c.params.predictionBits.toNat (some prediction.toNat) =
          .ok ⟨2 ^ c.params.predictionBits.toNat - 1, prediction.toNat⟩ :=
        bind_eq_ok_iff.2 ⟨_, hmax, if_pos hle⟩
      exact ⟨_, map_eq_ok_iff.2 ⟨_, hbuild, rfl⟩, hpolicy, rfl, by rw [hgiven]; rfl⟩
  case dynamicRrip =>
    obtain ⟨⟨-, hbits⟩, ⟨-, hselector⟩, -, hinterval⟩ := hsettings
    have hmax := Word.ones_eq_ok_iff.2 ⟨show c.params.predictionBits.toNat < 64 by omega, rfl⟩
    have hselectorMax := Word.ones_eq_ok_iff.2 ⟨show c.params.selectorBits.toNat < 32 by omega, rfl⟩
    have hbuild : DynamicRrip.build c.params.predictionBits.toNat c.params.selectorBits.toNat
        c.params.bimodalInterval.toNat = .ok
          { max := 2 ^ c.params.predictionBits.toNat - 1
            selector := (2 ^ c.params.selectorBits.toNat - 1) / 2
            selectorMax := 2 ^ c.params.selectorBits.toNat - 1
            interval := Nat.max c.params.bimodalInterval.toNat 1
            bimodalFills := 0 } :=
      bind_eq_ok_iff.2 ⟨_, hselectorMax, bind_eq_ok_iff.2 ⟨_, hmax, rfl⟩⟩
    exact ⟨_, map_eq_ok_iff.2 ⟨_, hbuild, rfl⟩, hpolicy, rfl, rfl, rfl,
      Nat.max_eq_left hinterval, rfl⟩
  case thrashResistant =>
    have hbuild : ThrashResistant.start n c.params.thrashInterval.toNat =
        .ok ⟨c.params.thrashInterval.toNat, row⟩ :=
      bind_eq_ok_iff.2 ⟨_, start_of_zeros hrow _, rfl⟩
    exact ⟨_, map_eq_ok_iff.2 ⟨_, hbuild, rfl⟩, hpolicy, rfl, hfresh⟩
  case bimodal => exact ⟨_, rfl, hpolicy, Nat.max_eq_left hsettings, rfl⟩
  case typeAwareRrip =>
    have hmax := Word.ones_eq_ok_iff.2
      ⟨show c.params.typeAwarePredictionBits.toNat < 64 by omega, rfl⟩
    have hbuild : TypeAwareRrip.build n c.params.typeAwarePredictionBits.toNat
        c.params.typeAwareInterval.toNat c.params.dramHitStep.toNat = .ok
          { max := 2 ^ c.params.typeAwarePredictionBits.toNat - 1
            intervals := ⟨c.params.typeAwareInterval.toNat, row⟩
            dramHitStep := c.params.dramHitStep.toNat } :=
      bind_eq_ok_iff.2 ⟨_, hmax, bind_eq_ok_iff.2 ⟨_, start_of_zeros hrow _, rfl⟩⟩
    exact ⟨_, map_eq_ok_iff.2 ⟨_, hbuild, rfl⟩, hpolicy, rfl, rfl, rfl, hfresh⟩

/-- Write-back aware replacement is built around four times the low bits of the associativity,
if these are few. -/
theorem exists_writeBackAware (hsize : Store.setBytes * g.numSets < 2 ^ 63)
    (hkind : c.policy = .writeBackAware) (hsmall : g.associativity % 2 ^ 32 < 2 ^ 30) :
    ∃ policy : WriteBackAware, ofConfig c g = .ok (.writeBackAware policy) ∧
      policy.counterMax = c.counterMax g ∧ policy.counters.Fresh g.numSets := by
  obtain ⟨row, hrow, hfresh⟩ := Counters.exists_fresh hsize
  have hpreset : defaultCounterMax g.associativity = .ok (4 * (g.associativity % 2 ^ 32)) :=
    Word.mul_eq_ok_iff.2 ⟨by omega, rfl⟩
  refine ⟨⟨row, c.counterMax g⟩, ?_, rfl, hfresh⟩
  simp only [ofConfig, hkind]
  exact bind_eq_ok_iff.2 ⟨_, hpreset, map_eq_ok_iff.2 ⟨_, bind_eq_ok_iff.2 ⟨_, hrow, rfl⟩, rfl⟩⟩

/-- With more low bits the product is too large, even if it is not used. -/
theorem ofConfig_eq_error (hkind : c.policy = .writeBackAware)
    (hlarge : 2 ^ 30 ≤ g.associativity % 2 ^ 32) :
    ofConfig c g = .error (.overflow .multiply) := by
  have hpreset : defaultCounterMax g.associativity = .error (.overflow .multiply) :=
    if_neg (by omega)
  simp only [ofConfig, hkind, hpreset]
  rfl

theorem duelsSets_ofConfig {policy : AnyPolicy} (h : ofConfig c g = .ok policy) :
    Policy.duelsSets policy = decide (c.policy = .dynamicRrip) := by
  unfold ofConfig at h
  cases hkind : c.policy <;> simp only [hkind] at h
  case writeBackAware =>
    obtain ⟨preset, -, hmap⟩ := bind_eq_ok_iff.1 h
    obtain ⟨_, -, rfl⟩ := map_eq_ok_iff.1 hmap
    rfl
  case lru | lfu | random | fullyAssociativeLru | bimodal =>
    cases h
    rfl
  all_goals
    obtain ⟨_, -, rfl⟩ := map_eq_ok_iff.1 h
    rfl

end AnyPolicy

/-! ## The store of a configuration -/

namespace Store

/-- A policy that is built gets a store, if memory is no limit. -/
theorem exists_of_ofConfig {policy : AnyPolicy} (hc : c.Consistent n)
    (hmemory : checkSize (c.shape n) = .ok ())
    (hpolicy : AnyPolicy.ofConfig c (c.shape n) = .ok policy) :
    ∃ s, (ofConfig c).result = .ok s ∧ s.geometry = c.shape n ∧ s.policy = policy := by
  have hgeometry : c.geometry = .ok (c.shape n) := Config.geometry_eq_ok_iff.2 ⟨n, hc, rfl⟩
  have hlayout : ∃ sets, layout c (c.shape n) policy = .ok sets := by
    unfold layout
    rw [fullyAssociative_ofConfig hpolicy, hmemory]
    split
    · rename_i hfull
      have hsingle : (c.shape n).numSets = 1 := hc.single_set (of_decide_eq_true hfull)
      rw [if_pos hsingle]
      exact ⟨_, rfl⟩
    · have hstride : ∃ stride, leaderStride c policy = .ok stride := by
        unfold leaderStride
        rw [AnyPolicy.duelsSets_ofConfig hpolicy]
        split
        · rename_i hduels
          have hsettings := hc.settings
          unfold Config.SettingsInRange at hsettings
          simp only [of_decide_eq_true hduels] at hsettings
          exact ⟨_, if_neg (Nat.not_lt.2 hsettings.2.2.1)⟩
        · exact ⟨_, rfl⟩
      obtain ⟨stride, hstride⟩ := hstride
      rw [hstride]
      exact ⟨_, rfl⟩
  obtain ⟨sets, hsets⟩ := hlayout
  have hcreate : (create c policy).result = .ok _ :=
    create_eq_ok_iff.2 ⟨_, sets, hgeometry, hsets, rfl⟩
  exact ⟨_, (result_ofConfig hgeometry hpolicy).trans hcreate, rfl, rfl⟩

theorem result_ofConfig_of_fault {fault : Fault} (hgeometry : c.geometry = .ok g)
    (hpolicy : AnyPolicy.ofConfig c g = .error fault) :
    (ofConfig c).result = .error (.aborted fault) := by
  rw [ofConfig, hgeometry]
  dsimp only
  rw [hpolicy]
  rfl

/-- The associativity is small enough for four times as much to be worked out, or it is not
and four times as much is not needed. -/
def Narrow (c : Config) (g : Geometry) : Prop :=
  g.associativity < 2 ^ 30 ∨
    g.associativity % 2 ^ 32 < 2 ^ 30 ∧ c.params.writeBackCounterMax.isSome = true

/-- Four times the low bits of the associativity is four times the associativity where this is
small. -/
theorem configured_iff_narrow {policy : WriteBackAware} (hkind : c.policy = .writeBackAware)
    (hsmall : g.associativity % 2 ^ 32 < 2 ^ 30) (hfresh : policy.counters.Fresh g.numSets)
    (hmax : policy.counterMax = c.counterMax g) :
    (AnyPolicy.writeBackAware policy).Configured c g ↔ Narrow c g := by
  have hconfigured : (AnyPolicy.writeBackAware policy).Configured c g ↔
      policy.counterMax = (c.params.writeBackCounterMax.map UInt32.toNat).getD
        (4 * g.associativity) :=
    ⟨fun h => h.2.1, fun h => ⟨hkind, h, hfresh⟩⟩
  rw [hconfigured, hmax, Narrow, Config.counterMax]
  cases c.params.writeBackCounterMax with
  | none =>
    simp only [Option.map_none, Option.getD_none, Option.isSome_none, Bool.false_eq_true, and_false,
      or_false]
    omega
  | some max => exact ⟨fun _ => .inr ⟨hsmall, rfl⟩, fun _ => rfl⟩

/-- A configuration that validation accepts is built as it is configured if memory is no
limit, except that write-back aware replacement has to be narrow.  Nothing but the overflow of
its preset keeps it from being built. -/
theorem built_iff_narrow (hgeometry : c.geometry = .ok g) (hmemory : checkSize g = .ok ()) :
    ((∃ s, (ofConfig c).result = .ok s ∧ s.geometry = g ∧ s.policy.Configured c g) ↔
      (c.policy = .writeBackAware → Narrow c g)) ∧
    (∀ failure, (ofConfig c).result = .error failure ↔
      failure = .aborted (.overflow .multiply) ∧ c.policy = .writeBackAware ∧
        2 ^ 30 ≤ g.associativity % 2 ^ 32) := by
  obtain ⟨n, hc, rfl⟩ := Config.geometry_eq_ok_iff.1 hgeometry
  have hsize := (checkSize_eq_ok_iff.1 hmemory).1
  by_cases hkind : c.policy = .writeBackAware
  · by_cases hlarge : 2 ^ 30 ≤ (c.shape n).associativity % 2 ^ 32
    · have hresult :=
        result_ofConfig_of_fault hgeometry (AnyPolicy.ofConfig_eq_error hkind hlarge)
      rw [hresult]
      refine ⟨iff_of_false (by simp) fun hnarrow => ?_, fun failure => ?_⟩
      · rcases hnarrow hkind with hsmall | ⟨hsmall, -⟩ <;> omega
      · rw [Except.error.injEq, eq_comm]
        exact ⟨fun hfault => ⟨hfault, hkind, hlarge⟩, fun h => h.1⟩
    · obtain ⟨policy, hpolicy, hmax, hfresh⟩ :=
        AnyPolicy.exists_writeBackAware hsize hkind (Nat.not_le.1 hlarge)
      obtain ⟨s, hs, hshape, hsame⟩ := exists_of_ofConfig hc hmemory hpolicy
      have hnarrow := configured_iff_narrow hkind (Nat.not_le.1 hlarge) hfresh hmax
      rw [hs]
      refine ⟨?_, fun failure => iff_of_false nofun fun h => hlarge h.2.2⟩
      simp [hkind, hshape, hsame, hnarrow]
  · obtain ⟨policy, hpolicy, hconfigured⟩ := AnyPolicy.exists_configured hc hsize hkind
    obtain ⟨s, hs, hshape, rfl⟩ := exists_of_ofConfig hc hmemory hpolicy
    rw [hs]
    exact ⟨iff_of_true ⟨s, rfl, hshape, hconfigured⟩ fun h => absurd h hkind,
      fun failure => by simp [hkind]⟩

/-- A single set of `2 ^ 32` ways, whose low bits are all zero: write-back aware replacement
is built, but its counters saturate at zero. -/
theorem built_iff_narrow_of_wide :
    ∃ g, (Config.ofShape .writeBackAware 4294967296 1 4294967296).geometry = .ok g ∧
      checkSize g = .ok () ∧
      (¬ ∃ s, (ofConfig (.ofShape .writeBackAware 4294967296 1 4294967296)).result = .ok s ∧
        s.geometry = g ∧ s.policy.Configured (.ofShape .writeBackAware 4294967296 1 4294967296) g) ∧
      ∀ failure, (ofConfig (.ofShape .writeBackAware 4294967296 1 4294967296)).result ≠
        .error failure := by
  have hconsistent : (Config.ofShape .writeBackAware 4294967296 1 4294967296).Consistent 1 := by
    constructor
    case blockSize_power => exact ⟨0, rfl⟩
    case sets_power => exact ⟨0, rfl⟩
    case settings => trivial
    all_goals decide
  have hgeometry := Config.geometry_eq_ok_iff.2 ⟨1, hconsistent, rfl⟩
  have hmemory : checkSize
      ((Config.ofShape .writeBackAware 4294967296 1 4294967296).shape 1) = .ok () := by decide
  obtain ⟨hbuilt, hfails⟩ := built_iff_narrow hgeometry hmemory
  refine ⟨_, hgeometry, hmemory, fun h => ?_, fun failure h => ?_⟩
  · exact absurd (hbuilt.1 h rfl) (by rw [Narrow]; decide)
  · exact absurd ((hfails failure).1 h).2.2 (by decide)

/-- A single set of `2 ^ 30` ways, and a saturation point that is set: the preset is not needed
and overflows. -/
theorem not_built_wide :
    let c : Config := { Config.ofShape .writeBackAware 1073741824 1 1073741824 with
      params := { writeBackCounterMax := some 4 } }
    ∃ g, c.geometry = .ok g ∧ checkSize g = .ok () ∧
      (ofConfig c).result = .error (.aborted (.overflow .multiply)) := by
  intro c
  have hconsistent : c.Consistent 1 := by
    constructor
    case blockSize_power => exact ⟨0, rfl⟩
    case sets_power => exact ⟨0, rfl⟩
    case settings => trivial
    all_goals decide
  have hgeometry := Config.geometry_eq_ok_iff.2 ⟨1, hconsistent, rfl⟩
  have hpolicy := AnyPolicy.ofConfig_eq_error (c := c) (g := c.shape 1) rfl (by decide)
  exact ⟨_, hgeometry, by decide, result_ofConfig_of_fault hgeometry hpolicy⟩

end Store

end AssocCache
