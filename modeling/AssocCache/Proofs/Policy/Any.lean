import AssocCache.Proofs.Policy.Stacking
import AssocCache.Proofs.Store.WellFormed

/-!
# Every policy of a configuration is dependable

`AnyPolicy` does what the value inside does, so it is dependable because the ten
policies are.  A policy that was just built fits the sets of a new store, with
room for any number of touches that a 32-bit counter can count
(`AnyPolicy.fits_fresh`).
-/

namespace AssocCache

open Success CacheSet

namespace AnyPolicy

instance : (policy : AnyPolicy) → Policy.Dependable policy.opened.π
  | .lru _ => inferInstanceAs (Policy.Dependable Lru)
  | .lfu _ => inferInstanceAs (Policy.Dependable Lfu)
  | .random _ => inferInstanceAs (Policy.Dependable RandomChoice)
  | .staticRrip _ => inferInstanceAs (Policy.Dependable StaticRrip)
  | .dynamicRrip _ => inferInstanceAs (Policy.Dependable DynamicRrip)
  | .thrashResistant _ => inferInstanceAs (Policy.Dependable ThrashResistant)
  | .fullyAssociativeLru _ => inferInstanceAs (Policy.Dependable FullyAssociativeLru)
  | .bimodal _ => inferInstanceAs (Policy.Dependable Bimodal)
  | .typeAwareRrip _ => inferInstanceAs (Policy.Dependable TypeAwareRrip)
  | .writeBackAware _ => inferInstanceAs (Policy.Dependable WriteBackAware)

/-- What the value inside needs of a set. -/
def Fits (room : Nat) (policy : AnyPolicy) (set : CacheSet) : Prop :=
  Policy.Dependable.Fits room policy.opened.value set

/-- A value that is wrapped as another one was is found inside again. -/
theorem fits_close (room : Nat) (policy : AnyPolicy) (value : policy.opened.π) :
    Fits room (policy.opened.close value) = Policy.Dependable.Fits room value := by
  cases policy <;> rfl

theorem onInsert_close (policy : AnyPolicy) (value : policy.opened.π) (set : CacheSet) (way : Nat)
    (access : AccessKind) :
    Policy.onInsert (policy.opened.close value) set way access =
      policy.rewrap (Policy.onInsert value set way access) := by
  cases policy <;> rfl

instance : Policy.Dependable AnyPolicy where
  Fits := Fits
  weaken h := Policy.Dependable.weaken h
  chooseVictim {room policy f index set} hset hpos hfull hfits := by
    obtain ⟨way, value, set', hchoice, hlt, hfitting⟩ :=
      Policy.Dependable.chooseVictim hset hpos hfull hfits
    refine ⟨way, policy.opened.close value, set', map_eq_ok_iff.2 ⟨_, hchoice, rfl⟩, hlt, ?_⟩
    rw [fits_close]
    exact hfitting
  onHit {room policy f index way set block} access hset hb hv hfits := by
    obtain ⟨value, set', hhook, hfitting⟩ := Policy.Dependable.onHit access hset hb hv hfits
    refine ⟨policy.opened.close value, set', map_eq_ok_iff.2 ⟨_, hhook, rfl⟩, ?_⟩
    rw [fits_close]
    exact hfitting
  onFill {room policy f index way set block} tag kind access hset hb hv hfits := by
    obtain ⟨told, filled, value, set', hfill, hinsert, hfitting⟩ :=
      Policy.Dependable.onFill tag kind access hset hb hv hfits
    refine ⟨policy.opened.close told, filled, policy.opened.close value, set',
      map_eq_ok_iff.2 ⟨_, hfill, rfl⟩, ?_, ?_⟩
    · rw [onInsert_close]
      exact map_eq_ok_iff.2 ⟨_, hinsert, rfl⟩
    · rw [fits_close]
      exact hfitting
  onInvalidate {room policy f index way set block} hset hb hv hfits := by
    obtain ⟨value, told, hhook, hfitting⟩ := Policy.Dependable.onInvalidate hset hb hv hfits
    refine ⟨policy.opened.close value, told, map_eq_ok_iff.2 ⟨_, hhook, rfl⟩, fun block' hb' => ?_⟩
    rw [fits_close]
    exact hfitting block' hb'

/-! ## New policies -/

variable {c : Config} {g : Geometry} {policy : AnyPolicy} {index : Nat} {set : CacheSet}

/-- A set whose blocks were never touched. -/
def Untouched (set : CacheSet) : Prop :=
  ∀ block ∈ set.blocks, block.valid = false ∧ block.word = 0

theorem untouched_scanned (index associativity : Nat) (role : DuelRole) :
    Untouched (.scanned index associativity role) := by
  intro block hblock
  obtain ⟨way, -, rfl⟩ := List.mem_map.1 hblock
  exact ⟨rfl, rfl⟩

theorem untouched_indexed (index associativity : Nat) :
    Untouched (.indexed index associativity) :=
  untouched_scanned index associativity .follower

theorem bounded_of_untouched (h : Untouched set) (max : Nat) : Prediction.Bounded max set := by
  intro block hblock
  rw [(h block hblock).2]
  exact Nat.zero_le _

/-- Predictions of some bits leave room for a step of ageing. -/
theorem max_lt_of_maxOfBits {bits max : Nat} (h : Prediction.maxOfBits bits = .ok max) :
    max + 1 < 2 ^ 64 := by
  obtain ⟨hbits, rfl⟩ := Word.ones_eq_ok_iff.1 h
  have hpower : 2 ^ bits < 2 ^ 64 := Nat.pow_lt_pow_right (by decide) hbits
  have hpos : 0 < 2 ^ bits := Nat.two_pow_pos bits
  omega

theorem count_of_start {numSets interval : Nat} {i : Intervals}
    (h : Intervals.start numSets interval = .ok i) : i.counters.count = numSets := by
  obtain ⟨row, hrow, hpure⟩ := bind_eq_ok_iff.1 h
  obtain ⟨-, rfl⟩ := Counters.zeros_eq_ok_iff.1 hrow
  cases hpure
  rfl

theorem staticRrip_of_build {bits : Nat} {insertion : Option Nat} {built : StaticRrip}
    (h : StaticRrip.build bits insertion = .ok built) (huntouched : Untouched set) :
    built.Fits set := by
  obtain ⟨max, hmax, h⟩ := bind_eq_ok_iff.1 h
  have hlt := max_lt_of_maxOfBits hmax
  cases insertion with
  | none =>
    cases h
    exact ⟨hlt, Nat.sub_le _ _, bounded_of_untouched huntouched _⟩
  | some prediction =>
    dsimp only at h
    split at h
    · rename_i hle
      cases h
      exact ⟨hlt, hle, bounded_of_untouched huntouched _⟩
    · cases h

theorem dynamicRrip_of_build {bits selectorBits interval : Nat} {built : DynamicRrip}
    (h : DynamicRrip.build bits selectorBits interval = .ok built) (hinterval : interval < 2 ^ 32) :
    built.Sound := by
  obtain ⟨selectorMax, hselector, h⟩ := bind_eq_ok_iff.1 h
  obtain ⟨max, hmax, hpure⟩ := bind_eq_ok_iff.1 h
  obtain ⟨hbits, rfl⟩ := Word.ones_eq_ok_iff.1 hselector
  cases hpure
  have hpower : 2 ^ selectorBits < 2 ^ 32 := Nat.pow_lt_pow_right (by decide) hbits
  have hpos : 0 < 2 ^ selectorBits := Nat.two_pow_pos selectorBits
  have hselectorMax : 2 ^ selectorBits - 1 + 1 < 2 ^ 32 := by omega
  have hmiddle : (2 ^ selectorBits - 1) / 2 ≤ 2 ^ selectorBits - 1 := Nat.div_le_self _ _
  have hfills : 0 < Nat.max interval 1 := Nat.lt_of_lt_of_le Nat.one_pos (Nat.le_max_right _ _)
  exact ⟨max_lt_of_maxOfBits hmax, hmiddle, hselectorMax, hfills, Nat.max_lt.2 ⟨hinterval, by decide⟩⟩

theorem bimodal_of_start {interval : Nat} (hinterval : interval < 2 ^ 32) :
    (Bimodal.start interval).Sound := by
  have hfills : 0 < Nat.max interval 1 := Nat.lt_of_lt_of_le Nat.one_pos (Nat.le_max_right _ _)
  exact ⟨hfills, Nat.max_lt.2 ⟨hinterval, by decide⟩⟩

theorem fullyAssociativeLru_of_start {room : Nat} (hroom : room < 2 ^ 32) (hindex : set.index = 0)
    (h : Untouched set) : FullyAssociativeLru.start.Fits room set := by
  have hclock : 1 + room < 2 ^ 64 := by omega
  refine ⟨hindex, Nat.one_pos, hclock, ?_, ?_, ?_⟩
  · intro way block hb
    rw [(h block (List.mem_of_getElem? hb)).2]
    exact Nat.one_pos
  · intro way block hb
    rw [(h block (List.mem_of_getElem? hb)).1]
    exact Std.TreeMap.getElem?_emptyc
  · intro time way htime
    have hnone : FullyAssociativeLru.start.recency[time]? = none := Std.TreeMap.getElem?_emptyc
    rw [hnone] at htime
    cases htime

/-- A new policy fits the sets that are made for it. -/
theorem fits_fresh {room : Nat} {random : UInt64 → Random.Generator}
    (h : AnyPolicy.ofConfig c g random = .ok policy) (hroom : room < 2 ^ 32)
    (huntouched : Untouched set) (hindex : set.index < g.numSets)
    (hsingle : Policy.fullyAssociative policy = true → set.index = 0) :
    Policy.Dependable.Fits room policy set := by
  unfold AnyPolicy.ofConfig at h
  cases hkind : c.policy <;> simp only [hkind] at h
  case lru =>
    cases h
    show 1 + room < 2 ^ 64
    omega
  case lfu | random =>
    cases h
    trivial
  case fullyAssociativeLru =>
    cases h
    exact fullyAssociativeLru_of_start hroom (hsingle rfl) huntouched
  case bimodal =>
    cases h
    exact bimodal_of_start (UInt32.toNat_lt _)
  case staticRrip =>
    obtain ⟨built, hbuilt, rfl⟩ := map_eq_ok_iff.1 h
    exact staticRrip_of_build hbuilt huntouched
  case dynamicRrip =>
    obtain ⟨built, hbuilt, rfl⟩ := map_eq_ok_iff.1 h
    exact ⟨dynamicRrip_of_build hbuilt (UInt32.toNat_lt _), bounded_of_untouched huntouched _⟩
  case thrashResistant =>
    obtain ⟨built, hbuilt, rfl⟩ := map_eq_ok_iff.1 h
    obtain ⟨intervals, hstart, hpure⟩ := bind_eq_ok_iff.1 hbuilt
    cases hpure
    show set.index < intervals.counters.count
    rw [count_of_start hstart]
    exact hindex
  case typeAwareRrip =>
    obtain ⟨built, hbuilt, rfl⟩ := map_eq_ok_iff.1 h
    obtain ⟨max, hmax, hbuilt⟩ := bind_eq_ok_iff.1 hbuilt
    obtain ⟨intervals, hstart, hpure⟩ := bind_eq_ok_iff.1 hbuilt
    cases hpure
    refine ⟨max_lt_of_maxOfBits hmax, ?_, bounded_of_untouched huntouched _⟩
    show set.index < intervals.counters.count
    rw [count_of_start hstart]
    exact hindex
  case writeBackAware =>
    obtain ⟨preset, -, hmap⟩ := bind_eq_ok_iff.1 h
    obtain ⟨built, hbuilt, rfl⟩ := map_eq_ok_iff.1 hmap
    obtain ⟨row, hrow, hpure⟩ := bind_eq_ok_iff.1 hbuilt
    cases hpure
    exact ⟨0, Counters.counterAt_zeros hrow hindex, by omega⟩

end AnyPolicy

end AssocCache
