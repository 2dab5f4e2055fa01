import AssocCache.Config.Validation
import Mathlib.Data.Nat.Bitwise

/-!
# Consistent configurations

`Config.Consistent` says in numbers what a configuration has to be, without the order in
which validation looks at it: the capacity is that of a power of two of sets, the offset
and index bits fit into an address, and the settings of the policy are in range.
Validation accepts these configurations and no others (`Config.geometry_eq_ok_iff`).

Validation works on words.  `Config.validate` is `Config.geometry` with every sum,
product, quotient and shift as a word operation that may fault, and none of them does
(`Config.validate_eq`): a product is only taken after it was found to fit, and the divisor
is never zero since the block size and the associativity were looked at before.
-/

namespace AssocCache

/-- The quotient, unless it is by zero. -/
def Word.div (a b : Nat) : Except Fault Nat :=
  if b = 0 then .error .zeroDivisor else .ok (a / b)

theorem Word.div_of_pos {a b : Nat} (hb : 0 < b) : Word.div a b = .ok (a / b) :=
  if_neg hb.ne'

/-- A word has 64 bits. -/
theorem Word.log2_lt {n : Nat} (hn : n < 2 ^ 64) : n.log2 < 64 := by
  rcases Nat.eq_zero_or_pos n with rfl | hpos
  · decide
  · exact (Nat.log2_lt hpos.ne').2 hn

namespace Config

variable {c : Config} {g : Geometry} {n : Nat}

/-! ## What validation accepts -/

/-- The settings that the policy reads are in range. -/
def SettingsInRange (c : Config) : Prop :=
  let p := c.params
  match c.policy with
  | .lfu => 1 ≤ p.useCountBits.toNat ∧ p.useCountBits.toNat ≤ 64
  | .staticRrip => (1 ≤ p.predictionBits.toNat ∧ p.predictionBits.toNat ≤ 8) ∧
      ∀ prediction ∈ p.staticInsertion, prediction.toNat ≤ 2 ^ p.predictionBits.toNat - 1
  | .dynamicRrip => (1 ≤ p.predictionBits.toNat ∧ p.predictionBits.toNat ≤ 8) ∧
      (1 ≤ p.selectorBits.toNat ∧ p.selectorBits.toNat ≤ 16) ∧
      2 ≤ p.leaderStride.toNat ∧ 1 ≤ p.bimodalInterval.toNat
  | .bimodal => 1 ≤ p.bimodalInterval.toNat
  | .typeAwareRrip => 1 ≤ p.typeAwarePredictionBits.toNat ∧ p.typeAwarePredictionBits.toNat ≤ 8
  | .lru | .random | .thrashResistant | .fullyAssociativeLru | .writeBackAware => True

/-- The configuration is that of a store with `n` sets. -/
structure Consistent (c : Config) (n : Nat) : Prop where
  capacity_pos : 0 < c.capacity.toNat
  associativity_pos : 1 ≤ c.associativity.toNat
  blockSize_power : ∃ k, c.blockSize.toNat = 2 ^ k
  sets_power : ∃ k, n = 2 ^ k
  sets_eq : n * c.blockSize.toNat * c.associativity.toNat = c.capacity.toNat
  single_set : c.policy = .fullyAssociativeLru → n = 1
  addressBits_pos : 1 ≤ c.addressBits.toNat
  addressBits_le : c.addressBits.toNat ≤ 64
  bits_le : c.blockSize.toNat.log2 + n.log2 ≤ c.addressBits.toNat
  settings : c.SettingsInRange

/-- The shape of a store with `n` sets. -/
def shape (c : Config) (n : Nat) : Geometry where
  capacity := c.capacity.toNat
  blockSize := c.blockSize.toNat
  associativity := c.associativity.toNat
  numSets := n
  offsetBits := c.blockSize.toNat.log2
  indexBits := n.log2
  addressBits := c.addressBits.toNat
  hitLatency := c.hitLatency.toNat

theorem reject_eq_none_iff {param : String} {value low : Nat} {high : Option Nat} :
    reject param value low high = none ↔ low ≤ value ∧ ∀ h ∈ high, value ≤ h := by
  unfold reject
  split <;> simp_all

/-- No setting is reported if they are all in range. -/
theorem badParam?_eq_none_iff : c.badParam? = none ↔ c.SettingsInRange := by
  unfold badParam? SettingsInRange
  cases c.policy <;> simp [Option.bind_eq_none_iff, reject_eq_none_iff]

theorem Consistent.setBytes_pos (h : c.Consistent n) :
    0 < c.blockSize.toNat * c.associativity.toNat := by
  obtain ⟨k, hblock⟩ := h.blockSize_power
  exact Nat.mul_pos (hblock ▸ Nat.two_pow_pos k) h.associativity_pos

/-- The number of sets is that of the capacity. -/
theorem Consistent.sets_eq_div (h : c.Consistent n) :
    n = c.capacity.toNat / (c.blockSize.toNat * c.associativity.toNat) := by
  rw [← h.sets_eq, Nat.mul_assoc, Nat.mul_div_cancel _ h.setBytes_pos]

/-- Validation accepts the consistent configurations, and derives their shape. -/
theorem geometry_eq_ok_iff : c.geometry = .ok g ↔ ∃ n, c.Consistent n ∧ g = c.shape n := by
  constructor
  · intro h
    unfold geometry at h
    dsimp only at h
    split_ifs at h with hcapacity hways hblock hdivides hsets hwide hbits hneeded
    split at h
    · cases h
    · rename_i hparams
      rw [not_or, Nat.not_le, not_not] at hdivides
      refine ⟨_, ?_, (Except.ok.inj h).symm⟩
      constructor
      case capacity_pos => exact Nat.pos_of_ne_zero hcapacity
      case associativity_pos => exact Nat.pos_of_ne_zero hways
      case blockSize_power => exact isPowerOfTwo_iff.1 hblock
      case sets_power => exact isPowerOfTwo_iff.1 hsets
      case sets_eq =>
        rw [Nat.mul_assoc]
        exact Nat.div_mul_cancel (Nat.dvd_of_mod_eq_zero hdivides.2)
      case single_set =>
        intro hpolicy
        by_contra hmany
        exact hwide ⟨hpolicy, hmany⟩
      case addressBits_pos => omega
      case addressBits_le => omega
      case bits_le => exact Nat.le_of_not_lt hneeded
      case settings => exact badParam?_eq_none_iff.1 hparams
  · rintro ⟨n, h, rfl⟩
    have hsets := h.sets_eq_div
    have hfits : c.blockSize.toNat * c.associativity.toNat < 2 ^ 64 := by
      obtain ⟨k, hpower⟩ := h.sets_power
      refine Nat.lt_of_le_of_lt ?_ c.capacity.toNat_lt
      rw [← h.sets_eq, Nat.mul_assoc]
      exact Nat.le_mul_of_pos_left _ (hpower ▸ Nat.two_pow_pos k)
    have hdivides : c.capacity.toNat % (c.blockSize.toNat * c.associativity.toNat) = 0 := by
      rw [← h.sets_eq, Nat.mul_assoc]
      exact Nat.mul_mod_left _ _
    have hbits : ¬ (c.addressBits.toNat = 0 ∨ 64 < c.addressBits.toNat) := by
      have hlow := h.addressBits_pos
      have hhigh := h.addressBits_le
      omega
    unfold geometry
    dsimp only
    rw [← hsets, badParam?_eq_none_iff.2 h.settings, if_neg h.capacity_pos.ne',
      if_neg (Nat.ne_of_gt h.associativity_pos),
      if_neg (not_not.2 (isPowerOfTwo_iff.2 h.blockSize_power)), if_neg (by omega),
      if_neg (not_not.2 (isPowerOfTwo_iff.2 h.sets_power)),
      if_neg fun hmany => hmany.2 (h.single_set hmany.1), if_neg hbits,
      if_neg (Nat.not_lt.2 h.bits_le)]
    rfl

/-! ## Validation on words -/

/-- The first setting of the chosen policy that is out of range, with its value.  The
checks that policies share come in a fixed order, and the shift is only made for a width
that was checked before. -/
def validateParams (c : Config) : Except Fault (Option (String × Nat)) :=
  let p := c.params
  if c.policy = .lfu ∧ ¬ (1 ≤ p.useCountBits.toNat ∧ p.useCountBits.toNat ≤ 64) then
    .ok (some ("lfu_counter_bits", p.useCountBits.toNat))
  else if (c.policy = .staticRrip ∨ c.policy = .dynamicRrip) ∧
      ¬ (1 ≤ p.predictionBits.toNat ∧ p.predictionBits.toNat ≤ 8) then
    .ok (some ("rrpv_bits", p.predictionBits.toNat))
  else if c.policy = .staticRrip then
    match p.staticInsertion with
    | none => .ok none
    | some prediction => do
      let limit ← Word.ones 64 p.predictionBits.toNat
      pure (if limit < prediction.toNat then some ("srrip_insertion", prediction.toNat) else none)
  else if c.policy = .dynamicRrip ∧ ¬ (1 ≤ p.selectorBits.toNat ∧ p.selectorBits.toNat ≤ 16) then
    .ok (some ("psel_bits", p.selectorBits.toNat))
  else if c.policy = .dynamicRrip ∧ p.leaderStride.toNat < 2 then
    .ok (some ("leader_set_stride", p.leaderStride.toNat))
  else if (c.policy = .dynamicRrip ∨ c.policy = .bimodal) ∧ p.bimodalInterval.toNat = 0 then
    .ok (some ("bimodal_interval", p.bimodalInterval.toNat))
  else if c.policy = .typeAwareRrip ∧
      ¬ (1 ≤ p.typeAwarePredictionBits.toNat ∧ p.typeAwarePredictionBits.toNat ≤ 8) then
    .ok (some ("trrip_rrpv_bits", p.typeAwarePredictionBits.toNat))
  else .ok none

/-- Whether the capacity is a multiple of the bytes of a set.  It is not if these are
more than a word counts. -/
def divides (c : Config) : Except Fault Bool :=
  match Word.mul 64 c.blockSize.toNat c.associativity.toNat with
  | .error _ => .ok false
  | .ok setBytes => do pure (decide ((← Word.remainder c.capacity.toNat setBytes) = 0))

/-- The shape of the store, or why there is none, with every operation on words. -/
def validate (c : Config) : Except Fault (Except ConfigError Geometry) :=
  let capacity := c.capacity.toNat
  let blockSize := c.blockSize.toNat
  let associativity := c.associativity.toNat
  if capacity = 0 then .ok (.error (.zeroCapacity c.name))
  else if associativity = 0 then .ok (.error (.zeroAssociativity c.name))
  else if ¬ IsPowerOfTwo blockSize then
    .ok (.error (.blockSizeNotPowerOfTwo c.name blockSize))
  else do
    if !(← c.divides) then
      return .error (.capacityNotDivisible c.name capacity blockSize associativity)
    let numSets ← Word.div capacity (← Word.mul 64 blockSize associativity)
    if ¬ IsPowerOfTwo numSets then return .error (.setsNotPowerOfTwo c.name numSets)
    if c.policy = .fullyAssociativeLru ∧ numSets ≠ 1 then
      return .error (.notFullyAssociative c.name associativity (← Word.div capacity blockSize))
    if c.addressBits.toNat = 0 ∨ 64 < c.addressBits.toNat then
      return .error (.parameterOutOfRange c.name "address_bits" c.addressBits.toNat)
    let needed ← Word.add 32 blockSize.log2 numSets.log2
    if c.addressBits.toNat < needed then
      return .error (.addressSpaceTooSmall c.name c.addressBits.toNat needed)
    match ← c.validateParams with
    | some (param, value) => return .error (.parameterOutOfRange c.name param value)
    | none => return .ok (c.shape numSets)

theorem reject_between (param : String) (value low high : Nat) :
    reject param value low (some high) =
      if low ≤ value ∧ value ≤ high then none else some (param, value) := by
  simp [reject]

theorem reject_below (param : String) (value low : Nat) :
    reject param value low none = if value < low then some (param, value) else none := by
  unfold reject
  split_ifs with hin hbelow hbelow
  · omega
  · rfl
  · rfl
  · exact absurd ⟨Nat.le_of_not_lt hbelow, by simp⟩ hin

/-- The checks that a policy takes part in are its own, and in the same order. -/
theorem validateParams_eq (c : Config) : c.validateParams = .ok c.badParam? := by
  unfold validateParams badParam?
  simp only [reject_between, reject_below]
  cases c.policy
  case lfu =>
    by_cases hbits : 1 ≤ c.params.useCountBits.toNat ∧ c.params.useCountBits.toNat ≤ 64 <;>
      simp [hbits]
  case staticRrip =>
    by_cases hbits : 1 ≤ c.params.predictionBits.toNat ∧ c.params.predictionBits.toNat ≤ 8
    · have hlimit := Word.ones_eq_ok_iff.2
        ⟨show c.params.predictionBits.toNat < 64 by omega, rfl⟩
      rcases c.params.staticInsertion with _ | prediction
      · simp [hbits]
      · by_cases hover : 2 ^ c.params.predictionBits.toNat - 1 < prediction.toNat
        · simp [hbits, hlimit, hover, Nat.not_le.2 hover]
        · simp [hbits, hlimit, hover, Nat.le_of_not_lt hover]
    · simp [hbits]
  case dynamicRrip =>
    by_cases hbits : 1 ≤ c.params.predictionBits.toNat ∧ c.params.predictionBits.toNat ≤ 8
    · by_cases hselector : 1 ≤ c.params.selectorBits.toNat ∧ c.params.selectorBits.toNat ≤ 16
      · by_cases hstride : c.params.leaderStride.toNat < 2
        · simp [hbits, hselector, hstride]
        · by_cases hinterval : c.params.bimodalInterval.toNat = 0 <;>
            simp [hbits, hselector, hstride, hinterval]
      · simp [hbits, hselector]
    · simp [hbits]
  case bimodal =>
    by_cases hinterval : c.params.bimodalInterval.toNat = 0 <;> simp [hinterval]
  case typeAwareRrip =>
    by_cases hbits : 1 ≤ c.params.typeAwarePredictionBits.toNat ∧
        c.params.typeAwarePredictionBits.toNat ≤ 8 <;>
      simp [hbits]
  all_goals simp

/-- The overflow of the product is the case of a set that is larger than any capacity. -/
theorem divides_eq (hpos : 0 < c.blockSize.toNat * c.associativity.toNat) :
    c.divides = .ok (decide (c.blockSize.toNat * c.associativity.toNat < 2 ^ 64 ∧
      c.capacity.toNat % (c.blockSize.toNat * c.associativity.toNat) = 0)) := by
  unfold divides Word.mul
  by_cases hfits : c.blockSize.toNat * c.associativity.toNat < 2 ^ 64
  · rw [if_pos hfits]
    simp only [Word.remainder, if_neg hpos.ne', hfits, true_and]
    rfl
  · rw [if_neg hfits]
    simp only [hfits, false_and, decide_false]

/-- Validation never faults, and finds what it finds on numbers. -/
theorem validate_eq (c : Config) : c.validate = .ok c.geometry := by
  unfold validate geometry
  dsimp only
  by_cases hcapacity : c.capacity.toNat = 0
  · rw [if_pos hcapacity, if_pos hcapacity]
  rw [if_neg hcapacity, if_neg hcapacity]
  by_cases hways : c.associativity.toNat = 0
  · rw [if_pos hways, if_pos hways]
  rw [if_neg hways, if_neg hways]
  by_cases hblock : ¬ IsPowerOfTwo c.blockSize.toNat
  · rw [if_pos hblock, if_pos hblock]
  rw [if_neg hblock, if_neg hblock]
  have hblockSize : 0 < c.blockSize.toNat := by
    obtain ⟨k, hpower⟩ := isPowerOfTwo_iff.1 (not_not.1 hblock)
    exact hpower ▸ Nat.two_pow_pos k
  have hpos := Nat.mul_pos hblockSize (Nat.pos_of_ne_zero hways)
  rw [divides_eq hpos]
  generalize hbytes : c.blockSize.toNat * c.associativity.toNat = setBytes at hpos ⊢
  by_cases hdivides : 2 ^ 64 ≤ setBytes ∨ c.capacity.toNat % setBytes ≠ 0
  · rw [if_pos hdivides, decide_eq_false (by omega)]
    rfl
  rw [if_neg hdivides, decide_eq_true (by omega)]
  have hmul : Word.mul 64 c.blockSize.toNat c.associativity.toNat = .ok setBytes :=
    Word.mul_eq_ok_iff.2 ⟨by omega, hbytes.symm⟩
  have hshare := Word.div_of_pos (a := c.capacity.toNat) hpos
  have hword : c.capacity.toNat / setBytes < 2 ^ 64 :=
    Nat.lt_of_le_of_lt (Nat.div_le_self _ _) c.capacity.toNat_lt
  generalize c.capacity.toNat / setBytes = numSets at hshare hword ⊢
  have hneeded : Word.add 32 c.blockSize.toNat.log2 numSets.log2 =
      .ok (c.blockSize.toNat.log2 + numSets.log2) := by
    have hoffset := Word.log2_lt c.blockSize.toNat_lt
    have hindex := Word.log2_lt hword
    exact Word.add_eq_ok_iff.2 ⟨by omega, rfl⟩
  -- Every operation has its result, so both sides make the same choices.
  simp only [bind, Except.bind, pure, Except.pure, Bool.not_true, Bool.false_eq_true, if_false,
    hmul, hshare, Word.div_of_pos hblockSize, hneeded, validateParams_eq]
  split_ifs
  any_goals rfl
  cases c.badParam? <;> rfl

/-! ## The shape of a consistent configuration -/

theorem Consistent.pow_offsetBits (h : c.Consistent n) :
    2 ^ (c.shape n).offsetBits = c.blockSize.toNat :=
  isPowerOfTwo_iff.2 h.blockSize_power

theorem Consistent.pow_indexBits (h : c.Consistent n) : 2 ^ (c.shape n).indexBits = n :=
  isPowerOfTwo_iff.2 h.sets_power

theorem Consistent.numBlocks_mul_blockSize (h : c.Consistent n) :
    (c.shape n).numBlocks * c.blockSize.toNat = c.capacity.toNat := by
  rw [← h.sets_eq, Nat.mul_right_comm]
  rfl

/-- Validation never overflows and never divides by zero.  It accepts a configuration if
and only if it is consistent for some number of sets.  Then the shape has that many sets,
as many bits as tell them and the bytes of a block apart, and as many blocks as make up
the capacity, all within words. -/
theorem accepts_consistent (c : Config) :
    c.validate = .ok c.geometry ∧
    ((∃ g, c.geometry = .ok g) ↔ ∃ n, c.Consistent n) ∧
    ∀ g n, c.geometry = .ok g → c.Consistent n →
      g.numSets = n ∧ 2 ^ g.offsetBits = c.blockSize.toNat ∧ 2 ^ g.indexBits = n ∧
      Word.mul 64 g.numSets g.associativity = .ok g.numBlocks ∧
      Word.mul 64 g.numBlocks c.blockSize.toNat = .ok c.capacity.toNat := by
  refine ⟨validate_eq c, ?_, fun g n haccept hn => ?_⟩
  · simp only [geometry_eq_ok_iff]
    constructor
    · rintro ⟨_, n, hn, -⟩
      exact ⟨n, hn⟩
    · rintro ⟨n, hn⟩
      exact ⟨_, n, hn, rfl⟩
  · obtain ⟨m, hm, rfl⟩ := geometry_eq_ok_iff.1 haccept
    obtain rfl : m = n := hm.sets_eq_div.trans hn.sets_eq_div.symm
    have hblocks := hn.numBlocks_mul_blockSize
    have hcapacity := c.capacity.toNat_lt
    have hpositive : 0 < c.blockSize.toNat := hn.pow_offsetBits ▸ Nat.two_pow_pos _
    have hcount : (c.shape m).numBlocks < 2 ^ 64 := by
      refine Nat.lt_of_le_of_lt (Nat.le_mul_of_pos_right _ hpositive) ?_
      rw [hblocks]
      exact hcapacity
    refine ⟨rfl, hn.pow_offsetBits, hn.pow_indexBits, Word.mul_eq_ok_iff.2 ⟨hcount, rfl⟩, ?_⟩
    exact Word.mul_eq_ok_iff.2 ⟨hblocks ▸ hcapacity, hblocks.symm⟩

/-- Eight sets of three lines of 64 bytes. -/
theorem accepts_consistent_of_three_ways :
    (ofShape .dynamicRrip 1536 64 3).Consistent 8 ∧
      ∃ g, (ofShape .dynamicRrip 1536 64 3).geometry = .ok g ∧ g.numSets = 8 ∧
        2 ^ g.offsetBits = 64 ∧ 2 ^ g.indexBits = 8 ∧
        Word.mul 64 g.numSets g.associativity = .ok g.numBlocks ∧
        Word.mul 64 g.numBlocks 64 = .ok 1536 := by
  have hconsistent : (ofShape .dynamicRrip 1536 64 3).Consistent 8 := by
    constructor
    case blockSize_power => exact ⟨6, rfl⟩
    case sets_power => exact ⟨3, rfl⟩
    case settings => exact ⟨by decide, by decide, by decide, by decide⟩
    all_goals decide
  obtain ⟨-, haccepted, hshape⟩ := accepts_consistent (ofShape .dynamicRrip 1536 64 3)
  obtain ⟨g, hg⟩ := haccepted.2 ⟨8, hconsistent⟩
  exact ⟨hconsistent, g, hg, hshape g 8 hg hconsistent⟩

end Config

end AssocCache
