import AssocCache.Proofs.Config.Consistent

/-!
# Dividing addresses

On a shape that passed validation the bit operations of `AssocCache.Geometry` are
divisions.  `Geometry.Valid` is what validation promises about a shape, and
`Config.geometry_valid` shows that it keeps this promise.

The rest are the laws of the division.  An address `a` lies in block number
`a / blockSize`, and two addresses share their line when they share this number
(`lineOf_eq_iff`).  `Geometry.Has` says which lines the address space has.  On
these lines `addressOf` and `lineOf` are inverse (`lineOf_addressOf`,
`addressOf_lineOf`).  `Config.address_division` sums up what this means for the shape
of a configuration.
-/

namespace AssocCache

theorem Line.eq_iff {line other : Line} :
    line = other ↔ line.set = other.set ∧ line.tag = other.tag := by
  cases line
  cases other
  simp

namespace Geometry

/-- What validation promises about a shape.  The sizes are powers of two, and no
shift passes the width of an address. -/
structure Valid (g : Geometry) : Prop where
  blockSize_eq : g.blockSize = 2 ^ g.offsetBits
  numSets_eq : g.numSets = 2 ^ g.indexBits
  associativity_pos : 0 < g.associativity
  offsetBits_lt : g.offsetBits < 64
  tagShift_le : g.tagShift ≤ g.addressBits
  addressBits_le : g.addressBits ≤ 64

/-- The lines whose addresses lie in the address space. -/
def Has (g : Geometry) (line : Line) : Prop :=
  line.set < g.numSets ∧ line.tag < 2 ^ (g.addressBits - g.tagShift)

namespace Valid

variable {g : Geometry}

theorem blockSize_pos (hg : g.Valid) : 0 < g.blockSize := by
  rw [hg.blockSize_eq]
  exact Nat.two_pow_pos _

theorem numSets_pos (hg : g.Valid) : 0 < g.numSets := by
  rw [hg.numSets_eq]
  exact Nat.two_pow_pos _

theorem tagShift_pow (hg : g.Valid) : 2 ^ g.tagShift = g.blockSize * g.numSets := by
  rw [hg.blockSize_eq, hg.numSets_eq, tagShift, Nat.pow_add]

/-- The address space holds the blocks of all its lines, and nothing else. -/
theorem space_eq (hg : g.Valid) :
    2 ^ g.addressBits = g.blockSize * (g.numSets * 2 ^ (g.addressBits - g.tagShift)) := by
  have hsplit : g.addressBits = g.tagShift + (g.addressBits - g.tagShift) := by
    have := hg.tagShift_le
    omega
  conv_lhs => rw [hsplit, Nat.pow_add, hg.tagShift_pow]
  rw [Nat.mul_assoc]

theorem blockSize_dvd_space (hg : g.Valid) : g.blockSize ∣ 2 ^ g.addressBits :=
  ⟨_, hg.space_eq⟩

/-- An address shares the address space with all addresses of its block. -/
theorem lt_space_of_div_eq (hg : g.Valid) {a b : Nat} (h : a / g.blockSize = b / g.blockSize)
    (hb : b < 2 ^ g.addressBits) : a < 2 ^ g.addressBits := by
  obtain ⟨count, hcount⟩ := hg.blockSize_dvd_space
  rw [hcount] at hb ⊢
  rw [Nat.mul_comm] at hb ⊢
  rw [← Nat.div_lt_iff_lt_mul hg.blockSize_pos] at hb ⊢
  omega

/-! ## From addresses to lines -/

theorem lineOf_set (hg : g.Valid) (a : Nat) :
    (g.lineOf a).set = a / g.blockSize % g.numSets := by
  simp only [lineOf]
  rw [Nat.shiftRight_eq_div_pow, ← hg.blockSize_eq, hg.numSets_eq,
    Nat.and_two_pow_sub_one_eq_mod]

theorem lineOf_tag (hg : g.Valid) (a : Nat) :
    (g.lineOf a).tag = a / g.blockSize / g.numSets := by
  simp only [lineOf]
  rw [Nat.shiftRight_eq_div_pow, hg.tagShift_pow, Nat.div_div_eq_div_mul]

theorem lineOf_eq_iff (hg : g.Valid) {a b : Nat} :
    g.lineOf a = g.lineOf b ↔ a / g.blockSize = b / g.blockSize := by
  rw [Line.eq_iff, hg.lineOf_set, hg.lineOf_set, hg.lineOf_tag, hg.lineOf_tag]
  constructor
  · intro ⟨hset, htag⟩
    rw [← Nat.div_add_mod (a / g.blockSize) g.numSets, hset, htag, Nat.div_add_mod]
  · intro h
    rw [h]
    exact ⟨rfl, rfl⟩

theorem has_lineOf (hg : g.Valid) {a : Nat} (ha : a < 2 ^ g.addressBits) :
    g.Has (g.lineOf a) := by
  constructor
  · rw [hg.lineOf_set]
    exact Nat.mod_lt _ hg.numSets_pos
  · rw [hg.lineOf_tag, Nat.div_lt_iff_lt_mul hg.numSets_pos,
      Nat.div_lt_iff_lt_mul hg.blockSize_pos, Nat.mul_comm, Nat.mul_comm (2 ^ _)]
    rwa [hg.space_eq] at ha

/-- Every address of the address space has a line. -/
theorem locate_eq (hg : g.Valid) {a : Nat} (ha : a < 2 ^ g.addressBits) :
    g.locate a = .ok (g.lineOf a) := by
  have hshift := hg.tagShift_le
  have hbits := hg.addressBits_le
  exact locate_of_lt ha hg.offsetBits_lt hg.numSets_pos.ne' (by omega)

/-- An address either has a line or is refused. -/
theorem locate_cases (hg : g.Valid) (a : Nat) :
    a < 2 ^ g.addressBits ∧ g.locate a = .ok (g.lineOf a) ∨
      2 ^ g.addressBits ≤ a ∧
        g.locate a = .error (.refused (.addressOutOfRange a g.addressBits)) := by
  by_cases ha : a < 2 ^ g.addressBits
  · exact Or.inl ⟨ha, hg.locate_eq ha⟩
  · have hle : 2 ^ g.addressBits ≤ a := by omega
    exact Or.inr ⟨hle, locate_of_le hle⟩

/-! ## From lines to addresses -/

/-- The blocks of the lines stay inside the address space. -/
theorem block_lt (hg : g.Valid) {line : Line} (hl : g.Has line) :
    g.blockSize * (g.numSets * line.tag + line.set) < 2 ^ g.addressBits := by
  rw [hg.space_eq]
  refine Nat.mul_lt_mul_of_pos_left ?_ hg.blockSize_pos
  have hnext := Nat.mul_le_mul_left g.numSets (Nat.succ_le_of_lt hl.2)
  rw [Nat.mul_succ] at hnext
  have hset := hl.1
  omega

theorem addressOf_eq (hg : g.Valid) {line : Line} (hl : g.Has line) :
    g.addressOf line = g.blockSize * (g.numSets * line.tag + line.set) := by
  have hblock := hg.block_lt hl
  have hwidth : 2 ^ g.addressBits ≤ 2 ^ 64 := Nat.pow_le_pow_right (by decide) hg.addressBits_le
  have hlow : g.blockSize * line.set < 2 ^ g.tagShift := by
    rw [hg.tagShift_pow]
    exact Nat.mul_lt_mul_of_pos_left hl.1 hg.blockSize_pos
  have hset : Word.shiftLeft line.set g.offsetBits = g.blockSize * line.set := by
    have hle : g.blockSize * line.set ≤ g.blockSize * (g.numSets * line.tag + line.set) :=
      Nat.mul_le_mul_left _ (Nat.le_add_left _ _)
    rw [Word.shiftLeft, if_pos hg.offsetBits_lt, Nat.shiftLeft_eq, ← hg.blockSize_eq,
      Nat.mul_comm, Nat.mod_eq_of_lt (by omega)]
  have htag : Word.shiftLeft line.tag g.tagShift = 2 ^ g.tagShift * line.tag := by
    have hle : 2 ^ g.tagShift * line.tag ≤ g.blockSize * (g.numSets * line.tag + line.set) := by
      rw [hg.tagShift_pow, Nat.mul_assoc]
      exact Nat.mul_le_mul_left _ (Nat.le_add_right _ _)
    rw [Word.shiftLeft]
    split
    · rw [Nat.shiftLeft_eq, Nat.mul_comm, Nat.mod_eq_of_lt (by omega)]
    · -- the tag has no bits left, so its only value is zero
      have hzero : g.addressBits - g.tagShift = 0 := by
        have := hg.addressBits_le
        omega
      have hlt := hl.2
      rw [hzero] at hlt
      rw [show line.tag = 0 by omega, Nat.mul_zero]
  rw [addressOf, htag, hset, ← Nat.two_pow_add_eq_or_of_lt hlow, hg.tagShift_pow,
    Nat.mul_assoc, ← Nat.mul_add]

theorem addressOf_div (hg : g.Valid) {line : Line} (hl : g.Has line) :
    g.addressOf line / g.blockSize = g.numSets * line.tag + line.set := by
  rw [hg.addressOf_eq hl, Nat.mul_div_cancel_left _ hg.blockSize_pos]

/-- The address of a line is aligned. -/
theorem addressOf_mod (hg : g.Valid) {line : Line} (hl : g.Has line) :
    g.addressOf line % g.blockSize = 0 := by
  rw [hg.addressOf_eq hl, Nat.mul_mod_right]

theorem addressOf_lt (hg : g.Valid) {line : Line} (hl : g.Has line) :
    g.addressOf line < 2 ^ g.addressBits := by
  rw [hg.addressOf_eq hl]
  exact hg.block_lt hl

/-- No shift of the address of a line is too far. -/
theorem addressOf?_eq (hg : g.Valid) (line : Line) :
    g.addressOf? line = .ok (g.addressOf line) := by
  have hshift := hg.tagShift_le
  have hbits := hg.addressBits_le
  have hoffset := hg.offsetBits_lt
  rw [addressOf?, if_neg (by omega), if_neg (by omega)]

theorem locate_addressOf (hg : g.Valid) {line : Line} (hl : g.Has line) :
    g.locate (g.addressOf line) = .ok (g.lineOf (g.addressOf line)) :=
  hg.locate_eq (hg.addressOf_lt hl)

theorem lineOf_addressOf (hg : g.Valid) {line : Line} (hl : g.Has line) :
    g.lineOf (g.addressOf line) = line := by
  have hset : (g.lineOf (g.addressOf line)).set = line.set := by
    rw [hg.lineOf_set, hg.addressOf_div hl, Nat.mul_add_mod, Nat.mod_eq_of_lt hl.1]
  have htag : (g.lineOf (g.addressOf line)).tag = line.tag := by
    rw [hg.lineOf_tag, hg.addressOf_div hl, Nat.mul_add_div hg.numSets_pos,
      Nat.div_eq_of_lt hl.1, Nat.add_zero]
  calc g.lineOf (g.addressOf line)
      = ⟨(g.lineOf (g.addressOf line)).set, (g.lineOf (g.addressOf line)).tag⟩ := rfl
    _ = line := by rw [hset, htag]

theorem addressOf_lineOf (hg : g.Valid) {a : Nat} (ha : a < 2 ^ g.addressBits) :
    g.addressOf (g.lineOf a) = g.blockSize * (a / g.blockSize) := by
  rw [hg.addressOf_eq (hg.has_lineOf ha), hg.lineOf_set, hg.lineOf_tag, Nat.div_add_mod]

/-- Different lines have different addresses. -/
theorem addressOf_eq_iff (hg : g.Valid) {line other : Line} (hl : g.Has line)
    (hother : g.Has other) : g.addressOf line = g.addressOf other ↔ line = other := by
  constructor
  · intro h
    rw [← hg.lineOf_addressOf hl, h, hg.lineOf_addressOf hother]
  · rintro rfl
    rfl

end Valid

end Geometry

/-! ## Validation -/

theorem Config.geometry_valid {c : Config} {g : Geometry} (h : c.geometry = .ok g) : g.Valid := by
  obtain ⟨n, hn, rfl⟩ := geometry_eq_ok_iff.1 h
  exact {
    blockSize_eq := hn.pow_offsetBits.symm
    numSets_eq := hn.pow_indexBits.symm
    associativity_pos := hn.associativity_pos
    offsetBits_lt := Word.log2_lt c.blockSize.toNat_lt
    tagShift_le := hn.bits_le
    addressBits_le := hn.addressBits_le }

/-- The lines of a shape that passed validation fit into its capacity, which is a word. -/
theorem Config.tagShift_lt_of_geometry {c : Config} {g : Geometry} (h : c.geometry = .ok g) :
    g.tagShift < 64 := by
  have hcapacity : g.blockSize * g.numSets < 2 ^ 64 := by
    obtain ⟨n, hn, rfl⟩ := geometry_eq_ok_iff.1 h
    refine Nat.lt_of_le_of_lt ?_ c.capacity.toNat_lt
    calc c.blockSize.toNat * n = n * c.blockSize.toNat := Nat.mul_comm _ _
      _ ≤ n * c.blockSize.toNat * c.associativity.toNat :=
        Nat.le_mul_of_pos_right _ hn.associativity_pos
      _ = c.capacity.toNat := hn.sets_eq
  rw [← (Config.geometry_valid h).tagShift_pow] at hcapacity
  exact (Nat.pow_lt_pow_iff_right (by decide)).1 hcapacity

/-! ## There and back -/

/-- The bits of an address above the offset. -/
theorem Geometry.Valid.shiftLeft_shiftRight {g : Geometry} (hg : g.Valid) (a : Nat) :
    a >>> g.offsetBits <<< g.offsetBits = g.blockSize * (a / g.blockSize) := by
  rw [Nat.shiftLeft_eq, Nat.shiftRight_eq_div_pow, ← hg.blockSize_eq, Nat.mul_comm]

/-- The shape that a configuration describes cuts addresses into lines without loss.  An
address is refused exactly when it lies outside the address space.  Any other one has a
line, whose address is that of the block, with the bits of the offset cleared, and it
shares the line with the addresses of its block and no others.  Every set and tag in range
are the line of their own address.  No step leaves its width: the bits of the offset and
of the set never make up a whole word. -/
theorem Config.address_division {c : Config} {g : Geometry} (h : c.geometry = .ok g) :
    g.offsetBits + g.indexBits < 64 ∧
    (∀ a : Nat,
      (g.locate a = .error (.refused (.addressOutOfRange a g.addressBits)) ↔
        2 ^ g.addressBits ≤ a) ∧
      (a < 2 ^ g.addressBits → ∃ line, g.locate a = .ok line ∧ line.set < g.numSets ∧
        line.tag < 2 ^ (g.addressBits - g.offsetBits - g.indexBits) ∧
        g.addressOf? line = .ok (a >>> g.offsetBits <<< g.offsetBits))) ∧
    (∀ a b : Nat, a < 2 ^ g.addressBits → b < 2 ^ g.addressBits →
      (g.locate a = g.locate b ↔ a / g.blockSize = b / g.blockSize)) ∧
    ∀ set tag : Nat, set < g.numSets →
      tag < 2 ^ (g.addressBits - g.offsetBits - g.indexBits) →
      ∃ a, g.addressOf? ⟨set, tag⟩ = .ok a ∧ a % g.blockSize = 0 ∧
        g.locate a = .ok ⟨set, tag⟩ := by
  have hg := Config.geometry_valid h
  have htag : g.addressBits - g.offsetBits - g.indexBits = g.addressBits - g.tagShift :=
    Nat.sub_sub _ _ _
  rw [htag]
  refine ⟨Config.tagShift_lt_of_geometry h, ?_, ?_, ?_⟩
  · intro a
    constructor
    · constructor
      · intro hrefused
        by_contra hinside
        rw [hg.locate_eq (by omega)] at hrefused
        cases hrefused
      · exact Geometry.locate_of_le
    · intro ha
      have hhas := hg.has_lineOf ha
      refine ⟨g.lineOf a, hg.locate_eq ha, hhas.1, hhas.2, ?_⟩
      rw [hg.addressOf?_eq, hg.addressOf_lineOf ha, hg.shiftLeft_shiftRight]
  · intro a b ha hb
    rw [hg.locate_eq ha, hg.locate_eq hb, Except.ok.injEq]
    exact hg.lineOf_eq_iff
  · intro set tag hset hlt
    have hhas : g.Has ⟨set, tag⟩ := ⟨hset, hlt⟩
    refine ⟨g.addressOf ⟨set, tag⟩, hg.addressOf?_eq _, hg.addressOf_mod hhas, ?_⟩
    rw [hg.locate_addressOf hhas, hg.lineOf_addressOf hhas]

/-- All but one of the 64 bits name a byte and a set, so the last address has the tag one
in the last set. -/
theorem Config.address_division_of_last_address :
    ∃ g, (Config.ofShape .lru ((1 : UInt64) <<< 63) 64 1).geometry = .ok g ∧ g.addressBits = 64 ∧
      g.offsetBits + g.indexBits = 63 ∧
      ∃ line, g.locate (2 ^ 64 - 1) = .ok line ∧ g.addressOf? line = .ok (2 ^ 64 - 2 ^ 6) := by
  have hgeometry : (Config.ofShape .lru ((1 : UInt64) <<< 63) 64 1).geometry =
      .ok ⟨2 ^ 63, 64, 1, 2 ^ 57, 6, 57, 64, 1⟩ := rfl
  obtain ⟨-, hcut, -, -⟩ := Config.address_division hgeometry
  obtain ⟨line, hlocate, -, -, haddress⟩ := (hcut (2 ^ 64 - 1)).2 (by decide)
  have hcleared : (2 ^ 64 - 1) >>> 6 <<< 6 = 2 ^ 64 - 2 ^ 6 := by decide
  exact ⟨_, hgeometry, rfl, rfl, line, hlocate, haddress.trans (congrArg Except.ok hcleared)⟩

end AssocCache
