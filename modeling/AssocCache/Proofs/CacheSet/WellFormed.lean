import AssocCache.Proofs.Geometry
import AssocCache.Proofs.Policy.Tame
import AssocCache.Store

/-!
# Well-formed sets

`CacheSet.WellFormed` is the invariant of a set.  Its blocks know their places, a
block without a line is clean, a block with a line carries one of the address
space, no two blocks carry the same line, the stack lists every way once, and the
tag index, where there is one, mirrors the blocks.

A `Frame` is what the sets of a store have in common and what no step changes.
The four theorems `WellFormed.adjusted`, `WellFormed.touch`, `WellFormed.clear`
and `WellFormed.fill` show that what a step does to a set keeps the invariant.
-/

/-!
## What a step does to a set

The four steps of a store on one of its sets, opened once and for all: a hit, the
departure of a line, the arrival of a line, and the choice of a way.  A step is
described twice.

* `hit_eq`, `vacate_eq_ok_iff`, `accept_eq_ok_iff` and `chooseWay_eq_ok_iff` say
  which hooks of the policy run, and on which set.
* `hit_adjusted`, `vacate_cases`, `accept_adjusted` and `chooseWay_cases` say what
  becomes of the set under a tame policy, up to the policy's own marks.
-/

namespace AssocCache

open Success

/-- The block once its line was accessed. -/
def Block.touch (b : Block) (access : AccessKind) : Block :=
  { b with dirty := b.dirty || access.isWrite }

namespace Block

variable {b c : Block}

/-! What happens to a block does not depend on its word. -/

theorem bare_touch_congr (h : b.bare = c.bare) (access : AccessKind) :
    (b.touch access).bare = (c.touch access).bare :=
  congrArg (touch · access) h

theorem bare_clear_congr (h : b.bare = c.bare) : b.clear.bare = c.clear.bare :=
  congrArg clear h

theorem bare_fill_congr (h : b.bare = c.bare) (tag : Nat) (kind : MemoryKind) (dirty : Bool) :
    (b.fill tag kind dirty).bare = (c.fill tag kind dirty).bare :=
  congrArg (fill · tag kind dirty) h

end Block

namespace CacheSet

variable {π : Type} [Policy π] {set set' : CacheSet} {policy policy' : π} {way : Nat}

omit [Policy π] in
theorem put_self {block : Block} (hb : set.blocks[way]? = some block) :
    set.put way block = set := by
  obtain ⟨hlt, rfl⟩ := List.getElem?_eq_some_iff.1 hb
  simp [put]

omit [Policy π] in
theorem blocks_put (set : CacheSet) (way : Nat) (block : Block) :
    (set.put way block).blocks = set.blocks.set way block := rfl

/-- A hit on a line marks its block and tells the policy. -/
theorem hit_eq {block : Block} (hb : set.blocks[way]? = some block) (hv : block.valid = true)
    (policy : π) (access : AccessKind) :
    set.hit policy way access = Policy.onHit policy (set.put way (block.touch access)) way := by
  unfold hit
  split
  · rename_i hwrite
    rw [blockAt_eq_ok_iff.2 hb]
    simp [bind, Except.bind, hv, Block.touch, hwrite]
  · rename_i hread
    have htouch : block.touch access = block := by
      simp [Block.touch, hread]
    rw [htouch, put_self hb]

theorem vacate_eq_ok_iff {victim : Option Block} :
    set.vacate policy way = .ok (victim, policy', set') ↔
      ∃ block, set.blocks[way]? = some block ∧
        (block.valid = true ∧ victim = some block ∧ (∃ told block',
            Policy.onInvalidate policy set way = .ok (policy', told) ∧
            told.blocks[way]? = some block' ∧
            set' = (told.put way block'.clear).forget block.tag) ∨
          block.valid = false ∧ victim = none ∧ policy' = policy ∧ set' = set) := by
  unfold vacate
  simp only [bind_eq_ok_iff, blockAt_eq_ok_iff]
  refine exists_congr fun block => and_congr_right fun _ => ?_
  cases hv : block.valid with
  | false =>
    simp only [Bool.false_eq_true, if_false, pure_eq_ok_iff, Prod.mk.injEq, false_and, true_and,
      false_or]
    grind
  | true =>
    simp only [if_true, bind_eq_ok_iff, pure_eq_ok_iff, change_eq_ok_iff, Prod.mk.injEq, true_and,
      Bool.true_eq_false, false_and, or_false]
    grind

theorem accept_eq_ok_iff {tag : Nat} {kind : MemoryKind} {access : AccessKind} :
    set.accept policy way tag kind access = .ok (policy', set') ↔
      ∃ block, set.blocks[way]? = some block ∧ block.valid = false ∧ ∃ told filled,
        Policy.onFill policy ((set.put way (block.fill tag kind access.isWrite)).enter tag way) way
          = .ok (told, filled) ∧
        Policy.onInsert told filled way access = .ok (policy', set') ∧
        duplicateTag? set'.blocks = none := by
  have hcheck : ∀ set : CacheSet, set.checkUniqueTags = .ok () ↔ duplicateTag? set.blocks = none := by
    intro set
    unfold checkUniqueTags
    split <;> simp_all
  unfold accept
  simp only [bind_eq_ok_iff, blockAt_eq_ok_iff]
  refine exists_congr fun block => and_congr_right fun _ => ?_
  cases hv : block.valid with
  | true => simp
  | false =>
    simp only [Bool.false_eq_true, if_false, bind_eq_ok_iff, pure_eq_ok_iff, Prod.exists,
      Prod.mk.injEq, true_and]
    grind

theorem chooseWay_eq_ok_iff :
    (Store.chooseWay set policy).result = .ok (way, policy', set') ↔
      set.vacancy = some way ∧ policy' = policy ∧ set' = set ∨
        set.vacancy = none ∧ Policy.chooseVictim policy set = .ok (way, policy', set') ∧
          way < set'.blocks.length := by
  unfold Store.chooseWay
  cases hvacancy : set.vacancy with
  | some first =>
    simp
    grind
  | none =>
    simp only [Logged.result_bind_eq_ok_iff, Logged.result_attempt_eq_ok_iff, Prod.exists]
    constructor
    · rintro ⟨chosen, policy, aged, hchoice, -, -, hbound⟩
      split at hbound
      · rename_i hlt
        cases hbound
        exact Or.inr ⟨trivial, hchoice, hlt⟩
      · simp at hbound
    · rintro (⟨hsome, -⟩ | ⟨-, hchoice, hlt⟩)
      · cases hsome
      · refine ⟨way, policy', set', hchoice, (), by simp, ?_⟩
        rw [if_pos (show way < set'.associativity from hlt)]
        rfl

/-! ### Under a tame policy -/

variable [Policy.Tame π]

theorem hit_adjusted {block : Block} {access : AccessKind} (hb : set.blocks[way]? = some block)
    (hv : block.valid = true) (h : set.hit policy way access = .ok (policy', set')) :
    (set.put way (block.touch access)).Adjusted set' := by
  rw [hit_eq hb hv] at h
  exact Policy.Tame.onHit h

theorem vacate_cases {victim : Option Block}
    (h : set.vacate policy way = .ok (victim, policy', set')) :
    ∃ block, set.blocks[way]? = some block ∧
      (block.valid = true ∧ victim = some block ∧
          ((set.put way block.clear).forget block.tag).Adjusted set' ∨
        block.valid = false ∧ victim = none ∧ policy' = policy ∧ set' = set) := by
  obtain ⟨block, hb, ⟨hv, rfl, told, block', hhook, hb', rfl⟩ | hinvalid⟩ := vacate_eq_ok_iff.1 h
  · have hadjusted := Policy.Tame.onInvalidate hhook
    refine ⟨block, hb, Or.inl ⟨hv, rfl, ?_⟩⟩
    obtain ⟨block'', hb'', hbare⟩ := hadjusted.exists_block hb
    rw [hb'] at hb''
    cases hb''
    exact (hadjusted.put way (Block.bare_clear_congr hbare)).forget block.tag
  · exact ⟨block, hb, Or.inr hinvalid⟩

theorem accept_adjusted {tag : Nat} {kind : MemoryKind} {access : AccessKind}
    (h : set.accept policy way tag kind access = .ok (policy', set')) :
    ∃ block, set.blocks[way]? = some block ∧ block.valid = false ∧
      ((set.put way (block.fill tag kind access.isWrite)).enter tag way).Adjusted set' := by
  obtain ⟨block, hb, hv, told, filled, hfill, hinsert, -⟩ := accept_eq_ok_iff.1 h
  exact ⟨block, hb, hv, (Policy.Tame.onFill hfill).trans (Policy.Tame.onInsert hinsert)⟩

/-- The way that is vacant has a block without a line. -/
theorem exists_of_vacancy (h : set.vacancy = some way) :
    ∃ block, set.blocks[way]? = some block ∧ block.valid = false := by
  obtain ⟨hlt, hfree, -⟩ := List.findIdx?_eq_some_iff_getElem.1 h
  exact ⟨_, List.getElem?_eq_getElem hlt, by simpa using hfree⟩

/-- No way is vacant in a full set. -/
theorem vacancy_eq_none_iff : set.vacancy = none ↔ ∀ block ∈ set.blocks, block.valid = true := by
  simp [vacancy, List.findIdx?_eq_none_iff]

/-- The way that is chosen has no line, or else all ways have one. -/
theorem chooseWay_cases
    (h : (Store.chooseWay set policy).result = .ok (way, policy', set')) :
    set.Adjusted set' ∧ ∃ block, set.blocks[way]? = some block ∧
      (block.valid = true → ∀ other ∈ set.blocks, other.valid = true) := by
  rcases chooseWay_eq_ok_iff.1 h with ⟨hvacancy, -, rfl⟩ | ⟨hvacancy, hchoice, hlt⟩
  · obtain ⟨block, hb, hfree⟩ := exists_of_vacancy hvacancy
    refine ⟨.refl _, block, hb, fun hv => ?_⟩
    rw [hfree] at hv
    cases hv
  · have hadjusted := Policy.Tame.chooseVictim hchoice
    rw [hadjusted.length_blocks] at hlt
    exact ⟨hadjusted, set.blocks[way], List.getElem?_eq_getElem hlt, fun _ =>
      vacancy_eq_none_iff.1 hvacancy⟩

end CacheSet

end AssocCache

/-! ## The invariant -/

namespace AssocCache

/-- What the sets of a store have in common. -/
structure Frame where
  geometry : Geometry
  regionBorder : Option Nat
  /-- Whether the sets find their lines through a tag index. -/
  indexed : Bool

/-- The invariant of the block in a way of a set. -/
structure Block.WellFormed (f : Frame) (index way : Nat) (b : Block) : Prop where
  setIndex_eq : b.setIndex = index
  wayIndex_eq : b.wayIndex = way
  clean : b.valid = false → b.dirty = false
  has : b.valid = true → f.geometry.Has ⟨index, b.tag⟩
  kind_eq : b.valid = true →
    b.kind = .classify (f.geometry.addressOf ⟨index, b.tag⟩) f.regionBorder

namespace Block.WellFormed

variable {f : Frame} {index way : Nat} {b c : Block}

theorem of_bare (h : b.WellFormed f index way) (hbare : c.bare = b.bare) :
    c.WellFormed f index way := by
  obtain ⟨htag, hvalid, hdirty, hset, hway, hkind⟩ := Block.bare_eq_bare_iff.1 hbare
  refine ⟨hset.trans h.setIndex_eq, hway.trans h.wayIndex_eq, ?_, ?_, ?_⟩
  · rw [hvalid, hdirty]
    exact h.clean
  · rw [hvalid, htag]
    exact h.has
  · rw [hvalid, htag, hkind]
    exact h.kind_eq

theorem touch (h : b.WellFormed f index way) (hv : b.valid = true) (access : AccessKind) :
    (b.touch access).WellFormed f index way where
  setIndex_eq := h.setIndex_eq
  wayIndex_eq := h.wayIndex_eq
  clean hinvalid := by cases hv.symm.trans hinvalid
  has := h.has
  kind_eq := h.kind_eq

theorem clear (h : b.WellFormed f index way) : b.clear.WellFormed f index way where
  setIndex_eq := h.setIndex_eq
  wayIndex_eq := h.wayIndex_eq
  clean _ := rfl
  has hvalid := by cases hvalid
  kind_eq hvalid := by cases hvalid

theorem fill (h : b.WellFormed f index way) {tag : Nat} (hhas : f.geometry.Has ⟨index, tag⟩)
    (dirty : Bool) :
    (b.fill tag (.classify (f.geometry.addressOf ⟨index, tag⟩) f.regionBorder) dirty).WellFormed
      f index way where
  setIndex_eq := h.setIndex_eq
  wayIndex_eq := h.wayIndex_eq
  clean hinvalid := by cases hinvalid
  has _ := hhas
  kind_eq _ := rfl

theorem empty (f : Frame) (index way : Nat) :
    (Block.empty index way).WellFormed f index way where
  setIndex_eq := rfl
  wayIndex_eq := rfl
  clean _ := rfl
  has hvalid := by cases hvalid
  kind_eq hvalid := by cases hvalid

end Block.WellFormed

namespace CacheSet

/-- The block of a way carries the line with this tag. -/
def Carries (set : CacheSet) (way tag : Nat) : Prop :=
  ∃ block, set.blocks[way]? = some block ∧ block.holds tag = true

theorem carries_put {set : CacheSet} {way : Nat} (hway : way < set.blocks.length) (block : Block)
    (other tag : Nat) :
    (set.put way block).Carries other tag ↔
      if other = way then block.holds tag = true else set.Carries other tag := by
  unfold Carries
  rw [blocks_put]
  by_cases h : other = way
  · subst h
    simp [hway]
  · simp [h, List.getElem?_set_ne (Ne.symm h)]

theorem carries_put_of_holds {set : CacheSet} {way : Nat} {block block' : Block}
    (hb : set.blocks[way]? = some block) (hholds : ∀ tag, block'.holds tag = block.holds tag)
    (other tag : Nat) : (set.put way block').Carries other tag ↔ set.Carries other tag := by
  obtain ⟨hway, -⟩ := List.getElem?_eq_some_iff.1 hb
  rw [carries_put hway]
  split
  · rename_i h
    simp [h, Carries, hb, hholds]
  · rfl

theorem Adjusted.carries_iff {set set' : CacheSet} (h : set.Adjusted set') (way tag : Nat) :
    set'.Carries way tag ↔ set.Carries way tag := by
  constructor
  · intro ⟨block', hb', hholds⟩
    obtain ⟨block, hb, hbare⟩ := h.exists_block_rev hb'
    exact ⟨block, hb, by rwa [← Block.holds_bare, ← hbare]⟩
  · intro ⟨block, hb, hholds⟩
    obtain ⟨block', hb', hbare⟩ := h.exists_block hb
    exact ⟨block', hb', by rwa [← Block.holds_bare, hbare]⟩

/-- The invariant of the set with an index. -/
structure WellFormed (f : Frame) (index : Nat) (set : CacheSet) : Prop where
  index_eq : set.index = index
  length_blocks : set.blocks.length = f.geometry.associativity
  blocks : ∀ {way : Nat} {block : Block}, set.blocks[way]? = some block → block.WellFormed f index way
  unique : ∀ {way way' tag : Nat}, set.Carries way tag → set.Carries way' tag → way = way'
  stack_perm : set.stack.Perm (List.range f.geometry.associativity)
  indexed : set.tagIndex.isSome = f.indexed
  mirrors : ∀ tagIndex ∈ set.tagIndex, ∀ tag way,
    tagIndex[tag]? = some way ↔ set.Carries way tag

namespace WellFormed

variable {f : Frame} {index : Nat} {set set' : CacheSet}

theorem mem_stack (h : set.WellFormed f index) {way : Nat} :
    way ∈ set.stack ↔ way < set.blocks.length := by
  rw [h.stack_perm.mem_iff, List.mem_range, h.length_blocks]

theorem mem_stack_of_getElem? (h : set.WellFormed f index) {way : Nat} {block : Block}
    (hb : set.blocks[way]? = some block) : way ∈ set.stack :=
  h.mem_stack.2 (List.getElem?_eq_some_iff.1 hb).1

theorem nodup_stack (h : set.WellFormed f index) : set.stack.Nodup :=
  h.stack_perm.nodup_iff.2 List.nodup_range

/-- A scan finds the only way that carries the tag. -/
theorem scan_eq_some_iff (h : set.WellFormed f index) {tag way : Nat} :
    set.scan tag = some way ↔ set.Carries way tag := by
  unfold scan
  rw [List.findIdx?_eq_some_iff_getElem]
  constructor
  · rintro ⟨hlt, hholds, -⟩
    exact ⟨_, List.getElem?_eq_getElem hlt, hholds⟩
  · intro hcarries
    obtain ⟨block, hb, hholds⟩ := hcarries
    obtain ⟨hlt, rfl⟩ := List.getElem?_eq_some_iff.1 hb
    refine ⟨hlt, hholds, fun other hother hcarried => ?_⟩
    have hsame := h.unique ⟨_, List.getElem?_eq_getElem (by omega), hcarried⟩ ⟨_, hb, hholds⟩
    omega

/-- Both kinds of lookup find the way that carries the tag. -/
theorem find_eq_some_iff (h : set.WellFormed f index) {tag way : Nat} :
    set.find tag = some way ↔ set.Carries way tag := by
  unfold find
  split
  · rename_i tagIndex htagIndex
    exact h.mirrors tagIndex htagIndex tag way
  · exact h.scan_eq_some_iff

theorem find_eq_none_iff (h : set.WellFormed f index) {tag : Nat} :
    set.find tag = none ↔ ∀ way, ¬ set.Carries way tag := by
  rw [Option.eq_none_iff_forall_ne_some]
  simp only [ne_eq, h.find_eq_some_iff]

/-- A lookup answers as a scan does, in either layout. -/
theorem find_eq_scan (h : set.WellFormed f index) (tag : Nat) : set.find tag = set.scan tag := by
  ext way
  rw [h.find_eq_some_iff, h.scan_eq_some_iff]

/-! ## The steps keep the invariant -/

theorem adjusted (h : set.WellFormed f index) (hadjusted : set.Adjusted set') :
    set'.WellFormed f index where
  index_eq := hadjusted.index_eq.trans h.index_eq
  length_blocks := hadjusted.length_blocks.trans h.length_blocks
  blocks hb := by
    obtain ⟨block, hblock, hbare⟩ := hadjusted.exists_block_rev hb
    exact (h.blocks hblock).of_bare hbare
  unique hcarries hcarries' :=
    h.unique ((hadjusted.carries_iff _ _).1 hcarries) ((hadjusted.carries_iff _ _).1 hcarries')
  stack_perm := hadjusted.stack_perm.trans h.stack_perm
  indexed := by rw [hadjusted.tagIndex_eq, h.indexed]
  mirrors tagIndex htagIndex tag way := by
    rw [hadjusted.tagIndex_eq] at htagIndex
    rw [h.mirrors tagIndex htagIndex, hadjusted.carries_iff]

/-- The blocks of a set stay well-formed when one of them is replaced by a
well-formed one. -/
theorem blocks_put (h : set.WellFormed f index) {way : Nat} {block : Block}
    (hblock : block.WellFormed f index way) {other : Nat} {found : Block}
    (hfound : (set.put way block).blocks[other]? = some found) :
    found.WellFormed f index other := by
  rw [CacheSet.blocks_put, List.getElem?_set] at hfound
  split at hfound
  · rename_i heq
    subst heq
    split at hfound
    · cases hfound
      exact hblock
    · cases hfound
  · exact h.blocks hfound

theorem touch (h : set.WellFormed f index) {way : Nat} {block : Block}
    (hb : set.blocks[way]? = some block) (hv : block.valid = true) (access : AccessKind) :
    (set.put way (block.touch access)).WellFormed f index := by
  have hsame : ∀ other tag, (set.put way (block.touch access)).Carries other tag ↔
      set.Carries other tag := carries_put_of_holds hb fun _ => rfl
  refine ⟨h.index_eq, ?_, h.blocks_put ((h.blocks hb).touch hv access), ?_, h.stack_perm,
    h.indexed, ?_⟩
  · rw [CacheSet.blocks_put, List.length_set, h.length_blocks]
  · intro way way' tag hcarries hcarries'
    exact h.unique ((hsame _ _).1 hcarries) ((hsame _ _).1 hcarries')
  · intro tagIndex htagIndex tag way
    rw [h.mirrors tagIndex htagIndex, hsame]

theorem carries_clear (h : set.WellFormed f index) {way : Nat} {block : Block}
    (hb : set.blocks[way]? = some block) (hv : block.valid = true) (other tag : Nat) :
    ((set.put way block.clear).forget block.tag).Carries other tag ↔
      tag ≠ block.tag ∧ set.Carries other tag := by
  obtain ⟨hway, -⟩ := List.getElem?_eq_some_iff.1 hb
  have hhere : set.Carries way block.tag := ⟨block, hb, Block.holds_iff.2 ⟨hv, rfl⟩⟩
  refine (carries_put hway _ _ _).trans ?_
  split
  · rename_i heq
    subst heq
    simp only [Block.holds_clear, Bool.false_eq_true, false_iff, not_and]
    intro hne ⟨found, hfound, hholds⟩
    rw [hb] at hfound
    cases hfound
    exact hne (Block.holds_iff.1 hholds).2.symm
  · rename_i hne
    refine ⟨fun hcarries => ⟨?_, hcarries⟩, fun hcarries => hcarries.2⟩
    rintro rfl
    exact hne (h.unique hcarries hhere)

theorem clear (h : set.WellFormed f index) {way : Nat} {block : Block}
    (hb : set.blocks[way]? = some block) (hv : block.valid = true) :
    ((set.put way block.clear).forget block.tag).WellFormed f index := by
  have hcarries := h.carries_clear hb hv
  refine ⟨h.index_eq, ?_, h.blocks_put (h.blocks hb).clear, ?_, h.stack_perm, ?_, ?_⟩
  · exact (List.length_set ..).trans h.length_blocks
  · intro way way' tag hway hway'
    exact h.unique ((hcarries _ _).1 hway).2 ((hcarries _ _).1 hway').2
  · rw [← h.indexed]
    exact Option.isSome_map ..
  · intro tagIndex htagIndex tag way
    obtain ⟨whole, hwhole, rfl⟩ := Option.map_eq_some_iff.1 htagIndex
    rw [Std.HashMap.getElem?_erase, hcarries, ← h.mirrors whole hwhole]
    by_cases htag : block.tag = tag
    · simp [htag]
    · simp [htag, Ne.symm htag]

theorem carries_fill {way : Nat} {block : Block} (hb : set.blocks[way]? = some block)
    (hv : block.valid = false) (tag : Nat) (kind : MemoryKind) (dirty : Bool) (other sought : Nat) :
    ((set.put way (block.fill tag kind dirty)).enter tag way).Carries other sought ↔
      other = way ∧ sought = tag ∨ set.Carries other sought := by
  obtain ⟨hway, -⟩ := List.getElem?_eq_some_iff.1 hb
  refine (carries_put hway _ _ _).trans ?_
  split
  · rename_i heq
    subst heq
    have hvacant : ¬ set.Carries other sought := by
      intro ⟨found, hfound, hholds⟩
      rw [hb] at hfound
      cases hfound
      simp [Block.holds, hv] at hholds
    simp only [Block.holds_fill, beq_iff_eq, hvacant, true_and, or_false]
    exact eq_comm
  · rename_i hne
    simp [hne]

theorem fill (h : set.WellFormed f index) {way tag : Nat} {block : Block}
    (hb : set.blocks[way]? = some block) (hv : block.valid = false)
    (habsent : ∀ other, ¬ set.Carries other tag) (hhas : f.geometry.Has ⟨index, tag⟩)
    (dirty : Bool) :
    ((set.put way (block.fill tag
      (.classify (f.geometry.addressOf ⟨index, tag⟩) f.regionBorder) dirty)).enter
        tag way).WellFormed f index := by
  have hcarries := carries_fill hb hv tag
    (.classify (f.geometry.addressOf ⟨index, tag⟩) f.regionBorder) dirty
  refine ⟨h.index_eq, ?_, h.blocks_put ((h.blocks hb).fill hhas dirty), ?_, h.stack_perm, ?_, ?_⟩
  · exact (List.length_set ..).trans h.length_blocks
  · intro way₁ way₂ sought hway₁ hway₂
    rw [hcarries] at hway₁ hway₂
    rcases hway₁ with ⟨rfl, rfl⟩ | hway₁ <;> rcases hway₂ with ⟨rfl, hsame⟩ | hway₂
    · rfl
    · exact absurd hway₂ (habsent _)
    · exact absurd (hsame ▸ hway₁) (habsent _)
    · exact h.unique hway₁ hway₂
  · rw [← h.indexed]
    exact Option.isSome_map ..
  · intro tagIndex htagIndex sought other
    obtain ⟨whole, hwhole, rfl⟩ := Option.map_eq_some_iff.1 htagIndex
    rw [Std.HashMap.getElem?_insert, hcarries, ← h.mirrors whole hwhole]
    by_cases htag : tag = sought
    · have hnone : whole[sought]? ≠ some other := by
        rw [ne_eq, h.mirrors whole hwhole, ← htag]
        exact habsent other
      simp [htag, hnone, eq_comm]
    · simp [htag, Ne.symm htag]

end WellFormed

/-! ## Fresh sets -/

theorem not_carries_scanned (index associativity : Nat) (role : DuelRole) (way tag : Nat) :
    ¬ (scanned index associativity role).Carries way tag := by
  intro ⟨block, hb, hholds⟩
  simp only [scanned, List.getElem?_map, Option.map_eq_some_iff] at hb
  obtain ⟨_, -, rfl⟩ := hb
  simp [Block.holds, Block.empty] at hholds

theorem WellFormed.scanned (g : Geometry) (regionBorder : Option Nat) (index : Nat)
    (role : DuelRole) :
    (CacheSet.scanned index g.associativity role).WellFormed ⟨g, regionBorder, false⟩ index where
  index_eq := rfl
  length_blocks := by simp [CacheSet.scanned]
  blocks hb := by
    simp only [CacheSet.scanned, List.getElem?_map, Option.map_eq_some_iff] at hb
    obtain ⟨way, hway, rfl⟩ := hb
    obtain ⟨-, rfl⟩ := List.getElem?_eq_some_iff.1 hway
    simp only [List.getElem_range]
    exact .empty _ _ _
  unique hcarries := (not_carries_scanned _ _ _ _ _ hcarries).elim
  stack_perm := .refl _
  indexed := rfl
  mirrors tagIndex htagIndex := by cases htagIndex

theorem WellFormed.indexed_empty (g : Geometry) (regionBorder : Option Nat) (index : Nat) :
    (CacheSet.indexed index g.associativity).WellFormed ⟨g, regionBorder, true⟩ index := by
  have hscanned := WellFormed.scanned g regionBorder index .follower
  refine ⟨rfl, hscanned.length_blocks, fun hb => ?_, hscanned.unique, hscanned.stack_perm, rfl, ?_⟩
  · obtain ⟨hset, hway, hclean, hhas, hkind⟩ := hscanned.blocks hb
    exact ⟨hset, hway, hclean, hhas, hkind⟩
  · rintro _ ⟨⟩ tag way
    simp only [Std.HashMap.getElem?_empty, reduceCtorEq, false_iff]
    exact not_carries_scanned index g.associativity .follower way tag

end CacheSet

end AssocCache
