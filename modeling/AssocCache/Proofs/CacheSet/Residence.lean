import AssocCache.Proofs.CacheSet.WellFormed
import Mathlib.Data.Set.Card

/-!
# The lines of a set

`CacheSet.residence` is a set as its user sees it: for each tag the way of its
line and whether the line has pending writes, or nothing if the line is absent.
Each step of a well-formed set changes this view at one tag.

* A hit may set the mark of the line that was hit (`residence_touch`).
* A departure removes a line (`residence_clear`), and the vacant block counts one
  less (`occupancy_clear`).
* An arrival adds a line (`residence_fill`, `occupancy_fill`).

`Vacated` and `Filled` say what the departure of a line and a whole fill do to the
view.

`ncard_residents` counts the lines in the view: there are as many as valid blocks.
-/

namespace AssocCache

/-- Where a resident line is, and whether it has pending writes. -/
structure Residence where
  way : Nat
  dirty : Bool
  deriving DecidableEq, Repr

/-- The line once it was accessed. -/
def Residence.touch (r : Residence) (access : AccessKind) : Residence :=
  { r with dirty := r.dirty || access.isWrite }

namespace CacheSet

/-- Where the line with a tag is, if it is resident. -/
def residence (set : CacheSet) (tag : Nat) : Option Residence :=
  (set.find tag).bind fun way => set.blocks[way]?.map fun block => ⟨way, block.dirty⟩

theorem duplicateTag?_eq_none_iff {blocks : List Block} :
    duplicateTag? blocks = none ↔
      blocks.Pairwise fun block later => block.valid = true → later.holds block.tag = false := by
  induction blocks with
  | nil => simp [duplicateTag?]
  | cons block rest ih =>
    rw [duplicateTag?, List.pairwise_cons, ← ih]
    cases hv : block.valid with
    | false => simp
    | true =>
      by_cases hlater : ∃ later ∈ rest, later.holds block.tag = true
      · simp [hlater]
      · have hfree : ∀ later ∈ rest, later.holds block.tag = false := by simpa using hlater
        simpa [hlater] using fun _ => hfree

namespace WellFormed

variable {f : Frame} {index : Nat} {set set' : CacheSet} {way tag : Nat} {block : Block}

theorem residence_eq_some_iff (h : set.WellFormed f index) {r : Residence} :
    set.residence tag = some r ↔
      ∃ block, set.blocks[r.way]? = some block ∧ block.holds tag = true ∧ block.dirty = r.dirty := by
  simp only [residence, Option.bind_eq_some_iff, Option.map_eq_some_iff, h.find_eq_some_iff]
  constructor
  · rintro ⟨way, ⟨block, hb, hholds⟩, found, hfound, rfl⟩
    rw [hb] at hfound
    cases hfound
    exact ⟨block, hb, hholds, rfl⟩
  · intro ⟨block, hb, hholds, hdirty⟩
    exact ⟨r.way, ⟨block, hb, hholds⟩, block, hb, by rw [hdirty]⟩

theorem residence_of_holds (h : set.WellFormed f index) (hb : set.blocks[way]? = some block)
    (hholds : block.holds tag = true) : set.residence tag = some ⟨way, block.dirty⟩ :=
  h.residence_eq_some_iff.2 ⟨block, hb, hholds, rfl⟩

theorem residence_of_valid (h : set.WellFormed f index) (hb : set.blocks[way]? = some block)
    (hv : block.valid = true) : set.residence block.tag = some ⟨way, block.dirty⟩ :=
  h.residence_of_holds hb (Block.holds_iff.2 ⟨hv, rfl⟩)

theorem residence_eq_none_iff (h : set.WellFormed f index) :
    set.residence tag = none ↔ ∀ way, ¬ set.Carries way tag := by
  rw [Option.eq_none_iff_forall_ne_some]
  constructor
  · intro hnone way ⟨block, hb, hholds⟩
    exact hnone _ (h.residence_of_holds hb hholds)
  · intro hnone r hr
    obtain ⟨block, hb, hholds, -⟩ := h.residence_eq_some_iff.1 hr
    exact hnone _ ⟨block, hb, hholds⟩

/-- The view knows the way that a lookup finds. -/
theorem map_way_residence (h : set.WellFormed f index) (tag : Nat) :
    (set.residence tag).map (·.way) = set.find tag := by
  cases hr : set.residence tag with
  | none =>
    rw [Option.map_none]
    exact (h.find_eq_none_iff.2 (h.residence_eq_none_iff.1 hr)).symm
  | some r =>
    obtain ⟨block, hb, hholds, -⟩ := h.residence_eq_some_iff.1 hr
    exact (h.find_eq_some_iff.2 ⟨block, hb, hholds⟩).symm

/-! ## The steps in the view -/

theorem residence_adjusted (h : set.WellFormed f index) (hadjusted : set.Adjusted set')
    (tag : Nat) : set'.residence tag = set.residence tag := by
  ext r
  rw [h.residence_eq_some_iff, (h.adjusted hadjusted).residence_eq_some_iff]
  constructor
  · intro ⟨block', hb', hholds, hdirty⟩
    obtain ⟨block, hb, hbare⟩ := hadjusted.exists_block_rev hb'
    refine ⟨block, hb, by rwa [← Block.holds_bare, ← hbare], ?_⟩
    rw [← hdirty]
    exact (Block.bare_eq_bare_iff.1 hbare).2.2.1.symm
  · intro ⟨block, hb, hholds, hdirty⟩
    obtain ⟨block', hb', hbare⟩ := hadjusted.exists_block hb
    refine ⟨block', hb', by rwa [← Block.holds_bare, hbare], ?_⟩
    rw [← hdirty]
    exact (Block.bare_eq_bare_iff.1 hbare).2.2.1

/-- Only the block that was put differs, so a line elsewhere stays as it is. -/
theorem residence_put_of_ne (h : set.WellFormed f index) {set' : CacheSet}
    (h' : set'.WellFormed f index) {block' : Block} (hb : set.blocks[way]? = some block)
    (hput : set'.blocks = set.blocks.set way block') (hold : block.holds tag = false)
    (hnew : block'.holds tag = false) : set'.residence tag = set.residence tag := by
  obtain ⟨hway, -⟩ := List.getElem?_eq_some_iff.1 hb
  ext r
  rw [h.residence_eq_some_iff, h'.residence_eq_some_iff, hput]
  by_cases hr : r.way = way
  · rw [hr, List.getElem?_set_self hway, hb]
    simp [hold, hnew]
  · rw [List.getElem?_set_ne (Ne.symm hr)]

theorem residence_touch (h : set.WellFormed f index) (hb : set.blocks[way]? = some block)
    (hv : block.valid = true) (access : AccessKind) (tag : Nat) :
    (set.put way (block.touch access)).residence tag =
      if tag = block.tag then some ⟨way, block.dirty || access.isWrite⟩ else set.residence tag := by
  have h' := h.touch hb hv access
  obtain ⟨hway, -⟩ := List.getElem?_eq_some_iff.1 hb
  split
  · rename_i htag
    subst htag
    exact h'.residence_of_holds (List.getElem?_set_self hway) (Block.holds_iff.2 ⟨hv, rfl⟩)
  · rename_i htag
    have hother : block.holds tag = false := by
      simp [Block.holds, Ne.symm htag]
    exact h.residence_put_of_ne h' hb rfl hother hother

theorem residence_clear (h : set.WellFormed f index) (hb : set.blocks[way]? = some block)
    (hv : block.valid = true) (tag : Nat) :
    ((set.put way block.clear).forget block.tag).residence tag =
      if tag = block.tag then none else set.residence tag := by
  have h' := h.clear hb hv
  split
  · rename_i htag
    subst htag
    rw [h'.residence_eq_none_iff]
    intro other hcarries
    exact ((h.carries_clear hb hv _ _).1 hcarries).1 rfl
  · rename_i htag
    refine h.residence_put_of_ne h' hb rfl ?_ (Block.holds_clear _ _)
    simp [Block.holds, Ne.symm htag]

theorem residence_fill (h : set.WellFormed f index) (hb : set.blocks[way]? = some block)
    (hv : block.valid = false) (habsent : ∀ other, ¬ set.Carries other tag)
    (hhas : f.geometry.Has ⟨index, tag⟩) (dirty : Bool) (sought : Nat) :
    ((set.put way (block.fill tag (.classify (f.geometry.addressOf ⟨index, tag⟩) f.regionBorder)
      dirty)).enter tag way).residence sought =
      if sought = tag then some ⟨way, dirty⟩ else set.residence sought := by
  have h' := h.fill hb hv habsent hhas dirty
  obtain ⟨hway, -⟩ := List.getElem?_eq_some_iff.1 hb
  split
  · rename_i htag
    subst htag
    exact h'.residence_of_holds (List.getElem?_set_self hway) (by simp)
  · rename_i htag
    refine h.residence_put_of_ne h' hb rfl ?_ ?_
    · simp [Block.holds, hv]
    · simp [Ne.symm htag]

end WellFormed

/-! ## Counting lines -/

section Counting

variable {set : CacheSet} {way : Nat} {block : Block}

theorem occupancy_put (hb : set.blocks[way]? = some block) (block' : Block) :
    (set.put way block').occupancy + (if block.valid then 1 else 0) =
      set.occupancy + if block'.valid then 1 else 0 := by
  obtain ⟨hway, rfl⟩ := List.getElem?_eq_some_iff.1 hb
  have hcount := List.countP_set (p := (·.valid)) (a := block') hway
  have hpos : set.blocks[way].valid = true → 0 < set.blocks.countP (·.valid) := fun hv =>
    List.countP_pos_iff.2 ⟨_, List.getElem_mem hway, hv⟩
  simp only [occupancy, blocks_put, hcount]
  split
  · rename_i hv
    have := hpos hv
    omega
  · omega

theorem occupancy_touch (hb : set.blocks[way]? = some block) (access : AccessKind) :
    (set.put way (block.touch access)).occupancy = set.occupancy := by
  have hput := occupancy_put hb (block.touch access)
  have hsame : (block.touch access).valid = block.valid := rfl
  rw [hsame] at hput
  omega

theorem occupancy_clear (hb : set.blocks[way]? = some block) (hv : block.valid = true) :
    ((set.put way block.clear).forget block.tag).occupancy + 1 = set.occupancy := by
  have hput := occupancy_put hb block.clear
  rw [hv] at hput
  exact hput

theorem occupancy_fill (hb : set.blocks[way]? = some block) (hv : block.valid = false)
    (tag : Nat) (kind : MemoryKind) (dirty : Bool) :
    ((set.put way (block.fill tag kind dirty)).enter tag way).occupancy = set.occupancy + 1 := by
  have hput := occupancy_put hb (block.fill tag kind dirty)
  rw [hv] at hput
  exact hput

/-- A set is full when all of its blocks carry lines. -/
theorem occupancy_eq_length_iff (set : CacheSet) :
    set.occupancy = set.blocks.length ↔ ∀ block ∈ set.blocks, block.valid = true :=
  List.countP_eq_length

end Counting

namespace WellFormed

variable {f : Frame} {index : Nat} {set : CacheSet}

theorem pairwise_blocks (h : set.WellFormed f index) :
    set.blocks.Pairwise fun block later => block.valid = true → later.holds block.tag = false := by
  rw [List.pairwise_iff_getElem]
  intro i j hi hj hlt hv
  rw [← Bool.not_eq_true]
  intro hholds
  have hsame := h.unique ⟨_, List.getElem?_eq_getElem hi, Block.holds_iff.2 ⟨hv, rfl⟩⟩
    ⟨_, List.getElem?_eq_getElem hj, hholds⟩
  omega

theorem checkUniqueTags_ok (h : set.WellFormed f index) : set.checkUniqueTags = .ok () := by
  rw [checkUniqueTags, duplicateTag?_eq_none_iff.2 h.pairwise_blocks]

/-- As many lines are resident as blocks are valid. -/
theorem ncard_residents (h : set.WellFormed f index) :
    {tag | (set.residence tag).isSome}.ncard = set.occupancy := by
  let tags := (set.blocks.filter (·.valid)).map (·.tag)
  have hnodup : tags.Nodup := by
    refine List.pairwise_map.2 (List.pairwise_filter.2 (h.pairwise_blocks.imp ?_))
    intro block later hpair hblock hlater heq
    have hholds : later.holds block.tag = true := Block.holds_iff.2 ⟨hlater, heq.symm⟩
    rw [hpair hblock] at hholds
    cases hholds
  have hset : {tag | (set.residence tag).isSome} = (tags.toFinset : Set Nat) := by
    ext tag
    simp only [Set.mem_ofPred_eq, Option.isSome_iff_exists, h.residence_eq_some_iff,
      List.coe_toFinset, tags, List.mem_map, List.mem_filter, Block.holds_iff]
    constructor
    · rintro ⟨r, block, hb, hholds, -⟩
      exact ⟨block, ⟨List.mem_of_getElem? hb, hholds.1⟩, hholds.2⟩
    · intro ⟨block, ⟨hmem, hv⟩, htag⟩
      obtain ⟨way, hb⟩ := List.getElem?_of_mem hmem
      exact ⟨⟨way, block.dirty⟩, block, hb, ⟨hv, htag⟩, rfl⟩
  rw [hset, Set.ncard_coe_finset, List.toFinset_card_of_nodup hnodup, List.length_map,
    occupancy, List.countP_eq_length_filter]

end WellFormed

/-! ## Departures and arrivals -/

/-- What a departure does to a set.  The block of the way is reported if it was
valid. -/
structure Vacated (set set' : CacheSet) (way : Nat) (victim : Option Block) : Prop where
  residence_eq : ∀ tag, set'.residence tag =
    if ∃ block ∈ victim, block.tag = tag then none else set.residence tag
  resident : ∀ block ∈ victim, set.residence block.tag = some ⟨way, block.dirty⟩
  occupancy_eq : set'.occupancy + victim.toList.length = set.occupancy
  isSome_iff : victim.isSome = true ↔ ∃ block, set.blocks[way]? = some block ∧ block.valid = true
  vacant : ∃ block, set'.blocks[way]? = some block ∧ block.valid = false

/-- What a fill does to a set: a line enters a way, in the place of the reported
line if the set was full. -/
structure Filled (set set' : CacheSet) (tag way : Nat) (dirty : Bool) (victim : Option Block) :
    Prop where
  residence_eq : ∀ sought, set'.residence sought =
    if sought = tag then some ⟨way, dirty⟩
    else if ∃ block ∈ victim, block.tag = sought then none
    else set.residence sought
  resident : ∀ block ∈ victim, block.tag ≠ tag ∧ set.residence block.tag = some ⟨way, block.dirty⟩
  isSome_iff : victim.isSome = true ↔ set.occupancy = set.blocks.length
  occupancy_eq : set'.occupancy + victim.toList.length = set.occupancy + 1

section Steps

variable {π : Type} [Policy π] [Policy.Tame π] {policy policy₁ policy₂ policy₃ : π} {f : Frame}
  {index way tag : Nat} {set set₁ set₂ set₃ : CacheSet} {victim : Option Block}

theorem WellFormed.hit (h : set.WellFormed f index) (hfind : set.find tag = some way)
    {access : AccessKind} (hhit : set.hit policy way access = .ok (policy₁, set₁)) :
    set₁.WellFormed f index ∧ set₁.occupancy = set.occupancy ∧
      ∀ sought, set₁.residence sought =
        if sought = tag then (set.residence tag).map (·.touch access) else set.residence sought := by
  obtain ⟨block, hb, hholds⟩ := h.find_eq_some_iff.1 hfind
  obtain ⟨hv, rfl⟩ := Block.holds_iff.1 hholds
  have hadjusted := hit_adjusted hb hv hhit
  have htouch := h.touch hb hv access
  refine ⟨htouch.adjusted hadjusted, hadjusted.occupancy_eq.trans (occupancy_touch hb access), ?_⟩
  intro sought
  rw [htouch.residence_adjusted hadjusted, h.residence_touch hb hv, h.residence_of_valid hb hv]
  rfl

theorem WellFormed.vacate (h : set.WellFormed f index)
    (hvacate : set.vacate policy way = .ok (victim, policy₁, set₁)) :
    set₁.WellFormed f index ∧ set.Vacated set₁ way victim := by
  obtain ⟨block, hb, ⟨hv, rfl, hadjusted⟩ | ⟨hv, rfl, -, rfl⟩⟩ := vacate_cases hvacate
  · have hclear := h.clear hb hv
    obtain ⟨hway, -⟩ := List.getElem?_eq_some_iff.1 hb
    refine ⟨hclear.adjusted hadjusted, ?_, ?_, ?_, ?_, ?_⟩
    · intro tag
      rw [hclear.residence_adjusted hadjusted, h.residence_clear hb hv]
      simp [eq_comm]
    · rintro _ ⟨⟩
      exact h.residence_of_valid hb hv
    · rw [hadjusted.occupancy_eq]
      exact occupancy_clear hb hv
    · exact ⟨fun _ => ⟨block, hb, hv⟩, fun _ => rfl⟩
    · obtain ⟨block', hb', hbare⟩ := hadjusted.exists_block (List.getElem?_set_self hway)
      exact ⟨block', hb', (Block.bare_eq_bare_iff.1 hbare).2.1⟩
  · refine ⟨h, fun tag => by simp, by simp, rfl, ?_, block, hb, hv⟩
    simp [hb, hv]

/-- The line that was looked up is valid, so it is the one that leaves. -/
theorem WellFormed.vacate_of_find (h : set.WellFormed f index) (hfind : set.find tag = some way)
    (hvacate : set.vacate policy way = .ok (victim, policy₁, set₁)) :
    set₁.WellFormed f index ∧ ∃ block, victim = some block ∧ block.tag = tag ∧
      set.residence tag = some ⟨way, block.dirty⟩ ∧
      ∀ sought, set₁.residence sought = if sought = tag then none else set.residence sought := by
  obtain ⟨h₁, hvacated⟩ := h.vacate hvacate
  obtain ⟨block, hb, hholds⟩ := h.find_eq_some_iff.1 hfind
  obtain ⟨hv, rfl⟩ := Block.holds_iff.1 hholds
  obtain ⟨gone, rfl⟩ := Option.isSome_iff_exists.1 (hvacated.isSome_iff.2 ⟨block, hb, hv⟩)
  have hgone := hvacated.resident gone rfl
  have htag : gone.tag = block.tag := by
    obtain ⟨found, hfound, hholds', -⟩ := h.residence_eq_some_iff.1 hgone
    rw [hb] at hfound
    cases hfound
    exact (Block.holds_iff.1 hholds').2.symm
  rw [htag] at hgone
  refine ⟨h₁, gone, rfl, htag, hgone, fun sought => ?_⟩
  rw [hvacated.residence_eq]
  simp [htag, eq_comm]

theorem WellFormed.accept (h : set.WellFormed f index) (habsent : set.residence tag = none)
    (hhas : f.geometry.Has ⟨index, tag⟩) {access : AccessKind}
    (haccept : set.accept policy way tag
      (.classify (f.geometry.addressOf ⟨index, tag⟩) f.regionBorder) access = .ok (policy₁, set₁)) :
    set₁.WellFormed f index ∧ set₁.occupancy = set.occupancy + 1 ∧
      ∀ sought, set₁.residence sought =
        if sought = tag then some ⟨way, access.isWrite⟩ else set.residence sought := by
  obtain ⟨block, hb, hv, hadjusted⟩ := accept_adjusted haccept
  have hnone := h.residence_eq_none_iff.1 habsent
  have hfill := h.fill hb hv hnone hhas access.isWrite
  refine ⟨hfill.adjusted hadjusted, ?_, ?_⟩
  · rw [hadjusted.occupancy_eq]
    exact occupancy_fill hb hv tag _ _
  · intro sought
    rw [hfill.residence_adjusted hadjusted, h.residence_fill hb hv hnone hhas]

/-- The three steps of a fill: a way is chosen, its line leaves and the new line
arrives. -/
theorem WellFormed.fillSteps (h : set.WellFormed f index) (habsent : set.residence tag = none)
    (hhas : f.geometry.Has ⟨index, tag⟩) {access : AccessKind}
    (hchoose : (Store.chooseWay set policy).result = .ok (way, policy₁, set₁))
    (hvacate : set₁.vacate policy₁ way = .ok (victim, policy₂, set₂))
    (haccept : set₂.accept policy₂ way tag
      (.classify (f.geometry.addressOf ⟨index, tag⟩) f.regionBorder) access = .ok (policy₃, set₃)) :
    set₃.WellFormed f index ∧ set.Filled set₃ tag way access.isWrite victim := by
  obtain ⟨hadjusted, block, hb, hfull⟩ := chooseWay_cases hchoose
  have h₁ := h.adjusted hadjusted
  have hresidence := h.residence_adjusted hadjusted
  obtain ⟨h₂, hvacated⟩ := h₁.vacate hvacate
  have habsent₂ : set₂.residence tag = none := by
    rw [hvacated.residence_eq, hresidence, habsent, ite_self]
  obtain ⟨h₃, hoccupancy, harrived⟩ := h₂.accept habsent₂ hhas haccept
  refine ⟨h₃, ?_, ?_, ?_, ?_⟩
  · intro sought
    rw [harrived, hvacated.residence_eq, hresidence]
  · intro departed hdeparted
    have hwas := hvacated.resident departed hdeparted
    rw [hresidence] at hwas
    refine ⟨?_, hwas⟩
    rintro rfl
    rw [habsent] at hwas
    cases hwas
  · -- The way that was chosen is occupied exactly when all ways are.
    obtain ⟨block₁, hb₁, hbare⟩ := hadjusted.exists_block hb
    have hsame : block₁.valid = block.valid := (Block.bare_eq_bare_iff.1 hbare).2.1
    rw [hvacated.isSome_iff, occupancy_eq_length_iff]
    constructor
    · intro ⟨found, hfound, hv⟩
      rw [hb₁] at hfound
      cases hfound
      exact hfull (hsame ▸ hv)
    · intro hall
      exact ⟨block₁, hb₁, hsame.trans (hall block (List.mem_of_getElem? hb))⟩
  · have := hvacated.occupancy_eq
    rw [hadjusted.occupancy_eq] at this
    omega

end Steps

end CacheSet

end AssocCache
