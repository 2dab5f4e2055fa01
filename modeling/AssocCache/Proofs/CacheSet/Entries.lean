import AssocCache.Proofs.CacheSet.Residence
import AssocCache.Proofs.RecencyLists
import Mathlib.Data.List.Perm.Basic

/-!
# The lines of a set as a list

`CacheSet.Lists` says of a list that it holds the valid blocks of a set, each of them once.
Which order they are in is a matter of the policy.

What a recency list tells of a set is such a list, seen by the addresses of the lines
(`Block.entry`).  Different lines of a set have different addresses, so looking a line up in
the list is looking its tag up in the set (`Lists.find?_entries`), and what is left without
the entry is what is left without the block (`Lists.filter_entries`).  A full list gives up
its last block (`Lists.makeRoom_of_full`).
-/

namespace AssocCache

/-- A block of the set with an index as an entry of a recency list. -/
def Block.entry (g : Geometry) (index : Nat) (block : Block) : Entry :=
  ⟨g.addressOf ⟨index, block.tag⟩, block.dirty⟩

namespace CacheSet

/-- The list holds the valid blocks of the set, each of them once. -/
def Lists (set : CacheSet) (order : List Block) : Prop :=
  order.Perm (set.blocks.filter (·.valid))

/-- The valid blocks of a set in which one block was replaced. -/
theorem perm_filter_set {blocks : List Block} {way : Nat} {block : Block}
    (hb : blocks[way]? = some block) (block' : Block) :
    ((blocks.set way block').filter (·.valid)).Perm
      (if block'.valid then block' :: (blocks.filter (·.valid)).erase block
        else (blocks.filter (·.valid)).erase block) := by
  obtain ⟨hway, rfl⟩ := List.getElem?_eq_some_iff.1 hb
  have hold := (List.getElem_cons_eraseIdx_perm hway).filter (·.valid)
  have hnew := (List.set_perm_cons_eraseIdx hway block').filter (·.valid)
  have hrest : ((blocks.eraseIdx way).filter (·.valid)).Perm
      ((blocks.filter (·.valid)).erase blocks[way]) := by
    cases hv : blocks[way].valid with
    | true =>
      rw [List.filter_cons_of_pos hv] at hold
      simpa using hold.erase blocks[way]
    | false =>
      rw [List.filter_cons_of_neg (by simp [hv])] at hold
      rw [List.erase_of_not_mem (by simp [hv])]
      exact hold
  refine hnew.trans ?_
  split
  · rename_i hv
    rw [List.filter_cons_of_pos hv]
    exact hrest.cons block'
  · rename_i hv
    rw [List.filter_cons_of_neg hv]
    exact hrest

namespace Lists

variable {f : Frame} {index way tag : Nat} {set told : CacheSet} {order : List Block}
  {block block' : Block}

theorem mem_iff (h : set.Lists order) :
    block ∈ order ↔ ∃ way : Nat, set.blocks[way]? = some block ∧ block.valid = true := by
  rw [List.Perm.mem_iff h, List.mem_filter, List.mem_iff_getElem?]
  simp

theorem length_eq (h : set.Lists order) : order.length = set.occupancy := by
  rw [List.Perm.length_eq h, occupancy, List.countP_eq_length_filter]

/-- The blocks of a set differ in their ways. -/
theorem nodup (h : set.Lists order) (hset : set.WellFormed f index) : order.Nodup := by
  have hblocks : set.blocks.Nodup := by
    refine List.nodup_iff_getElem?_ne_getElem?.2 fun way other hlt hother hsame => ?_
    have hb := List.getElem?_eq_getElem hother
    have hway := (hset.blocks hb).wayIndex_eq
    rw [← hsame] at hb
    exact hlt.ne ((hset.blocks hb).wayIndex_eq.symm.trans hway)
  exact (List.Perm.nodup_iff h).2 (hblocks.filter _)

/-- A block that carries a line takes the place of another block. -/
theorem touch (h : set.Lists order) (hb : set.blocks[way]? = some block)
    (hv : block'.valid = true) (htold : told.blocks = set.blocks.set way block') :
    told.Lists (block' :: order.erase block) := by
  have hset := perm_filter_set hb block'
  rw [if_pos hv, ← htold] at hset
  exact ((List.Perm.erase block h).cons _).trans hset.symm

/-- A line that leaves takes its block out of the list. -/
theorem clear (h : set.Lists order) (hb : set.blocks[way]? = some block)
    (htold : told.blocks = set.blocks.set way block.clear) : told.Lists (order.erase block) := by
  have hset := perm_filter_set hb block.clear
  rw [if_neg (by simp [Block.clear]), ← htold] at hset
  exact (List.Perm.erase block h).trans hset.symm

/-- The address of an entry names the line of its block. -/
theorem address_eq_iff (h : set.Lists order) (hvalid : f.geometry.Valid)
    (hset : set.WellFormed f index) (hhas : f.geometry.Has ⟨index, tag⟩) (hmem : block ∈ order) :
    (block.entry f.geometry index).address = f.geometry.addressOf ⟨index, tag⟩ ↔
      block.tag = tag := by
  obtain ⟨way, hb, hv⟩ := h.mem_iff.1 hmem
  rw [Block.entry, hvalid.addressOf_eq_iff ((hset.blocks hb).has hv) hhas, Line.eq_iff]
  simp

/-- The line of a block that is in the order is in no other block of it. -/
theorem tag_eq_iff (h : set.Lists order) (hset : set.WellFormed f index)
    {found : Block} (hmem : block ∈ order) (hfound : found ∈ order) :
    found.tag = block.tag ↔ found = block := by
  constructor
  · intro htag
    obtain ⟨way, hb, hv⟩ := h.mem_iff.1 hmem
    obtain ⟨other, hb', hv'⟩ := h.mem_iff.1 hfound
    have hcarries : set.Carries way block.tag := ⟨block, hb, Block.holds_iff.2 ⟨hv, rfl⟩⟩
    have hcarries' : set.Carries other block.tag := ⟨found, hb', Block.holds_iff.2 ⟨hv', htag⟩⟩
    rw [hset.unique hcarries' hcarries, hb] at hb'
    exact (Option.some.inj hb').symm
  · rintro rfl
    rfl

/-- The entry of a line that is resident. -/
theorem find?_entries (h : set.Lists order) (hvalid : f.geometry.Valid)
    (hset : set.WellFormed f index) (hmem : block ∈ order) :
    (order.map (Block.entry f.geometry index)).find?
        (·.address == f.geometry.addressOf ⟨index, block.tag⟩) =
      some (block.entry f.geometry index) := by
  obtain ⟨way, hb, hv⟩ := h.mem_iff.1 hmem
  have hhas := (hset.blocks hb).has hv
  rw [List.find?_map, Option.map_eq_some_iff]
  refine ⟨block, ?_, rfl⟩
  cases hfind : order.find? ((·.address == f.geometry.addressOf ⟨index, block.tag⟩) ∘
      Block.entry f.geometry index) with
  | none =>
    have hnone := List.find?_eq_none.1 hfind block hmem
    simp [Block.entry] at hnone
  | some found =>
    have hfound := List.mem_of_find?_eq_some hfind
    have haddress := List.find?_some hfind
    simp only [Function.comp_apply, beq_iff_eq] at haddress
    rw [h.address_eq_iff hvalid hset hhas hfound, h.tag_eq_iff hset hmem hfound] at haddress
    rw [haddress]

/-- A line that is absent has no entry. -/
theorem forall_entries_ne (h : set.Lists order) (hvalid : f.geometry.Valid)
    (hset : set.WellFormed f index) (hhas : f.geometry.Has ⟨index, tag⟩)
    (hfind : set.find tag = none) :
    ∀ entry ∈ order.map (Block.entry f.geometry index),
      entry.address ≠ f.geometry.addressOf ⟨index, tag⟩ := by
  intro entry hentry haddress
  obtain ⟨block, hmem, rfl⟩ := List.mem_map.1 hentry
  rw [h.address_eq_iff hvalid hset hhas hmem] at haddress
  obtain ⟨way, hb, hv⟩ := h.mem_iff.1 hmem
  exact hset.find_eq_none_iff.1 hfind way ⟨block, hb, Block.holds_iff.2 ⟨hv, haddress⟩⟩

/-- The entries without that of a block. -/
theorem filter_entries (h : set.Lists order) (hvalid : f.geometry.Valid)
    (hset : set.WellFormed f index) (hmem : block ∈ order) :
    (order.map (Block.entry f.geometry index)).filter
        (·.address != f.geometry.addressOf ⟨index, block.tag⟩) =
      (order.erase block).map (Block.entry f.geometry index) := by
  obtain ⟨way, hb, hv⟩ := h.mem_iff.1 hmem
  have hhas := (hset.blocks hb).has hv
  rw [List.filter_map, (h.nodup hset).erase_eq_filter]
  refine congrArg (List.map _) (List.filter_congr fun found hfound => ?_)
  have hsame := (h.address_eq_iff hvalid hset hhas hfound).trans (h.tag_eq_iff hset hmem hfound)
  rw [Bool.eq_iff_iff, Function.comp_apply, bne_iff_ne, bne_iff_ne, ne_eq, ne_eq, hsame]

/-- An entry tells which memory is behind the line of its block. -/
theorem kind_eq (h : set.Lists order) (hset : set.WellFormed f index) (hmem : block ∈ order) :
    .classify (block.entry f.geometry index).address f.regionBorder = block.kind := by
  obtain ⟨way, hb, hv⟩ := h.mem_iff.1 hmem
  exact ((hset.blocks hb).kind_eq hv).symm

/-- The entries are those of the valid blocks, each of them once. -/
theorem entries (h : set.Lists order) (hvalid : f.geometry.Valid) (hset : set.WellFormed f index) :
    (order.map (Block.entry f.geometry index)).length ≤ f.geometry.associativity ∧
      ((order.map (Block.entry f.geometry index)).map Entry.address).Nodup ∧
      ∀ entry, entry ∈ order.map (Block.entry f.geometry index) ↔
        ∃ (way : Nat) (block : Block), set.blocks[way]? = some block ∧ block.valid = true ∧
          entry = ⟨f.geometry.addressOf ⟨index, block.tag⟩, block.dirty⟩ := by
  refine ⟨?_, ?_, ?_⟩
  · rw [List.length_map, h.length_eq, ← hset.length_blocks]
    exact List.countP_le_length
  · rw [List.map_map, List.nodup_map_iff_inj_on (h.nodup hset)]
    intro block hmem other hother haddress
    obtain ⟨way, hb, hv⟩ := h.mem_iff.1 hother
    have htag := (h.address_eq_iff hvalid hset ((hset.blocks hb).has hv) hmem).1 haddress
    exact (h.tag_eq_iff hset hother hmem).1 htag
  · intro entry
    rw [List.mem_map]
    constructor
    · rintro ⟨block, hmem, rfl⟩
      obtain ⟨way, hb, hv⟩ := h.mem_iff.1 hmem
      exact ⟨way, block, hb, hv, rfl⟩
    · rintro ⟨way, block, hb, hv, rfl⟩
      exact ⟨block, h.mem_iff.2 ⟨way, hb, hv⟩, rfl⟩

/-! ## Room for a line -/

/-- The order without its last block. -/
theorem erase_getLast (h : set.Lists order) (hset : set.WellFormed f index)
    (hlast : order.getLast? = some block) : order.erase block = order.dropLast := by
  have hnodup := h.nodup hset
  have hsplit := List.dropLast_append_getLast? block hlast
  rw [← hsplit, List.nodup_append] at hnodup
  have hmem : block ∉ order.dropLast := by
    intro hmem
    exact hnodup.2.2 block hmem block (List.mem_singleton_self _) rfl
  calc order.erase block
      = (order.dropLast ++ [block]).erase block := by rw [hsplit]
    _ = order.dropLast := by
      rw [List.erase_append_right _ hmem, List.erase_cons_head, List.append_nil]

/-- Nothing has to go from a set with a vacancy. -/
theorem makeRoom_of_vacancy (h : set.Lists order) (hvacancy : set.vacancy = some way) :
    makeRoom set.blocks.length order = (none, order) := by
  obtain ⟨block, hb, hv⟩ := exists_of_vacancy hvacancy
  have hroom : order.length < set.blocks.length := by
    rw [h.length_eq]
    refine Nat.lt_of_le_of_ne List.countP_le_length fun hfull => ?_
    rw [(occupancy_eq_length_iff set).1 hfull block (List.mem_of_getElem? hb)] at hv
    cases hv
  rw [makeRoom, if_pos hroom]

/-- The last block of the list has to go from a full set. -/
theorem makeRoom_of_full (h : set.Lists order) (hset : set.WellFormed f index)
    (hvacancy : set.vacancy = none) (hlast : order.getLast? = some block) :
    makeRoom set.blocks.length order = (some block, order.erase block) := by
  have hnoroom : ¬ order.length < set.blocks.length := by
    rw [h.length_eq, (occupancy_eq_length_iff set).2 (vacancy_eq_none_iff.1 hvacancy)]
    exact Nat.lt_irrefl _
  rw [makeRoom, if_neg hnoroom, ← h.erase_getLast hset hlast, hlast]

end Lists

end CacheSet

end AssocCache
