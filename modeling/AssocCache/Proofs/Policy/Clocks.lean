import AssocCache.Proofs.Policy.Stamps
import AssocCache.Proofs.Policy.Agreeing

/-!
# Two clocks, one order

The clock of the least recently used policy advances with the touches of every set, so
the stamps of a set tell how busy the other sets were.  Their order does not.
`Lru.InStep` relates two clocks and a set under each of them: the sets are equal but for
the stamps, and their recency orders list the same blocks.

Touches keep the relation, and so does each operation (`Lru.mimics`).  The second clock
is not ahead of the first one, so it does not overflow before it.
-/

namespace AssocCache

open Success CacheSet
open Policy (Apart Matching Departing Mimics Retains)

namespace CacheSet.Adjusted

variable {set set' : CacheSet}

theorem vacancy_eq (h : set.Adjusted set') : set'.vacancy = set.vacancy := by
  have hmap := congrArg (List.findIdx? (!·.valid)) h.blocks_eq
  rw [List.findIdx?_map, List.findIdx?_map] at hmap
  exact hmap

theorem find_eq (h : set.Adjusted set') (tag : Nat) : set'.find tag = set.find tag := by
  have hmap := congrArg (List.findIdx? (·.holds tag)) h.blocks_eq
  rw [List.findIdx?_map, List.findIdx?_map] at hmap
  have hscan : set'.scan tag = set.scan tag := hmap
  rw [find, find, h.tagIndex_eq, hscan]

theorem enter (h : set.Adjusted set') (tag way : Nat) :
    (set.enter tag way).Adjusted (set'.enter tag way) where
  index_eq := h.index_eq
  role_eq := h.role_eq
  tagIndex_eq := by simp only [CacheSet.enter, h.tagIndex_eq]
  blocks_eq := h.blocks_eq
  stack_perm := h.stack_perm

theorem checkUniqueTags_eq (h : set.Adjusted set') :
    set'.checkUniqueTags = set.checkUniqueTags := by
  have hbare : ∀ blocks : List Block,
      duplicateTag? (blocks.map Block.bare) = duplicateTag? blocks := by
    intro blocks
    induction blocks with
    | nil => rfl
    | cons block blocks ih =>
      rw [List.map_cons, duplicateTag?, duplicateTag?, ih, List.any_map]
      rfl
  have hblocks : duplicateTag? set'.blocks = duplicateTag? set.blocks := by
    rw [← hbare, h.blocks_eq, hbare]
  unfold checkUniqueTags broken
  rw [hblocks, h.index_eq]

end CacheSet.Adjusted

/-- What is left of a list when a member that one can tell apart is taken out. -/
theorem map_erase_of_injOn {α β : Type} [DecidableEq α] [DecidableEq β] {g : α → β} {x : α}
    {members : List α} (h : ∀ y ∈ members, g y = g x → y = x) :
    (members.erase x).map g = (members.map g).erase (g x) := by
  induction members with
  | nil => rfl
  | cons y members ih =>
    rw [List.forall_mem_cons] at h
    by_cases hy : y = x
    · rw [hy, List.erase_cons_head, List.map_cons, List.erase_cons_head]
    · rw [List.erase_cons_tail (by simpa using hy), List.map_cons, List.map_cons,
        List.erase_cons_tail (by simpa using fun hsame => hy (h.1 hsame)), ih h.2]

/-- A block of a set is known by what is left of it without its word. -/
theorem CacheSet.Ranked.map_bare_erase {f : Frame} {index clock way : Nat} {set : CacheSet}
    {order : List Block} {block : Block} (h : set.Ranked clock order)
    (hset : set.WellFormed f index)
    (hb : set.blocks[way]? = some block) :
    (order.erase block).map Block.bare = (order.map Block.bare).erase block.bare := by
  refine map_erase_of_injOn fun other hother hsame => ?_
  obtain ⟨place, hb', -⟩ := h.lists.mem_iff.1 hother
  have hway : place = way := by
    rw [← (hset.blocks hb').wayIndex_eq, ← (hset.blocks hb).wayIndex_eq]
    exact (Block.bare_eq_bare_iff.1 hsame).2.2.2.2.1
  subst hway
  rw [hb] at hb'
  exact (Option.some.inj hb').symm

namespace Lru

/-- The two sets are equal but for the stamps, which give the blocks the same order. -/
structure InStep (index : Nat) (policy : Lru) (set : CacheSet) (policy' : Lru) (set' : CacheSet) :
    Prop where
  index_eq : set.index = index
  adjusted : set.Adjusted set'
  clock_le : policy'.clock ≤ policy.clock
  clock_lt : policy.clock < 2 ^ 64
  ranked : ∃ order order', set.Ranked policy.clock order ∧ set'.Ranked policy'.clock order' ∧
    order'.map Block.bare = order.map Block.bare

/-- Touches of other sets let the first clock advance. -/
theorem retains_of_stamp (index : Nat) (policy : Lru) (set : CacheSet) (way : Nat) :
    Reaches (fun _ => True) (fun x => Retains (InStep index) policy x.1)
      (policy.stamp set way) := by
  refine (Reaches.any (set.setWord way policy.clock)).bind fun stamped _ => ?_
  refine (Reaches.any (Word.add 64 policy.clock 1)).attach.bind fun clock ⟨_, hclock⟩ => ?_
  obtain ⟨hlt, rfl⟩ := Word.add_eq_ok_iff.1 hclock
  refine .ok ⟨fun {set policy' set'} h => ?_⟩
  obtain ⟨order, order', hranked, hranked', hsame⟩ := h.ranked
  exact ⟨h.index_eq, h.adjusted, Nat.le_succ_of_le h.clock_le, hlt,
    order, order', hranked.mono (Nat.le_succ _), hranked', hsame⟩

theorem apart (index : Nat) : Apart index (InStep index) where
  chooseVictim _ := .ok (.refl _)
  onHit _ := retains_of_stamp index _ _ _
  onFill _ := .ok (.refl _)
  onInsert _ := retains_of_stamp index _ _ _
  onInvalidate _ := .ok (.refl _)

namespace InStep

variable {f : Frame} {index i way tag : Nat} {policy policy' : Lru} {set set' : CacheSet}
  {block block' : Block} {access : AccessKind} {kind : MemoryKind}

/-- Both clocks stamp the blocks in a way. -/
theorem stamp (h : InStep index policy set policy' set') (hset : set.WellFormed f i)
    (hb : set.blocks[way]? = some block) (hb' : set'.blocks[way]? = some block')
    {told told' : CacheSet} {touched touched' : Block} (hadjusted : told.Adjusted told')
    (hindex : told.index = set.index) (htold : told.blocks = set.blocks.set way touched)
    (htold' : told'.blocks = set'.blocks.set way touched') (hbare : touched'.bare = touched.bare)
    (hv : touched.valid = true) :
    Coupled (fun _ => True) (fun x x' => InStep index x.1 x.2 x'.1 x'.2) (policy.stamp told way)
      (policy'.stamp told' way) := by
  obtain ⟨hway, -⟩ := List.getElem?_eq_some_iff.1 hb
  obtain ⟨hway', -⟩ := List.getElem?_eq_some_iff.1 hb'
  have hget : told.blocks[way]? = some touched := by rw [htold, List.getElem?_set_self hway]
  have hget' : told'.blocks[way]? = some touched' := by rw [htold', List.getElem?_set_self hway']
  have hv' : touched'.valid = true := (Block.bare_eq_bare_iff.1 hbare).2.1.trans hv
  have hsame : block'.bare = block.bare := by
    have hmap := h.adjusted.getElem?_bare way
    rw [hb, hb'] at hmap
    exact Option.some.inj hmap
  obtain ⟨order, order', hranked, hranked', horder⟩ := h.ranked
  have hle := h.clock_le
  rw [Lru.stamp_eq_bind hget, Lru.stamp_eq_bind hget']
  refine (Word.coupled_add hle).bind ?_
  rintro _ _ ⟨hlt, rfl, rfl⟩
  refine .ok ⟨hindex.trans h.index_eq, hadjusted.put way hbare, Nat.succ_le_succ hle, hlt,
    touched.stamped policy.clock :: order.erase block,
    touched'.stamped policy'.clock :: order'.erase block', ?_, ?_, ?_⟩
  · exact hranked.stamp hb hv (by rw [blocks_put, htold, List.set_set])
  · exact hranked'.stamp hb' hv' (by rw [blocks_put, htold', List.set_set])
  · rw [List.map_cons, List.map_cons, hranked.map_bare_erase hset hb,
      hranked'.map_bare_erase (hset.adjusted h.adjusted) hb', horder, hsame]
    exact congrArg (· :: _) hbare

theorem hit (h : InStep index policy set policy' set') (hset : set.WellFormed f i)
    (hb : set.blocks[way]? = some block) (hv : block.valid = true) :
    Coupled (fun _ => True) (fun x x' => InStep index x.1 x.2 x'.1 x'.2)
      (set.hit policy way access) (set'.hit policy' way access) := by
  obtain ⟨block', hb', hbare⟩ := h.adjusted.exists_block hb
  have hvalid : block'.valid = block.valid := (Block.bare_eq_bare_iff.1 hbare).2.1
  have htouched := Block.bare_touch_congr hbare access
  rw [CacheSet.hit_eq hb hv, CacheSet.hit_eq hb' (hvalid.trans hv)]
  exact h.stamp hset hb hb' (h.adjusted.put way htouched) rfl rfl rfl htouched hv

theorem vacate (h : InStep index policy set policy' set') (hset : set.WellFormed f i)
    (hb : set.blocks[way]? = some block) :
    Coupled (fun _ => True)
      (fun x x' => x'.1.map Block.bare = x.1.map Block.bare ∧
        InStep index x.2.1 x.2.2 x'.2.1 x'.2.2)
      (set.vacate policy way) (set'.vacate policy' way) := by
  obtain ⟨block', hb', hbare⟩ := h.adjusted.exists_block hb
  obtain ⟨htag, hvalid, -⟩ := Block.bare_eq_bare_iff.1 hbare
  cases hv : block.valid with
  | false =>
    exact .of_eq_ok (CacheSet.vacate_of_invalid hb hv)
      (CacheSet.vacate_of_invalid hb' (hvalid.trans hv)) ⟨rfl, h⟩
  | true =>
    obtain ⟨order, order', hranked, hranked', horder⟩ := h.ranked
    refine .of_eq_ok (CacheSet.vacate_of_valid hb hv rfl)
      (CacheSet.vacate_of_valid hb' (hvalid.trans hv) rfl) ⟨congrArg some hbare, ?_⟩
    refine ⟨h.index_eq, ?_, h.clock_le, h.clock_lt, order.erase block, order'.erase block',
      hranked.clear hb rfl, hranked'.clear hb' rfl, ?_⟩
    · rw [htag]
      exact (h.adjusted.put way (Block.bare_clear_congr hbare)).forget block.tag
    · rw [hranked.map_bare_erase hset hb, hranked'.map_bare_erase (hset.adjusted h.adjusted) hb',
        horder, hbare]

theorem accept (h : InStep index policy set policy' set') (hset : set.WellFormed f i)
    (hb : set.blocks[way]? = some block) (hv : block.valid = false) :
    Coupled (fun _ => True) (fun x x' => InStep index x.1 x.2 x'.1 x'.2)
      (set.accept policy way tag kind access) (set'.accept policy' way tag kind access) := by
  obtain ⟨block', hb', hbare⟩ := h.adjusted.exists_block hb
  have hvalid : block'.valid = block.valid := (Block.bare_eq_bare_iff.1 hbare).2.1
  have hfilled := Block.bare_fill_congr hbare tag kind access.isWrite
  rw [CacheSet.accept_eq_bind hb hv fun _ => rfl,
    CacheSet.accept_eq_bind hb' (hvalid.trans hv) fun _ => rfl]
  have hstamp : Coupled (fun _ => True) (fun x x' => InStep index x.1 x.2 x'.1 x'.2)
      (policy.stamp ((set.put way (block.fill tag kind access.isWrite)).enter tag way) way)
      (policy'.stamp ((set'.put way (block'.fill tag kind access.isWrite)).enter tag way) way) :=
    h.stamp hset hb hb' ((h.adjusted.put way hfilled).enter tag way) rfl rfl rfl hfilled rfl
  refine hstamp.bind ?_
  intro ⟨policy₁, set₁⟩ ⟨policy₁', set₁'⟩ hafter
  dsimp only
  rw [hafter.adjusted.checkUniqueTags_eq]
  apply Coupled.bind_same set₁.checkUniqueTags
  intro _ _
  exact .ok hafter

/-- Two full sets give up the same way, whose block is the last one in both orders. -/
theorem leastWordWay_eq (h : InStep index policy set policy' set') (hset : set.WellFormed f i)
    (hpos : 0 < set.blocks.length) (hfull : set.vacancy = none) :
    set'.leastWordWay = set.leastWordWay := by
  have hset' := hset.adjusted h.adjusted
  have hpos' : 0 < set'.blocks.length := by rwa [h.adjusted.length_blocks]
  have hfull' : set'.vacancy = none := h.adjusted.vacancy_eq.trans hfull
  obtain ⟨order, order', hranked, hranked', horder⟩ := h.ranked
  have hlast := hranked.getLast?_eq hset hpos h.clock_lt (vacancy_eq_none_iff.1 hfull)
  have hlast' := hranked'.getLast?_eq hset' hpos' (Nat.lt_of_le_of_lt h.clock_le h.clock_lt)
    (vacancy_eq_none_iff.1 hfull')
  have hlt := leastWordWay_lt hpos
  have hlt' := leastWordWay_lt hpos'
  have hsame := congrArg List.getLast? horder
  rw [List.getLast?_map, List.getLast?_map, hlast, hlast', List.getElem?_eq_getElem hlt,
    List.getElem?_eq_getElem hlt'] at hsame
  have hway := (Block.bare_eq_bare_iff.1 (Option.some.inj hsame)).2.2.2.2.1
  rwa [(hset'.blocks (List.getElem?_eq_getElem hlt')).wayIndex_eq,
    (hset.blocks (List.getElem?_eq_getElem hlt)).wayIndex_eq] at hway

theorem choose (h : InStep index policy set policy' set') (hset : set.WellFormed f i)
    (hpos : 0 < set.blocks.length) :
    ∃ way block, set.blocks[way]? = some block ∧ set.choose policy = .ok (way, policy, set) ∧
      set'.choose policy' = .ok (way, policy', set') := by
  have hvacancy' := h.adjusted.vacancy_eq
  cases hvacancy : set.vacancy with
  | some way =>
    obtain ⟨block, hb, -⟩ := CacheSet.exists_of_vacancy hvacancy
    exact ⟨way, block, hb, CacheSet.choose_of_vacancy hvacancy _,
      CacheSet.choose_of_vacancy (hvacancy'.trans hvacancy) _⟩
  | none =>
    have hlt := leastWordWay_lt hpos
    have hsame := h.leastWordWay_eq hset hpos hvacancy
    refine ⟨set.leastWordWay, _, List.getElem?_eq_getElem hlt,
      CacheSet.choose_of_full hvacancy rfl hlt, ?_⟩
    rw [← hsame]
    refine CacheSet.choose_of_full (hvacancy'.trans hvacancy) rfl ?_
    rw [hsame, h.adjusted.length_blocks]
    exact hlt

theorem bringIn (h : InStep index policy set policy' set') (hset : set.WellFormed f i)
    (hpos : 0 < set.blocks.length) :
    Coupled (fun _ => True)
      (fun x x' => x'.1 = x.1 ∧ x'.2.1.map Block.bare = x.2.1.map Block.bare ∧
        InStep index x.2.2.1 x.2.2.2 x'.2.2.1 x'.2.2.2)
      (set.bringIn policy tag kind access) (set'.bringIn policy' tag kind access) := by
  obtain ⟨way, block, hb, hchoose, hchoose'⟩ := h.choose hset hpos
  have hchosen : Coupled (fun _ => True)
      (fun x x' => x = (way, policy, set) ∧ x' = (way, policy', set'))
      (set.choose policy) (set'.choose policy') := .of_eq_ok hchoose hchoose' ⟨rfl, rfl⟩
  refine hchosen.bind ?_
  rintro _ _ ⟨rfl, rfl⟩
  refine (h.vacate hset hb).attach.bind ?_
  intro ⟨victim, policy₁, set₁⟩ ⟨victim', policy₁', set₁'⟩ ⟨⟨hvictim, h₁⟩, hvacate, _⟩
  obtain ⟨hset₁, hvacated⟩ := hset.vacate hvacate
  obtain ⟨block₁, hb₁, hv₁⟩ := hvacated.vacant
  refine (h₁.accept hset₁ hb₁ hv₁).bind ?_
  intro ⟨policy₂, set₂⟩ ⟨policy₂', set₂'⟩ h₂
  exact .ok ⟨rfl, hvictim, h₂⟩

end InStep

/-- The operations on the sets do the same. -/
theorem mimics {f : Frame} (hvalid : f.geometry.Valid) (index : Nat) :
    Mimics f (fun _ => True) (InStep index) where
  find_eq tag _ h := h.adjusted.find_eq tag
  hit access hset h hfind := by
    obtain ⟨block, hb, hholds⟩ := hset.find_eq_some_iff.1 hfind
    refine (h.hit hset hb (Block.holds_iff.1 hholds).1).mono ?_
    intro x x' hafter
    exact .of_index InStep.index_eq hset h hafter
  bringIn access hset h _ _ := by
    have hpos : 0 < _ := hset.length_blocks ▸ hvalid.associativity_pos
    refine (h.bringIn hset hpos).mono ?_
    intro x x' ⟨hway, hvictim, hafter⟩
    exact ⟨hway, hvictim, .of_index InStep.index_eq hset h hafter⟩
  vacate hset h hfind := by
    obtain ⟨block, hb, -⟩ := hset.find_eq_some_iff.1 hfind
    refine (h.vacate hset hb).mono ?_
    intro x x' ⟨hvictim, hafter⟩
    exact ⟨hvictim, .of_index InStep.index_eq hset h hafter⟩

end Lru

end AssocCache
