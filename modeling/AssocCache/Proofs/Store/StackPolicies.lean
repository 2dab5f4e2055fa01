import AssocCache.Proofs.CacheSet.Residence
import AssocCache.Proofs.Policy.Clocks
import AssocCache.Proofs.Policy.FrontMoving
import AssocCache.Proofs.Policy.Stamps
import AssocCache.Proofs.Store.LeastRecentlyUsed

/-!
# Stack policies without distrust

The stack policies insert new lines where they are soon given up, but for some.  With an
interval that spares every line they are least recently used, kept by a stack and not by
stamps.

`Lru.Stacked` relates what the two know of a set: the sets are equal but for the words of
the blocks and the order of the stack, and the stack of the second set tells the same as
the stamps of the first one.  Each step keeps the relation (`Lru.mimics_frontMoving`), so
the stores give the same answers in every run and end with the same lines in the same
ways.
-/

/-!
## Stamps and stacks

Two ways to know which line of a set was used least recently: by the stamps in the
blocks, and by a stack of the ways.  `CacheSet.Recalls` says that a stack tells the same
as the stamps.  It speaks of the ways that hold a line only, so the others may stand
anywhere in the stack, and whatever stamps they have left behind have no part in it.

A touch stamps a way and moves it to the front (`Recalls.touch`), and a line that leaves
takes its way to the end (`Recalls.clear`).  The last way of the stack of a full set is
the one with the least stamp (`Recalls.getLast?_eq`).
-/

namespace AssocCache.CacheSet

/-- The stack lists the ways that hold a line by falling stamps. -/
structure Recalls (clock : Nat) (set : CacheSet) (stack : List Nat) : Prop where
  nodup : stack.Nodup
  falling : stack.Pairwise fun way older => ∀ block found : Block,
    set.blocks[way]? = some block → block.valid = true →
    set.blocks[older]? = some found → found.valid = true → found.word < block.word
  word_lt : ∀ {way : Nat} {block : Block},
    set.blocks[way]? = some block → block.valid = true → block.word < clock

namespace Recalls

variable {clock way : Nat} {set told : CacheSet} {stack : List Nat} {block : Block}

/-- The other ways keep their order when the block of a way is replaced. -/
theorem falling_erase (h : Recalls clock set stack)
    (htold : told.blocks = set.blocks.set way block) :
    (stack.erase way).Pairwise fun first older => ∀ block found : Block,
      told.blocks[first]? = some block → block.valid = true →
      told.blocks[older]? = some found → found.valid = true → found.word < block.word := by
  have hothers : ∀ other ∈ stack.erase way, told.blocks[other]? = set.blocks[other]? := by
    intro other hother
    rw [htold, List.getElem?_set_ne]
    intro hsame
    subst hsame
    exact h.nodup.not_mem_erase hother
  apply (h.falling.sublist List.erase_sublist).imp_of_mem
  intro first older hfirst holder hfalling
  rw [hothers first hfirst, hothers older holder]
  exact hfalling

/-- A way that holds a line and is stamped with the time moves to the front. -/
theorem touch (h : Recalls clock set stack) (hmem : way ∈ stack)
    (htold : told.blocks = set.blocks.set way (block.stamped clock)) :
    Recalls (clock + 1) told (Recency.place stack way 0) where
  nodup := (Recency.place_perm hmem 0).nodup_iff.2 h.nodup
  falling := by
    refine List.pairwise_cons.2 ⟨?_, h.falling_erase htold⟩
    intro older holder newest found hnewest _ hfound hv
    have hne : way ≠ older := by
      rintro rfl
      exact h.nodup.not_mem_erase holder
    rw [htold, List.getElem?_set_ne hne] at hfound
    have hstamp : newest.word = clock := by
      obtain ⟨hlt, rfl⟩ := List.getElem?_eq_some_iff.1 hnewest
      simp [htold, Block.stamped]
    rw [hstamp]
    exact h.word_lt hfound hv
  word_lt {other found} hfound hv := by
    rcases block_cases htold hfound with ⟨-, rfl⟩ | ⟨-, hold⟩
    · exact Nat.lt_succ_self clock
    · exact Nat.lt_succ_of_lt (h.word_lt hold hv)

/-- A way that holds no line any more moves to the end. -/
theorem clear (h : Recalls clock set stack) (hmem : way ∈ stack)
    (htold : told.blocks = set.blocks.set way block.clear) :
    Recalls clock told (Recency.place stack way stack.length) where
  nodup := (Recency.place_perm hmem _).nodup_iff.2 h.nodup
  falling := by
    have hvacant : ∀ found, told.blocks[way]? = some found → found.valid = false := by
      intro found hfound
      obtain ⟨hlt, rfl⟩ := List.getElem?_eq_some_iff.1 hfound
      simp [htold, Block.clear]
    rw [Recency.place_length_self]
    refine List.pairwise_append.2 ⟨h.falling_erase htold, List.pairwise_singleton _ _, ?_⟩
    intro first _ last hlast newest found _ _ hfound hv
    rw [List.mem_singleton] at hlast
    subst hlast
    rw [hvacant found hfound] at hv
    cases hv
  word_lt {other found} hfound hv := by
    rcases block_cases htold hfound with ⟨-, rfl⟩ | ⟨-, hold⟩
    · cases hv
    · exact h.word_lt hold hv

/-- Time may pass. -/
theorem mono (h : Recalls clock set stack) {clock' : Nat} (hle : clock ≤ clock') :
    Recalls clock' set stack :=
  { h with word_lt := fun hb hv => Nat.lt_of_lt_of_le (h.word_lt hb hv) hle }

/-- The stack of a full set ends with the way of the least stamp. -/
theorem getLast?_eq (h : Recalls clock set stack) (hpos : 0 < set.blocks.length)
    (hclock : clock < 2 ^ 64) (hmem : ∀ way, way ∈ stack ↔ way < set.blocks.length)
    (hfull : ∀ block ∈ set.blocks, block.valid = true) :
    stack.getLast? = some set.leastWordWay := by
  have hne : stack ≠ [] := List.ne_nil_of_mem ((hmem 0).2 hpos)
  have hlt := (hmem _).1 (List.getLast_mem hne)
  have hb := List.getElem?_eq_getElem hlt
  have hvalid := hfull _ (List.getElem_mem hlt)
  have hword := h.word_lt hb hvalid
  rw [List.getLast?_eq_some_getLast hne, leastWordWay_eq hb (by omega) ?_]
  intro other found hfound hother
  have hsplit := List.dropLast_append_getLast hne
  have hbefore : other ∈ stack.dropLast := by
    have hlisted := (hmem other).2 (List.getElem?_eq_some_iff.1 hfound).1
    rw [← hsplit, List.mem_append, List.mem_singleton] at hlisted
    exact hlisted.resolve_right hother
  have hfalling := h.falling
  rw [← hsplit, List.pairwise_append] at hfalling
  exact hfalling.2.2 other hbefore _ (List.mem_singleton_self _) found _ hfound
    (hfull found (List.mem_of_getElem? hfound)) hb hvalid

end Recalls

/-- Nothing is to be told of a set that holds no line. -/
theorem recalls_of_vacant {set : CacheSet} {stack : List Nat} (hnodup : stack.Nodup)
    (hvacant : ∀ block ∈ set.blocks, block.valid = false) (clock : Nat) :
    Recalls clock set stack := by
  have hnone : ∀ {way : Nat} {block : Block}, set.blocks[way]? = some block →
      block.valid = true → False := by
    intro way block hb hv
    rw [hvacant block (List.mem_of_getElem? hb)] at hv
    cases hv
  refine ⟨hnodup, ?_, fun hb hv => (hnone hb hv).elim⟩
  exact List.pairwise_of_forall fun first older block found hb hv _ _ => (hnone hb hv).elim

end AssocCache.CacheSet

/-! ## The steps of two sets -/

namespace AssocCache

open Success
open Policy (Matching Departing Mimics FrontMoving)

namespace Lru

/-- A way is stamped with the time, or the clock overflows. -/
theorem reaches_stamp {policy : Lru} {set : CacheSet} {way : Nat} {block : Block}
    (hb : set.blocks[way]? = some block) :
    Reaches Overflows (fun x => policy.clock + 1 < 2 ^ 64 ∧
        x = (⟨policy.clock + 1⟩, set.put way (block.stamped policy.clock)))
      (policy.stamp set way) := by
  rw [stamp_eq_bind hb]
  apply (Word.reaches_add policy.clock 1).bind
  rintro _ ⟨rfl, hlt⟩
  exact .ok ⟨hlt, rfl⟩

variable {π : Type} [Policy π] {Sound : π → Nat → Prop}

/-- The stack of the second set tells the same as the stamps of the first one. -/
structure Stacked (Sound : π → Nat → Prop) (policy : Lru) (set : CacheSet) (policy' : π)
    (set' : CacheSet) : Prop where
  adjusted : set.Adjusted set'
  recalls : set.Recalls policy.clock set'.stack
  clock_lt : policy.clock < 2 ^ 64
  sound : Sound policy' set.index

namespace Stacked

variable {f : Frame} {index way tag : Nat} {policy after : Lru} {policy' after' : π}
  {set set' : CacheSet} {block : Block} {access : AccessKind} {kind : MemoryKind}

omit [Policy π] in
/-- The other sets do not notice that time passes. -/
theorem matching (h : Stacked Sound after set after' set') (hclock : policy.clock ≤ after.clock)
    (hretains : ∀ index, Sound policy' index → Sound after' index) (index : Nat) :
    Matching (Stacked Sound) index policy policy' (after, set) (after', set') where
  here := h
  elsewhere _ hother :=
    ⟨hother.adjusted, hother.recalls.mono hclock, h.clock_lt, hretains _ hother.sound⟩

omit [Policy π] in
/-- One policy stamps a way that holds a line, the other one moves it to the front. -/
theorem stamp (h : Stacked Sound policy set policy' set') {told told' : CacheSet}
    {touched : Block} (hadjusted : told.Adjusted told') (hindex : told.index = set.index)
    (htold : told.blocks = set.blocks.set way touched) (hway : way < set.blocks.length)
    (hstack : told'.stack = set'.stack) (hmem : way ∈ set'.stack)
    (hretains : ∀ index, Sound policy' index → Sound after' index) :
    Coupled Overflows (Matching (Stacked Sound) index policy policy') (policy.stamp told way)
      (.ok (after', told'.restack way 0)) := by
  have hget : told.blocks[way]? = some touched := by
    rw [htold, List.getElem?_set_self hway]
  apply Coupled.of_reaches (reaches_stamp hget)
  rintro _ ⟨hlt, rfl⟩
  have hstamped := CacheSet.adjusted_of_setWord (CacheSet.setWord_eq hget policy.clock)
  have hmoved : told'.Adjusted (told'.restack way 0) := CacheSet.adjusted_restack (hstack ▸ hmem) 0
  have hblocks : (told.put way (touched.stamped policy.clock)).blocks =
      set.blocks.set way (touched.stamped policy.clock) := by
    rw [CacheSet.blocks_put, htold, List.set_set]
  have hfront : (told'.restack way 0).stack = Recency.place set'.stack way 0 := by
    rw [CacheSet.restack, hstack]
  have hafter : Stacked Sound ⟨policy.clock + 1⟩ (told.put way (touched.stamped policy.clock))
      after' (told'.restack way 0) := by
    refine ⟨(hstamped.symm.trans hadjusted).trans hmoved, ?_, hlt, ?_⟩
    · rw [hfront]
      exact h.recalls.touch hmem hblocks
    · show Sound after' told.index
      rw [hindex]
      exact hretains _ h.sound
  exact hafter.matching (Nat.le_succ _) hretains index

theorem hit (h : Stacked Sound policy set policy' set') (hm : FrontMoving Sound)
    (hset : set.WellFormed f index) (hb : set.blocks[way]? = some block)
    (hv : block.valid = true) :
    Coupled Overflows (Matching (Stacked Sound) index policy policy')
      (set.hit policy way access) (set'.hit policy' way access) := by
  obtain ⟨block', hb', hbare⟩ := h.adjusted.exists_block hb
  have hvalid : block'.valid = block.valid := (Block.bare_eq_bare_iff.1 hbare).2.1
  have hadjusted := h.adjusted.put way (Block.bare_touch_congr hbare access)
  have hmem : way ∈ set'.stack := (hset.adjusted h.adjusted).mem_stack_of_getElem? hb'
  have hsound : Sound policy' (set'.put way (block'.touch access)).index := by
    rw [hadjusted.index_eq]
    exact h.sound
  obtain ⟨after', hhook, hretains⟩ := hm.onHit hsound hmem
  rw [CacheSet.hit_eq hb hv, CacheSet.hit_eq hb' (hvalid.trans hv), hhook]
  exact h.stamp hadjusted rfl rfl (List.getElem?_eq_some_iff.1 hb).1 rfl hmem hretains

/-- A line leaves both sets.  Its way goes to the end of the stack. -/
theorem vacate (h : Stacked Sound policy set policy' set') (hm : FrontMoving Sound)
    (hset : set.WellFormed f index) (hb : set.blocks[way]? = some block) :
    Coupled Overflows (Departing (Stacked Sound) index policy policy')
      (set.vacate policy way) (set'.vacate policy' way) := by
  obtain ⟨block', hb', hbare⟩ := h.adjusted.exists_block hb
  obtain ⟨htag, hvalid, -⟩ := Block.bare_eq_bare_iff.1 hbare
  cases hv : block.valid with
  | false =>
    have hsame := h.matching (Nat.le_refl _) (fun _ hsound => hsound) index
    exact .of_eq_ok (CacheSet.vacate_of_invalid hb hv)
      (CacheSet.vacate_of_invalid hb' (hvalid.trans hv)) ⟨rfl, hsame⟩
  | true =>
    have hmem : way ∈ set'.stack := (hset.adjusted h.adjusted).mem_stack_of_getElem? hb'
    have hsound : Sound policy' set'.index := by
      rw [h.adjusted.index_eq]
      exact h.sound
    obtain ⟨after', hhook, hretains⟩ := hm.onInvalidate hsound hmem
    have hvacate' := CacheSet.vacate_eq_ok_iff.2
      ⟨block', hb', .inl ⟨hvalid.trans hv, rfl, _, block', hhook, hb', rfl⟩⟩
    have hmoved := h.adjusted.trans (CacheSet.adjusted_restack hmem set'.stack.length)
    have hadjusted := (hmoved.put way (Block.bare_clear_congr hbare)).forget block.tag
    rw [htag] at hvacate'
    have hafter : Stacked Sound policy ((set.put way block.clear).forget block.tag) after' _ :=
      ⟨hadjusted, h.recalls.clear hmem rfl, h.clock_lt, hretains _ h.sound⟩
    exact .of_eq_ok (CacheSet.vacate_of_valid hb hv rfl) hvacate'
      ⟨congrArg some hbare, hafter.matching (Nat.le_refl _) hretains index⟩

theorem accept (h : Stacked Sound policy set policy' set') (hm : FrontMoving Sound)
    (hset : set.WellFormed f index) (hb : set.blocks[way]? = some block)
    (hv : block.valid = false) :
    Coupled Overflows (Matching (Stacked Sound) index policy policy')
      (set.accept policy way tag kind access) (set'.accept policy' way tag kind access) := by
  obtain ⟨block', hb', hbare⟩ := h.adjusted.exists_block hb
  have hvalid : block'.valid = block.valid := (Block.bare_eq_bare_iff.1 hbare).2.1
  have hfilled := Block.bare_fill_congr hbare tag kind access.isWrite
  have hadjusted := (h.adjusted.put way hfilled).enter tag way
  have hmem : way ∈ set'.stack := (hset.adjusted h.adjusted).mem_stack_of_getElem? hb'
  have hsound : Sound policy'
      ((set'.put way (block'.fill tag kind access.isWrite)).enter tag way).index := by
    rw [hadjusted.index_eq]
    exact h.sound
  obtain ⟨told, after', hfill, hinsert, hretains⟩ := hm.arrival access hsound hmem h.recalls.nodup
    (CacheSet.getElem?_fill_self hb' (block'.fill tag kind access.isWrite) tag)
  have haccept' : set'.accept policy' way tag kind access =
      .ok (after', ((set'.put way (block'.fill tag kind access.isWrite)).enter tag way).restack
        way 0) >>= fun x => x.2.checkUniqueTags >>= fun _ => pure x := by
    rw [CacheSet.accept_of_vacant hb' (hvalid.trans hv), hfill]
    show Policy.onInsert told _ way access >>= _ = _
    rw [hinsert]
  rw [CacheSet.accept_eq_bind hb hv fun _ => rfl, haccept']
  have hstamp : Coupled Overflows (Matching (Stacked Sound) index policy policy')
      (policy.stamp ((set.put way (block.fill tag kind access.isWrite)).enter tag way) way) _ :=
    h.stamp hadjusted rfl rfl (List.getElem?_eq_some_iff.1 hb).1 rfl hmem hretains
  apply hstamp.bind
  rintro ⟨policy₁, set₁⟩ ⟨policy₁', set₁'⟩ hmatching
  dsimp only
  rw [hmatching.here.adjusted.checkUniqueTags_eq]
  exact .bind_same set₁.checkUniqueTags fun _ _ => .ok hmatching

/-- The least stamp and the end of the stack name the same way. -/
theorem choose (h : Stacked Sound policy set policy' set') (hm : FrontMoving Sound)
    (hset : set.WellFormed f index) (hpos : 0 < set.blocks.length) :
    ∃ way block, set.blocks[way]? = some block ∧ set.choose policy = .ok (way, policy, set) ∧
      set'.choose policy' = .ok (way, policy', set') := by
  have hvacancy' := h.adjusted.vacancy_eq
  cases hvacancy : set.vacancy with
  | some way =>
    obtain ⟨block, hb, -⟩ := CacheSet.exists_of_vacancy hvacancy
    exact ⟨way, block, hb, CacheSet.choose_of_vacancy hvacancy _,
      CacheSet.choose_of_vacancy (hvacancy'.trans hvacancy) _⟩
  | none =>
    have hlt := CacheSet.leastWordWay_lt hpos
    have hlisted : ∀ way, way ∈ set'.stack ↔ way < set.blocks.length := by
      intro way
      rw [(hset.adjusted h.adjusted).mem_stack, h.adjusted.length_blocks]
    have hlast := h.recalls.getLast?_eq hpos h.clock_lt hlisted
      (CacheSet.vacancy_eq_none_iff.1 hvacancy)
    refine ⟨set.leastWordWay, _, List.getElem?_eq_getElem hlt,
      CacheSet.choose_of_full hvacancy rfl hlt,
      CacheSet.choose_of_full (hvacancy'.trans hvacancy) (hm.chooseVictim hlast) ?_⟩
    rw [h.adjusted.length_blocks]
    exact hlt

theorem bringIn (h : Stacked Sound policy set policy' set') (hm : FrontMoving Sound)
    (hset : set.WellFormed f index) (hpos : 0 < set.blocks.length) :
    Coupled Overflows
      (fun x x' => x'.1 = x.1 ∧ Departing (Stacked Sound) index policy policy' x.2 x'.2)
      (set.bringIn policy tag kind access) (set'.bringIn policy' tag kind access) := by
  obtain ⟨way, block, hb, hchoose, hchoose'⟩ := h.choose hm hset hpos
  have hchosen : Coupled Overflows
      (fun x x' => x = (way, policy, set) ∧ x' = (way, policy', set'))
      (set.choose policy) (set'.choose policy') := .of_eq_ok hchoose hchoose' ⟨rfl, rfl⟩
  apply hchosen.bind
  rintro _ _ ⟨rfl, rfl⟩
  apply (h.vacate hm hset hb).attach.bind
  intro ⟨victim, policy₁, set₁⟩ ⟨victim', policy₁', set₁'⟩ ⟨hdeparting, hvacate, _⟩
  obtain ⟨hset₁, hvacated⟩ := hset.vacate hvacate
  obtain ⟨block₁, hb₁, hv₁⟩ := hvacated.vacant
  apply (hdeparting.matching.here.accept hm hset₁ hb₁ hv₁).bind
  intro ⟨policy₂, set₂⟩ ⟨policy₂', set₂'⟩ hmatching
  exact .ok ⟨rfl, hdeparting.victim_eq, hdeparting.matching.trans hmatching⟩

end Stacked

/-- A policy that moves to the front does on its stacks what the other one does on its
stamps. -/
theorem mimics_frontMoving {f : Frame} (hvalid : f.geometry.Valid) (hm : FrontMoving Sound) :
    Mimics f Overflows (Stacked Sound) where
  find_eq tag _ h := h.adjusted.find_eq tag
  hit access hset h hfind := by
    obtain ⟨block, hb, hholds⟩ := hset.find_eq_some_iff.1 hfind
    exact h.hit hm hset hb (Block.holds_iff.1 hholds).1
  bringIn access hset h _ _ := by
    apply h.bringIn hm hset
    rw [hset.length_blocks]
    exact hvalid.associativity_pos
  vacate hset h hfind := by
    obtain ⟨block, hb, -⟩ := hset.find_eq_some_iff.1 hfind
    exact h.vacate hm hset hb

/-! ## Stores -/

section Stores

open Store (create layout checkSize frameOf result_create Paired)

variable {c c' : Config} {g : Geometry} {value : π}

/-- A policy that is told of every set by a scan, and does not duel, gets the sets of the
other one. -/
theorem layout_eq (hfull : Policy.fullyAssociative value = false)
    (hduels : Policy.duelsSets value = false) :
    layout c' g value = layout c g ({} : Lru) := by
  unfold layout Store.leaderStride
  rw [hfull, hduels]
  rfl

/-- The two stores are built together, or neither is. -/
theorem result_create_eq (hgeometry : c.geometry = .ok g) (hgeometry' : c'.geometry = .ok g)
    (hborder : c'.regionBorder = c.regionBorder) (value : π)
    (hfull : Policy.fullyAssociative value = false) (hduels : Policy.duelsSets value = false) :
    (create c' value).result = (create c ({} : Lru)).result.map fun s =>
      { s with name := c'.name, policy := value } := by
  rw [result_create hgeometry, result_create hgeometry', layout_eq hfull hduels, hborder]
  cases layout c g ({} : Lru) <;> rfl

omit [Policy π] in
/-- The blocks of new sets say nothing yet. -/
theorem stacked_of_untouched {f : Frame} {index : Nat} {set : CacheSet}
    (hset : set.WellFormed f index) (huntouched : AnyPolicy.Untouched set)
    (hsound : Sound value index) : Stacked Sound {} set value set where
  adjusted := .refl set
  recalls := CacheSet.recalls_of_vacant hset.nodup_stack
    (fun block hblock => (huntouched block hblock).1) _
  clock_lt := by decide
  sound := by
    rw [hset.index_eq]
    exact hsound

omit [Policy π] in
/-- New stores of one shape are paired. -/
theorem paired_of_create {s : Store Lru} (hbuilt : (create c ({} : Lru)).result = .ok s)
    (hsound : ∀ index < s.geometry.numSets, Sound value index) (name : String) :
    Paired (frameOf c s.geometry ({} : Lru)) (Stacked Sound) s
      ({ s with name, policy := value } : Store π) := by
  have hwell := (Store.wellFormed_of_create hbuilt).2
  refine ⟨hwell, rfl, rfl, rfl, rfl, fun {index set} hset => ⟨set, hset, ?_⟩⟩
  rw [Store.policy_of_create hbuilt]
  exact stacked_of_untouched (hwell.sets hset) (Store.untouched_of_create hbuilt hset).1
    (hsound index (hwell.index_lt hset))

/-- A run of a least recently used store is a run of a store that moves to the front, or
it is long and the clock overflows. -/
theorem run_frontMoving (hm : FrontMoving Sound) {s : Store Lru}
    (hbuilt : (create c ({} : Lru)).result = .ok s)
    (hsound : ∀ index < s.geometry.numSets, Sound value index) (name : String)
    (calls : List Call) :
    (∃ history t t', Store.run calls s = .ok (history, t) ∧
        Store.run calls ({ s with name, policy := value } : Store π) = .ok (history, t') ∧
        t'.stats = t.stats ∧ ∀ index way : Nat,
          (t'.block? index way).map Block.bare = (t.block? index way).map Block.bare) ∨
      2 ^ 63 ≤ calls.length ∧ Store.run calls s = .error (.overflow .add) := by
  have hpaired := paired_of_create hbuilt hsound name
  have hcoupled := hpaired.run (mimics_frontMoving hpaired.wellFormed.valid hm) calls
  rcases Store.run_lru_cases hbuilt calls with ⟨history, t, hrun, -, -⟩ | hlong
  · left
    obtain ⟨⟨history', t'⟩, hrun', hhistory, hafter⟩ := hcoupled.exists_ok hrun
    obtain rfl : history' = history := hhistory
    exact ⟨history', t, t', hrun, hrun', hafter.stats_eq,
      hafter.map_block?_eq fun hstacked => hstacked.adjusted.getElem?_bare⟩
  · exact .inr hlong

/-- There are counters for the sets of a store that is built. -/
theorem exists_thrashResistant {s : Store Lru} (hbuilt : (create c ({} : Lru)).result = .ok s) :
    ∃ thrash, ThrashResistant.start s.geometry.numSets 0 = .ok thrash := by
  obtain ⟨geometry, sets, -, hlayout, rfl⟩ := Store.create_eq_ok_iff.1 hbuilt
  obtain ⟨_, -, hlayout⟩ := bind_eq_ok_iff.1 hlayout
  obtain ⟨_, hsize, -⟩ := bind_eq_ok_iff.1 hlayout
  obtain ⟨hsets, -⟩ := Store.checkSize_eq_ok_iff.1 (mapError_eq_ok_iff.1 hsize)
  -- A set takes more room than its counter.
  have hcounters : Counters.entryBytes * geometry.numSets < 2 ^ 63 := by
    unfold Counters.entryBytes
    unfold Store.setBytes at hsets
    omega
  have hrow := Counters.zeros_eq_ok_iff.2 ⟨hcounters, rfl⟩
  exact ⟨_, bind_eq_ok_iff.2 ⟨_, bind_eq_ok_iff.2 ⟨_, hrow, rfl⟩, rfl⟩⟩

/-- On stores of one geometry and one border of memory, bimodal insertion with an interval
of at most one and thrash-resistant replacement with an interval of zero are least
recently used.  All three answer every call of a run alike, have counted the same after
it, and have the same lines in the same ways, with the same marks and kinds.  A run that
ends otherwise is long enough for the clock to leave its range. -/
theorem stack_policies_run_as_lru {c c₁ c₂ : Config} {g : Geometry} {interval : Nat}
    (hgeometry : c.geometry = .ok g) (hgeometry₁ : c₁.geometry = .ok g)
    (hgeometry₂ : c₂.geometry = .ok g) (hborder₁ : c₁.regionBorder = c.regionBorder)
    (hborder₂ : c₂.regionBorder = c.regionBorder) (hinterval : interval ≤ 1) :
    (∃ failure, (create c ({} : Lru)).result = .error failure ∧
        (create c₁ (Bimodal.start interval)).result = .error failure ∧
        ∀ thrash : ThrashResistant, (create c₂ thrash).result = .error failure) ∨
      ∃ s s₁ thrash s₂, (create c ({} : Lru)).result = .ok s ∧
        (create c₁ (Bimodal.start interval)).result = .ok s₁ ∧
        ThrashResistant.start g.numSets 0 = .ok thrash ∧ (create c₂ thrash).result = .ok s₂ ∧
        ∀ calls : List Call,
          (∃ history t t₁ t₂, Store.run calls s = .ok (history, t) ∧
              Store.run calls s₁ = .ok (history, t₁) ∧ Store.run calls s₂ = .ok (history, t₂) ∧
              t₁.stats = t.stats ∧ t₂.stats = t.stats ∧
              ∀ index way : Nat,
                (t₁.block? index way).map Block.bare = (t.block? index way).map Block.bare ∧
                (t₂.block? index way).map Block.bare = (t.block? index way).map Block.bare) ∨
            2 ^ 63 ≤ calls.length ∧ Store.run calls s = .error (.overflow .add) := by
  have hcreate₁ := result_create_eq hgeometry hgeometry₁ hborder₁ (Bimodal.start interval) rfl rfl
  have hcreate₂ := fun thrash : ThrashResistant =>
    result_create_eq hgeometry hgeometry₂ hborder₂ thrash rfl rfl
  cases hbuilt : (create c ({} : Lru)).result with
  | error failure =>
    left
    rw [hbuilt] at hcreate₁ hcreate₂
    exact ⟨failure, rfl, hcreate₁, hcreate₂⟩
  | ok s =>
    right
    rw [hbuilt] at hcreate₁ hcreate₂
    obtain ⟨thrash, hthrash⟩ := exists_thrashResistant hbuilt
    have hbimodal := run_frontMoving Bimodal.frontMoving hbuilt
      (fun index _ => Bimodal.trusting_start hinterval index) c₁.name
    have hthrashing := run_frontMoving ThrashResistant.frontMoving hbuilt
      (fun index hindex => ThrashResistant.trusting_start hthrash hindex) c₂.name
    have hshape : s.geometry = g := by
      have hsame := (Store.wellFormed_of_create hbuilt).1
      rw [hgeometry] at hsame
      exact (Except.ok.inj hsame).symm
    rw [hshape] at hthrash
    refine ⟨s, _, thrash, _, rfl, hcreate₁, hthrash, hcreate₂ thrash, fun calls => ?_⟩
    rcases hbimodal calls with ⟨history, t, t₁, hrun, hrun₁, hstats₁, hblocks₁⟩ | hlong
    · left
      rcases hthrashing calls with ⟨history', t', t₂, hrun', hrun₂, hstats₂, hblocks₂⟩ | ⟨-, hfault⟩
      · rw [hrun] at hrun'
        cases hrun'
        exact ⟨history, t, t₁, t₂, hrun, hrun₁, hrun₂, hstats₁, hstats₂, fun index way =>
          ⟨hblocks₁ index way, hblocks₂ index way⟩⟩
      · rw [hrun] at hfault
        cases hfault
    · exact .inr hlong

/-- Two sets of two ways, on memory with a border.  The calls leave a vacant way in the
middle of a stack, fill it again, and evict under each policy. -/
theorem stack_policies_run_as_lru_of_hybrid_memory :
    ∃ (g : Geometry) (s t : Store Lru) (s₁ t₁ : Store Bimodal) (thrash : ThrashResistant)
        (s₂ t₂ : Store ThrashResistant) (history : List Exchange),
      ({ Config.ofShape .lru 256 64 2 with
        addressBits := 32, regionBorder := some 128 } : Config).geometry = .ok g ∧
      ThrashResistant.start g.numSets 0 = .ok thrash ∧
      (create { Config.ofShape .lru 256 64 2 with
        addressBits := 32, regionBorder := some 128 } ({} : Lru)).result = .ok s ∧
      (create { Config.ofShape .bimodal 256 64 2 with
        addressBits := 32, regionBorder := some 128 } (Bimodal.start 0)).result = .ok s₁ ∧
      (create { Config.ofShape .thrashResistant 256 64 2 with
        addressBits := 32, regionBorder := some 128 } thrash).result = .ok s₂ ∧
      Store.run [.access 0 .write, .access 128 .read, .access 0 .read, .invalidate 0,
        .access 256 .read, .probe 128 .write, .fill 384 .write, .access 64 .writeback] s =
          .ok (history, t) ∧
      Store.run [.access 0 .write, .access 128 .read, .access 0 .read, .invalidate 0,
        .access 256 .read, .probe 128 .write, .fill 384 .write, .access 64 .writeback] s₁ =
          .ok (history, t₁) ∧
      Store.run [.access 0 .write, .access 128 .read, .access 0 .read, .invalidate 0,
        .access 256 .read, .probe 128 .write, .fill 384 .write, .access 64 .writeback] s₂ =
          .ok (history, t₂) ∧
      t₁.stats = t.stats ∧ t₂.stats = t.stats := by
  have hgeometry : ({ Config.ofShape .lru 256 64 2 with
      addressBits := 32, regionBorder := some 128 } : Config).geometry =
        .ok ⟨256, 64, 2, 2, 6, 1, 32, 1⟩ := rfl
  have hgeometry₁ : ({ Config.ofShape .bimodal 256 64 2 with
      addressBits := 32, regionBorder := some 128 } : Config).geometry =
        .ok ⟨256, 64, 2, 2, 6, 1, 32, 1⟩ := rfl
  have hgeometry₂ : ({ Config.ofShape .thrashResistant 256 64 2 with
      addressBits := 32, regionBorder := some 128 } : Config).geometry =
        .ok ⟨256, 64, 2, 2, 6, 1, 32, 1⟩ := rfl
  rcases stack_policies_run_as_lru hgeometry hgeometry₁ hgeometry₂ rfl rfl (Nat.zero_le 1) with
    ⟨failure, hfailed, -⟩ | ⟨s, s₁, thrash, s₂, hcreate, hcreate₁, hthrash, hcreate₂, hruns⟩
  · cases hfailed
  · rcases hruns [.access 0 .write, .access 128 .read, .access 0 .read, .invalidate 0,
      .access 256 .read, .probe 128 .write, .fill 384 .write, .access 64 .writeback] with
        ⟨history, t, t₁, t₂, hrun, hrun₁, hrun₂, hstats₁, hstats₂, -⟩ | ⟨hlong, -⟩
    · exact ⟨_, s, t, s₁, t₁, thrash, s₂, t₂, history, hgeometry, hthrash, hcreate, hcreate₁,
        hcreate₂, hrun, hrun₁, hrun₂, hstats₁, hstats₂⟩
    · exact absurd hlong (by decide)

end Stores

end Lru

end AssocCache
