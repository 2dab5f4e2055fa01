import AssocCache.Proofs.Store.LeastRecentlyUsed

/-!
# The two stores of least recently used lines

A store of one set can be built around the plain policy, which scans the set, or
around the fully associative one, which looks lines up in a tag index and victims in a
map of stamps.  `FullyAssociativeLru.Beside` relates what the two know: the clocks are
equal, the sets are equal but for the index, and the map is the inverse of the stamps
of the valid blocks.  Stamps that stay behind in invalid blocks are not in the map.

Each step keeps the relation (`FullyAssociativeLru.mimics`), so the two stores give
the same answers in every run and end with the same blocks.
-/

namespace AssocCache

open Success
open Policy (Matching Departing Mimics)

/-- The same set, which finds its lines by a scan. -/
def CacheSet.unindexed (set : CacheSet) : CacheSet := { set with tagIndex := none }

namespace FullyAssociativeLru

/-- What the two policies know of a set. -/
structure Beside (policy : FullyAssociativeLru) (set : CacheSet) (policy' : Lru)
    (set' : CacheSet) : Prop where
  clock_eq : policy'.clock = policy.clock
  fits : policy.Fits 0 set
  set_eq : set' = set.unindexed

namespace Beside

variable {f : Frame} {excused : Fault → Prop} {policy : FullyAssociativeLru} {policy' : Lru}
  {set set' : CacheSet} {index way tag : Nat} {block : Block} {access : AccessKind}
  {kind : MemoryKind}

/-- There is no other set to disturb. -/
theorem matching (h : Beside policy set policy' set') (hset : set.WellFormed f index)
    {x : FullyAssociativeLru × CacheSet} {x' : Lru × CacheSet}
    (h' : Beside x.1 x.2 x'.1 x'.2) : Matching Beside index policy policy' x x' where
  here := h'
  elsewhere {other other'} hother hbeside := by
    refine absurd ?_ hother
    rw [hbeside.fits.index_eq, ← hset.index_eq, h.fits.index_eq]

/-- Both policies stamp a way whose block is in place, or their clocks overflow. -/
theorem stamp (h : Beside policy set policy' set') (hb : set.blocks[way]? = some block)
    {told : CacheSet} {block' : Block} (hindex : told.index = set.index)
    (htold : told.blocks = set.blocks.set way block') (hword : block'.word = block.word)
    (hv : block'.valid = true) :
    Coupled excused (fun x x' => Beside x.1 x.2 x'.1 x'.2) (policy.stamp told way)
      (policy'.stamp told.unindexed way) := by
  obtain ⟨hway, -⟩ := List.getElem?_eq_some_iff.1 hb
  have hget : told.blocks[way]? = some block' := by
    rw [htold, List.getElem?_set_self hway]
  have hget' : told.unindexed.blocks[way]? = some block' := hget
  rw [FullyAssociativeLru.stamp_eq_bind hget, Lru.stamp_eq_bind hget', h.clock_eq]
  apply Coupled.bind_same (Word.add 64 policy.clock 1)
  intro clock hclock
  have hroom : policy.clock + 1 < 2 ^ 64 := (Word.add_eq_ok_iff.1 hclock).1
  have hfits : policy.Fits (0 + 1) set := { h.fits with clock_lt := hroom }
  obtain ⟨stamped, told', hstamp, hafter⟩ :=
    hfits.stamp hb (hindex.trans h.fits.index_eq) htold hword hv
  rw [FullyAssociativeLru.stamp_eq_bind hget, hclock] at hstamp
  cases hstamp
  exact .ok ⟨rfl, hafter, rfl⟩

theorem hit (h : Beside policy set policy' set') (hb : set.blocks[way]? = some block)
    (hv : block.valid = true) :
    Coupled excused (fun x x' => Beside x.1 x.2 x'.1 x'.2) (set.hit policy way access)
      (set'.hit policy' way access) := by
  obtain rfl := h.set_eq
  have hb' : set.unindexed.blocks[way]? = some block := hb
  rw [CacheSet.hit_eq hb hv, CacheSet.hit_eq hb' hv]
  exact h.stamp hb rfl rfl rfl hv

/-- A line leaves both sets, and its stamp leaves the map. -/
theorem vacate (h : Beside policy set policy' set') (hb : set.blocks[way]? = some block)
    (hv : block.valid = true) :
    Coupled excused (fun x x' => x.1 = some block ∧ x'.1 = some block ∧
        x.2.2 = (set.put way block.clear).forget block.tag ∧ Beside x.2.1 x.2.2 x'.2.1 x'.2.2)
      (set.vacate policy way) (set'.vacate policy' way) := by
  obtain rfl := h.set_eq
  have hhook : Policy.onInvalidate policy set way =
      .ok ({ policy with recency := policy.recency.erase block.word }, set) :=
    bind_eq_ok_iff.2 ⟨block, CacheSet.blockAt_eq_ok_iff.2 hb, rfl⟩
  refine .of_eq_ok (CacheSet.vacate_of_valid hb hv hhook) (CacheSet.vacate_of_valid hb hv rfl) ?_
  exact ⟨rfl, rfl, rfl, h.clock_eq, h.fits.depart hb hv block.tag, rfl⟩

theorem accept (h : Beside policy set policy' set') (hb : set.blocks[way]? = some block)
    (hv : block.valid = false) :
    Coupled excused (fun x x' => Beside x.1 x.2 x'.1 x'.2)
      (set.accept policy way tag kind access) (set'.accept policy' way tag kind access) := by
  obtain rfl := h.set_eq
  have hb' : set.unindexed.blocks[way]? = some block := hb
  rw [CacheSet.accept_eq_bind hb hv fun _ => rfl, CacheSet.accept_eq_bind hb' hv fun _ => rfl]
  have hstamp : Coupled excused (fun x x' => Beside x.1 x.2 x'.1 x'.2)
      (policy.stamp ((set.put way (block.fill tag kind access.isWrite)).enter tag way) way)
      (policy'.stamp
        ((set.unindexed.put way (block.fill tag kind access.isWrite)).enter tag way) way) :=
    h.stamp hb rfl rfl rfl rfl
  refine hstamp.bind ?_
  intro ⟨policy₁, set₁⟩ ⟨policy₁', set₁'⟩ hafter
  obtain rfl : set₁' = set₁.unindexed := hafter.set_eq
  -- The search for a tag that is resident twice looks at the blocks only.
  apply Coupled.bind_same set₁.checkUniqueTags
  intro _ _
  exact .ok hafter

/-- The map and the scan give up the same way. -/
theorem choose (h : Beside policy set policy' set') (hpos : 0 < set.blocks.length) :
    ∃ way block, set.blocks[way]? = some block ∧ set.choose policy = .ok (way, policy, set) ∧
      set'.choose policy' = .ok (way, policy', set') := by
  obtain rfl := h.set_eq
  have hsame : set.unindexed.vacancy = set.vacancy := rfl
  cases hvacancy : set.vacancy with
  | some way =>
    obtain ⟨block, hb, -⟩ := CacheSet.exists_of_vacancy hvacancy
    exact ⟨way, block, hb, CacheSet.choose_of_vacancy hvacancy _,
      CacheSet.choose_of_vacancy (hsame.trans hvacancy) _⟩
  | none =>
    have hfull := CacheSet.vacancy_eq_none_iff.1 hvacancy
    have hlt := CacheSet.leastWordWay_lt hpos
    have hchoice : Policy.chooseVictim policy set = .ok (set.leastWordWay, policy, set) := by
      simp only [Policy.chooseVictim, h.fits.oldestWay_eq hpos hfull]
    exact ⟨set.leastWordWay, _, List.getElem?_eq_getElem hlt,
      CacheSet.choose_of_full hvacancy hchoice hlt,
      CacheSet.choose_of_full (hsame.trans hvacancy) rfl hlt⟩

theorem bringIn (h : Beside policy set policy' set') (hset : set.WellFormed f index)
    (hpos : 0 < set.blocks.length) :
    Coupled excused (fun x x' => x'.1 = x.1 ∧ Departing Beside index policy policy' x.2 x'.2)
      (set.bringIn policy tag kind access) (set'.bringIn policy' tag kind access) := by
  obtain ⟨way, block, hb, hchoose, hchoose'⟩ := h.choose hpos
  obtain ⟨hway, -⟩ := List.getElem?_eq_some_iff.1 hb
  have hchosen : Coupled excused (fun x x' => x = (way, policy, set) ∧ x' = (way, policy', set'))
      (set.choose policy) (set'.choose policy') := .of_eq_ok hchoose hchoose' ⟨rfl, rfl⟩
  refine hchosen.bind ?_
  rintro _ _ ⟨rfl, rfl⟩
  cases hv : block.valid with
  | true =>
    refine (h.vacate hb hv).bind ?_
    rintro ⟨_, policy₁, _⟩ ⟨_, policy₁', set₁'⟩ ⟨rfl, rfl, rfl, hafter⟩
    have hcleared := List.getElem?_set_self (a := block.clear) hway
    refine (hafter.accept hcleared rfl).bind ?_
    intro ⟨policy₂, set₂⟩ ⟨policy₂', set₂'⟩ hafter₂
    exact .ok ⟨rfl, rfl, h.matching hset hafter₂⟩
  | false =>
    have hvacated : Coupled excused
        (fun x x' => x = (none, policy, set) ∧ x' = (none, policy', set'))
        (set.vacate policy way) (set'.vacate policy' way) := by
      obtain rfl := h.set_eq
      exact .of_eq_ok (CacheSet.vacate_of_invalid hb hv) (CacheSet.vacate_of_invalid hb hv)
        ⟨rfl, rfl⟩
    refine hvacated.bind ?_
    rintro _ _ ⟨rfl, rfl⟩
    refine (h.accept hb hv).bind ?_
    intro ⟨policy₂, set₂⟩ ⟨policy₂', set₂'⟩ hafter₂
    exact .ok ⟨rfl, rfl, h.matching hset hafter₂⟩

end Beside

/-- The plain policy does on the scanned sets what the other one does on the indexed
ones. -/
theorem mimics {f : Frame} (hvalid : f.geometry.Valid) (excused : Fault → Prop) :
    Mimics f excused Beside where
  find_eq tag hset h := by
    rw [hset.find_eq_scan, h.set_eq]
    rfl
  hit access hset h hfind := by
    obtain ⟨block, hb, hholds⟩ := hset.find_eq_some_iff.1 hfind
    refine (h.hit hb (Block.holds_iff.1 hholds).1).mono ?_
    intro x x' hafter
    exact h.matching hset hafter
  bringIn access hset h _ _ := by
    refine h.bringIn hset ?_
    rw [hset.length_blocks]
    exact hvalid.associativity_pos
  vacate hset h hfind := by
    obtain ⟨block, hb, hholds⟩ := hset.find_eq_some_iff.1 hfind
    refine (h.vacate hb (Block.holds_iff.1 hholds).1).mono ?_
    intro ⟨victim, policy₁, set₁⟩ ⟨victim', policy₁', set₁'⟩ ⟨hvictim, hvictim', _, hafter⟩
    refine ⟨?_, h.matching hset hafter⟩
    rw [hvictim, hvictim']

/-! ## Stores of one set -/

section Stores

open Store (create layout checkSize frameOf result_create Paired)

variable {c c' : Config} {g : Geometry} {f : Frame}

theorem layout_start (hsingle : g.numSets = 1) :
    layout c g start =
      ((checkSize g).mapError .aborted >>= fun _ =>
        pure #[CacheSet.indexed 0 g.associativity]) := by
  have hfull : Policy.fullyAssociative start = true := rfl
  rw [layout, if_pos hfull, if_pos hsingle]

/-- The empty sets of the two policies are the same but for the index. -/
theorem beside_start (associativity : Nat) :
    Beside start (.indexed 0 associativity) {} (.scanned 0 associativity (.ofIndex 0 0)) where
  clock_eq := rfl
  fits := AnyPolicy.fullyAssociativeLru_of_start (by decide) rfl (AnyPolicy.untouched_indexed _ _)
  set_eq := rfl

/-- On a geometry with one set the two stores are built together, or neither is. -/
theorem create_cases (hgeometry : c.geometry = .ok g) (hgeometry' : c'.geometry = .ok g)
    (hborder : c'.regionBorder = c.regionBorder) (hsingle : g.numSets = 1) :
    (∃ failure, (create c start).result = .error failure ∧
        (create c' ({} : Lru)).result = .error failure) ∨
      ∃ s s', (create c start).result = .ok s ∧ (create c' ({} : Lru)).result = .ok s' ∧
        Paired (frameOf c s.geometry start) Beside s s' := by
  have hcreate := result_create hgeometry start
  have hcreate' := result_create hgeometry' ({} : Lru)
  rw [layout_start hsingle] at hcreate
  cases hsize : checkSize g with
  | error fault =>
    left
    refine ⟨.aborted fault, ?_, ?_⟩
    · rw [hcreate, hsize]
      rfl
    · rw [hcreate']
      show Except.map _ ((checkSize g).mapError BuildFailure.aborted >>= _) = _
      rw [hsize]
      rfl
  | ok =>
    right
    rw [hsize] at hcreate
    have hlayout' : layout c' g ({} : Lru) = .ok (Array.ofFn fun index : Fin g.numSets =>
        CacheSet.scanned index g.associativity (.ofIndex index 0)) := by
      show ((checkSize g).mapError BuildFailure.aborted >>= _) = _
      rw [hsize]
      rfl
    rw [hlayout'] at hcreate'
    refine ⟨_, _, hcreate, hcreate', (Store.wellFormed_of_create hcreate).2, rfl, ?_, rfl, ?_, ?_⟩
    · rw [hborder]
    · show (Array.ofFn _).size = _
      rw [Array.size_ofFn, hsingle]
      rfl
    · intro index set hset
      obtain ⟨hlt, hget⟩ := Array.getElem?_eq_some_iff.1 hset
      have hzero : index = 0 := by
        have hsize : index < 1 := hlt
        omega
      subst hzero
      obtain rfl : CacheSet.indexed 0 g.associativity = set := hget
      refine ⟨_, ?_, beside_start g.associativity⟩
      show (Array.ofFn _)[0]? = _
      rw [Array.getElem?_ofFn, dif_pos (by omega)]

/-- On a geometry with one set, a store that keeps a tag index and a map of stamps gives
every call the answer of a store that scans for the smallest stamp.  After each run the
two have counted the same, and their blocks are the same, words included.  A run that is
long enough for a counter to leave its range ends both. -/
theorem runs_as_lru (hgeometry : c.geometry = .ok g) (hgeometry' : c'.geometry = .ok g)
    (hborder : c'.regionBorder = c.regionBorder) (hsingle : g.numSets = 1) :
    (∃ failure, (create c start).result = .error failure ∧
        (create c' ({} : Lru)).result = .error failure) ∨
      ∃ s s', (create c start).result = .ok s ∧ (create c' ({} : Lru)).result = .ok s' ∧
        ∀ calls : List Call,
          (∃ history t t', Store.run calls s = .ok (history, t) ∧
              Store.run calls s' = .ok (history, t') ∧ t'.stats = t.stats ∧
              ∀ index way : Nat, t'.block? index way = t.block? index way) ∨
            2 ^ 63 ≤ calls.length ∧ Store.run calls s = .error (.overflow .add) ∧
              Store.run calls s' = .error (.overflow .add) := by
  rcases create_cases hgeometry hgeometry' hborder hsingle with hfailed |
    ⟨s, s', hcreate, hcreate', hpaired⟩
  · exact .inl hfailed
  refine .inr ⟨s, s', hcreate, hcreate', fun calls => ?_⟩
  have hvalid := hpaired.wellFormed.valid
  have hcoupled := (hpaired.run (mimics hvalid fun _ => False) calls)
  rcases hrun : Store.run calls s with fault | ⟨history, t⟩
  · right
    have hrun' := hcoupled.eq_error hrun
    rcases Store.run_lru_cases hcreate' calls with ⟨history, t', hok, -, -⟩ | ⟨hlong, herror⟩
    · rw [hrun'] at hok
      cases hok
    · rw [hrun'] at herror
      cases herror
      exact ⟨hlong, rfl, hrun'⟩
  · left
    obtain ⟨⟨history', t'⟩, hrun', hhistory, hafter⟩ := hcoupled.exists_ok hrun
    obtain rfl : history' = history := hhistory
    have hblocks := hafter.block?_eq fun hbeside => by
      rw [hbeside.set_eq]
      rfl
    exact ⟨history', t, t', rfl, hrun', hafter.stats_eq, hblocks⟩

/-- One set of two ways.  The third line takes the way of the line that was used least
recently, an invalidation leaves a stamp behind, and the next line takes that way. -/
theorem runs_as_lru_of_two_ways :
    ∃ g s s' history t t',
      ({ Config.ofShape .fullyAssociativeLru 128 64 2 with addressBits := 32 } : Config).geometry =
        .ok g ∧ g.numSets = 1 ∧
      (create { Config.ofShape .fullyAssociativeLru 128 64 2 with addressBits := 32 }
        start).result = .ok s ∧
      (create { Config.ofShape .lru 128 64 2 with addressBits := 32 } ({} : Lru)).result = .ok s' ∧
      Store.run [.access 0 .write, .access 64 .read, .access 0 .read, .access 128 .read,
        .invalidate 0, .fill 192 .write, .fill 2 .read] s = .ok (history, t) ∧
      Store.run [.access 0 .write, .access 64 .read, .access 0 .read, .access 128 .read,
        .invalidate 0, .fill 192 .write, .fill 2 .read] s' = .ok (history, t') ∧
      ∀ index way : Nat, t'.block? index way = t.block? index way := by
  have hgeometry : ({ Config.ofShape .fullyAssociativeLru 128 64 2 with addressBits := 32 } :
      Config).geometry = .ok ⟨128, 64, 2, 1, 6, 0, 32, 1⟩ := rfl
  have hgeometry' : ({ Config.ofShape .lru 128 64 2 with addressBits := 32 } :
      Config).geometry = .ok ⟨128, 64, 2, 1, 6, 0, 32, 1⟩ := rfl
  rcases runs_as_lru hgeometry hgeometry' rfl rfl with
    ⟨failure, hfailed, -⟩ | ⟨s, s', hcreate, hcreate', hruns⟩
  · cases hfailed
  · rcases hruns [.access 0 .write, .access 64 .read, .access 0 .read, .access 128 .read,
      .invalidate 0, .fill 192 .write, .fill 2 .read] with
        ⟨history, t, t', hrun, hrun', -, hblocks⟩ | ⟨hlong, -⟩
    · exact ⟨_, s, s', history, t, t', hgeometry, rfl, hcreate, hcreate', hrun, hrun', hblocks⟩
    · exact absurd hlong (by decide)

end Stores

end FullyAssociativeLru

end AssocCache
