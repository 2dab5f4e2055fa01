import AssocCache.Proofs.CacheSet.Entries
import AssocCache.Proofs.Policy.Ranking

/-!
# Time stamps

The two policies that stamp a way with the time it was touched.  Both write the clock
into the block and let it advance, or end with the overflow of the clock
(`Lru.stamp_eq_bind`, `FullyAssociativeLru.stamp_eq_bind`).  A hit is a stamp, an
arrival is one too, and a departure leaves the stamp where it is.

A full set gives up the block with the least stamp.  The plain policy finds it by a
scan of the words (`CacheSet.leastWordWay_eq`), the fully associative one in its map
(`FullyAssociativeLru.Fits.oldestWay_eq`).
-/

namespace AssocCache

open Success CacheSet

variable {room way tag : Nat} {set : CacheSet} {block : Block} {access : AccessKind}
  {kind : MemoryKind}

/-- The block once it was touched at a time. -/
def Block.stamped (block : Block) (time : Nat) : Block := { block with word := time }

/-! ## Stamping -/

theorem Lru.stamp_eq_bind {policy : Lru} (hb : set.blocks[way]? = some block) :
    policy.stamp set way = Word.add 64 policy.clock 1 >>= fun clock =>
      pure (⟨clock⟩, set.put way (block.stamped policy.clock)) := by
  rw [stamp, setWord_eq hb]
  rfl

theorem FullyAssociativeLru.stamp_eq_bind {policy : FullyAssociativeLru}
    (hb : set.blocks[way]? = some block) :
    policy.stamp set way = Word.add 64 policy.clock 1 >>= fun clock =>
      pure (⟨(policy.recency.erase block.word).insert policy.clock way, clock⟩,
        set.put way (block.stamped policy.clock)) := by
  rw [stamp, blockAt_eq_ok_iff.2 hb]
  rfl

/-! ## Departures and arrivals -/

section Steps

variable {π : Type} [Policy π] {policy policy' : π}

theorem CacheSet.vacate_of_invalid (hb : set.blocks[way]? = some block)
    (hv : block.valid = false) : set.vacate policy way = .ok (none, policy, set) :=
  vacate_eq_ok_iff.2 ⟨block, hb, Or.inr ⟨hv, rfl, rfl, rfl⟩⟩

/-- A policy that leaves the set alone when a line departs. -/
theorem CacheSet.vacate_of_valid (hb : set.blocks[way]? = some block) (hv : block.valid = true)
    (hhook : Policy.onInvalidate policy set way = .ok (policy', set)) :
    set.vacate policy way =
      .ok (some block, policy', (set.put way block.clear).forget block.tag) :=
  vacate_eq_ok_iff.2 ⟨block, hb, Or.inl ⟨hv, rfl, set, block, hhook, hb, rfl⟩⟩

/-- An arrival in a vacant way. -/
theorem CacheSet.accept_of_vacant (hb : set.blocks[way]? = some block) (hv : block.valid = false) :
    set.accept policy way tag kind access =
      Policy.onFill policy ((set.put way (block.fill tag kind access.isWrite)).enter tag way) way >>=
        fun (policy, set) => Policy.onInsert policy set way access >>=
          fun (policy, set) => set.checkUniqueTags >>= fun _ => pure (policy, set) := by
  rw [accept, blockAt_eq_ok_iff.2 hb]
  show (if block.valid then _ else _) = _
  rw [hv, if_neg Bool.false_ne_true]

/-- An arrival under a policy that is told of it only once. -/
theorem CacheSet.accept_eq_bind (hb : set.blocks[way]? = some block) (hv : block.valid = false)
    (hhook : ∀ set : CacheSet, Policy.onFill policy set way = .ok (policy, set)) :
    set.accept policy way tag kind access =
      Policy.onInsert policy ((set.put way (block.fill tag kind access.isWrite)).enter tag way)
        way access >>= fun (policy, set) =>
          set.checkUniqueTags >>= fun _ => pure (policy, set) := by
  rw [accept_of_vacant hb hv, hhook]
  rfl

end Steps

/-! ## The oldest block -/

/-- The scan settles on the block with the least word, if that is below the starting
point. -/
theorem CacheSet.foldl_leastOf_eq {candidates : List (Block × Nat)} {best : Nat × Nat}
    (hbest : best = (block.word, way) ∨ (block, way) ∈ candidates ∧ block.word < best.1)
    (hleast : ∀ candidate ∈ candidates,
      candidate = (block, way) ∨ block.word < candidate.1.word) :
    candidates.foldl leastOf best = (block.word, way) := by
  induction candidates generalizing best with
  | nil =>
    simp at hbest
    exact hbest
  | cons candidate rest ih =>
    rw [List.foldl_cons]
    refine ih ?_ fun other hother => hleast other (List.mem_cons_of_mem _ hother)
    unfold leastOf
    rcases hleast candidate List.mem_cons_self with rfl | hlt
    · left
      rcases hbest with rfl | ⟨-, hlt⟩
      · simp
      · rw [if_pos hlt]
    · rcases hbest with rfl | ⟨hmem, hbelow⟩
      · left
        rw [if_neg (by simpa using Nat.le_of_lt hlt)]
      · right
        rcases List.mem_cons.1 hmem with rfl | hmem
        · exact absurd hlt (Nat.lt_irrefl _)
        · refine ⟨hmem, ?_⟩
          split
          · exact hlt
          · exact hbelow

/-- The block with the least word is the one that a full set gives up. -/
theorem CacheSet.leastWordWay_eq (hb : set.blocks[way]? = some block)
    (hword : block.word < 2 ^ 64 - 1)
    (hleast : ∀ {other : Nat} {found : Block}, set.blocks[other]? = some found → other ≠ way →
      block.word < found.word) : set.leastWordWay = way := by
  have hfold : set.blocks.zipIdx.foldl leastOf (2 ^ 64 - 1, 0) = (block.word, way) := by
    refine foldl_leastOf_eq (.inr ⟨List.mk_mem_zipIdx_iff_getElem?.2 hb, hword⟩) ?_
    intro ⟨found, other⟩ hmem
    have hfound := List.mk_mem_zipIdx_iff_getElem?.1 hmem
    by_cases hother : other = way
    · subst hother
      rw [hb] at hfound
      cases hfound
      exact Or.inl rfl
    · exact Or.inr (hleast hfound hother)
  rw [leastWordWay, hfold]

namespace FullyAssociativeLru

variable {policy : FullyAssociativeLru}

/-- The map and a scan of the words name the same victim of a full set. -/
theorem Fits.oldestWay_eq (h : Fits room policy set) (hpos : 0 < set.blocks.length)
    (hfull : ∀ block ∈ set.blocks, block.valid = true) :
    policy.oldestWay? = some set.leastWordWay := by
  obtain ⟨way, hway, -⟩ := h.exists_oldestWay hpos hfull
  rw [hway]
  obtain ⟨time, htime, hknown⟩ := Option.bind_eq_some_iff.1 hway
  obtain ⟨block, hb, -, rfl⟩ := h.known hknown
  have hmin := (Std.TreeMap.minKey?_eq_some_iff_mem_and_forall.1 htime).2
  have hclock := h.clock_lt
  have hlt := h.word_lt hb
  refine congrArg some (leastWordWay_eq hb (by omega) ?_).symm
  intro other found hfound hother
  have hstamp := h.knows hfound
  rw [if_pos (hfull found (List.mem_of_getElem? hfound))] at hstamp
  have hmem : found.word ∈ policy.recency := by
    rw [← Std.TreeMap.isSome_getElem?_iff_mem, hstamp]
    rfl
  have hle : block.word ≤ found.word := Nat.isLE_compare.1 (hmin _ hmem)
  -- One stamp belongs to one way, so the two differ.
  have hne : block.word ≠ found.word := by
    intro hsame
    rw [hsame, hstamp] at hknown
    exact hother (Option.some.inj hknown)
  omega

end FullyAssociativeLru

end AssocCache

/-!
## The recency order of a set

Under a policy of time stamps the valid blocks of a set have an order, the most
recently touched first.  `CacheSet.Ranked` lists them in it.  The stamps that invalid
blocks keep have no part in it, and neither has the order of the ways.

A touch or an arrival puts a block in front (`Ranked.stamp`), a departure takes one
out (`Ranked.clear`), and the block that a full set gives up is the last one
(`Ranked.getLast?_eq`).
-/

namespace AssocCache

open CacheSet

namespace CacheSet

/-- The list holds the valid blocks of the set, the most recently touched first. -/
structure Ranked (clock : Nat) (set : CacheSet) (order : List Block) : Prop where
  perm : order.Perm (set.blocks.filter (·.valid))
  sorted : order.Pairwise fun block older => older.word < block.word
  word_lt : ∀ block ∈ order, block.word < clock

namespace Ranked

variable {clock way : Nat} {set told : CacheSet} {order : List Block} {block block' : Block}

theorem lists (h : Ranked clock set order) : set.Lists order := h.perm

theorem mono (h : Ranked clock set order) {clock' : Nat} (hle : clock ≤ clock') :
    Ranked clock' set order :=
  { h with word_lt := fun block hblock => Nat.lt_of_lt_of_le (h.word_lt block hblock) hle }

/-- A block that carries a line and is stamped with the time is the most recent one. -/
theorem stamp (h : Ranked clock set order) (hb : set.blocks[way]? = some block)
    (hv : block'.valid = true)
    (htold : told.blocks = set.blocks.set way (block'.stamped clock)) :
    Ranked (clock + 1) told (block'.stamped clock :: order.erase block) where
  perm := h.lists.touch hb hv htold
  sorted := by
    refine List.pairwise_cons.2 ⟨?_, h.sorted.sublist List.erase_sublist⟩
    intro older holder
    exact h.word_lt older (List.mem_of_mem_erase holder)
  word_lt := by
    intro found hfound
    rcases List.mem_cons.1 hfound with rfl | hfound
    · exact Nat.lt_succ_self _
    · exact Nat.lt_succ_of_lt (h.word_lt found (List.mem_of_mem_erase hfound))

/-- A line that leaves takes its block out of the order. -/
theorem clear (h : Ranked clock set order) (hb : set.blocks[way]? = some block)
    (htold : told.blocks = set.blocks.set way block.clear) :
    Ranked clock told (order.erase block) where
  perm := h.lists.clear hb htold
  sorted := h.sorted.sublist List.erase_sublist
  word_lt found hfound := h.word_lt found (List.mem_of_mem_erase hfound)

/-- The last block of the order is the one with the least word. -/
theorem getLast?_eq {f : Frame} {index : Nat} (h : Ranked clock set order)
    (hset : set.WellFormed f index) (hpos : 0 < set.blocks.length) (hclock : clock < 2 ^ 64)
    (hfull : ∀ block ∈ set.blocks, block.valid = true) :
    order.getLast? = set.blocks[set.leastWordWay]? := by
  have hlength : 0 < order.length := by
    rw [h.lists.length_eq, (occupancy_eq_length_iff set).2 hfull]
    exact hpos
  have hne : order ≠ [] := List.ne_nil_of_length_pos hlength
  have hsplit := List.dropLast_append_getLast hne
  obtain ⟨way, hb, -⟩ := h.lists.mem_iff.1 (List.getLast_mem hne)
  have hword := h.word_lt _ (List.getLast_mem hne)
  rw [List.getLast?_eq_some_getLast hne, leastWordWay_eq hb (by omega) ?_, hb]
  intro other found hfound hother
  have hmem : found ∈ order :=
    h.lists.mem_iff.2 ⟨other, hfound, hfull found (List.mem_of_getElem? hfound)⟩
  have hdiffer : found ≠ order.getLast hne := by
    intro hsame
    rw [hsame] at hfound
    exact hother ((hset.blocks hfound).wayIndex_eq.symm.trans (hset.blocks hb).wayIndex_eq)
  rw [← hsplit, List.mem_append, List.mem_singleton] at hmem
  have hsorted := h.sorted
  rw [← hsplit, List.pairwise_append] at hsorted
  exact hsorted.2.2 found (hmem.resolve_right hdiffer) _ (List.mem_singleton_self _)

end Ranked

end CacheSet

end AssocCache
