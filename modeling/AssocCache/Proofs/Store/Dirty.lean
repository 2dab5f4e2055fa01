import AssocCache.Proofs.Store.WellFormed

/-!
# Lines with pending writes

`Store.dirtyAt` says whether the block of an address is resident with pending
writes.  On a well-formed store these are the valid dirty blocks
(`WellFormed.dirtyAt_of_dirtyBlock`, `WellFormed.exists_dirtyBlock`).

An access changes this in two places only: a line that is written to becomes
dirty, and a line that leaves is reported with its mark (`WellFormed.settled`).
-/

namespace AssocCache.Store

variable {π : Type} {f : Frame} {s t : Store π} {a b : Nat}

/-- Whether the line of an address is resident with pending writes. -/
def dirtyAt (s : Store π) (address : Nat) : Bool := (s.residence address).any (·.dirty)

/-- The address is that of a valid dirty block. -/
def DirtyBlock (s : Store π) (address : Nat) : Prop :=
  ∃ (index : Nat) (set : CacheSet) (way : Nat) (block : Block),
    s.sets[index]? = some set ∧ set.blocks[way]? = some block ∧ block.valid = true ∧
      block.dirty = true ∧ address = s.geometry.addressOf ⟨index, block.tag⟩

/-- What an access does to the pending writes of a store.  `written` says whether it
was a write, and `gone` is the line that had to go. -/
structure Settled (f : Frame) (s t : Store π) (a : Nat) (written : Bool)
    (gone : Option Eviction) : Prop where
  marked : written = true → t.dirtyAt a = true
  kept : ∀ b, s.dirtyAt b = true → t.dirtyAt b = true ∨ ∃ evicted ∈ gone,
    evicted.wasDirty = true ∧ b / f.geometry.blockSize = evicted.address / f.geometry.blockSize
  source : ∀ b, t.dirtyAt b = true →
    s.dirtyAt b = true ∨ written = true ∧ b / f.geometry.blockSize = a / f.geometry.blockSize
  departed : ∀ evicted ∈ gone, evicted.wasDirty = true →
    evicted.address % f.geometry.blockSize = 0 ∧ s.dirtyAt evicted.address = true

theorem dirtyAt_eq_true_iff : s.dirtyAt a = true ↔ ∃ r, s.residence a = some r ∧ r.dirty = true := by
  unfold dirtyAt
  rw [Option.any_eq_true]

namespace WellFormed

theorem dirtyAt_eq_of_div_eq (h : s.WellFormed f)
    (hblock : b / f.geometry.blockSize = a / f.geometry.blockSize) :
    s.dirtyAt b = s.dirtyAt a := by
  rw [dirtyAt, dirtyAt, h.residence_eq_of_div_eq hblock]

/-! ## Dirty blocks -/

theorem dirtyAt_of_dirtyBlock (h : s.WellFormed f) (hdirty : s.DirtyBlock a) :
    a % f.geometry.blockSize = 0 ∧ s.dirtyAt a = true := by
  obtain ⟨index, set, way, block, hset, hb, hv, hd, rfl⟩ := hdirty
  have hresident := (h.sets hset).residence_of_valid hb hv
  obtain ⟨-, haligned, hresidence⟩ := h.departure hset hresident
  exact ⟨haligned, dirtyAt_eq_true_iff.2 ⟨_, hresidence, hd⟩⟩

theorem exists_dirtyBlock (h : s.WellFormed f) (hdirty : s.dirtyAt a = true) :
    s.DirtyBlock (f.geometry.blockSize * (a / f.geometry.blockSize)) := by
  obtain ⟨r, hr, hd⟩ := dirtyAt_eq_true_iff.1 hdirty
  have ha := h.lt_of_residence hr
  rw [h.residence_of_lt ha] at hr
  obtain ⟨set, hset, hresident⟩ := Option.bind_eq_some_iff.1 hr
  obtain ⟨block, hb, hholds, hmark⟩ := (h.sets hset).residence_eq_some_iff.1 hresident
  obtain ⟨hv, htag⟩ := Block.holds_iff.1 hholds
  refine ⟨_, set, r.way, block, hset, hb, hv, hmark.trans hd, ?_⟩
  rw [h.geometry_eq, htag]
  exact (h.valid.addressOf_lineOf ha).symm

/-! ## Accesses -/

variable [Policy π] [Policy.Tame π] {kind : AccessKind}

theorem settled_of_hit (h : s.WellFormed f) {lookup : Lookup}
    (hprobe : (Store.probe a kind).outcome s = .ok (lookup, t)) (hhit : lookup.hit = true) :
    Settled f s t a kind.isWrite none := by
  obtain ⟨-, hway, -, hview⟩ := h.probe hprobe
  obtain ⟨r, hr⟩ : ∃ r, s.residence a = some r := by
    rw [Lookup.hit, hway, Option.isSome_map] at hhit
    exact Option.isSome_iff_exists.1 hhit
  have hdirty : ∀ b, t.dirtyAt b =
      if b / f.geometry.blockSize = a / f.geometry.blockSize then r.dirty || kind.isWrite
      else s.dirtyAt b := by
    intro b
    rw [dirtyAt, hview, hr]
    split <;> rfl
  refine ⟨?_, ?_, ?_, ?_⟩
  · intro hwrite
    simp [hdirty, hwrite]
  · intro b hb
    left
    rw [hdirty]
    split
    · rename_i hblock
      rw [h.dirtyAt_eq_of_div_eq hblock, dirtyAt, hr] at hb
      have hd : r.dirty = true := hb
      rw [hd, Bool.true_or]
    · exact hb
  · intro b hb
    rw [hdirty] at hb
    split at hb
    · rename_i hblock
      rcases Bool.or_eq_true_iff.1 hb with hd | hw
      · left
        rw [h.dirtyAt_eq_of_div_eq hblock, dirtyAt, hr]
        exact hd
      · exact Or.inr ⟨hw, hblock⟩
    · exact Or.inl hb
  · intro evicted hevicted
    cases hevicted

/-- A probe that misses leaves all lines as they are. -/
theorem dirtyAt_of_miss (h : s.WellFormed f) {lookup : Lookup}
    (hprobe : (Store.probe a kind).outcome s = .ok (lookup, t)) (hmiss : lookup.hit = false) (b : Nat) :
    t.dirtyAt b = s.dirtyAt b := by
  obtain ⟨-, hway, -, hview⟩ := h.probe hprobe
  have hnone : s.residence a = none := by
    rw [Lookup.hit, hway, Option.isSome_map] at hmiss
    exact Option.isNone_iff_eq_none.1 (by simpa using hmiss)
  rw [dirtyAt, hview, hnone, Option.map_none, ← h.residence_eq_ite_of_eq_none hnone, dirtyAt]

theorem settled_of_fill (h : s.WellFormed f) {install : Install}
    (hfill : (Store.fill a kind).outcome s = .ok (install, t)) :
    Settled f s t a kind.isWrite install.evicted := by
  obtain ⟨-, hfilled⟩ := h.fill hfill
  refine ⟨?_, ?_, ?_, ?_⟩
  · intro hwrite
    rw [dirtyAt, hfilled.residence_eq, if_pos rfl]
    exact hwrite
  · intro b hb
    obtain ⟨r, hr, hd⟩ := dirtyAt_eq_true_iff.1 hb
    have hother : b / f.geometry.blockSize ≠ a / f.geometry.blockSize := by
      intro hblock
      rw [h.residence_eq_of_div_eq hblock, hfilled.absent] at hr
      cases hr
    by_cases hgone : ∃ evicted ∈ install.evicted,
        b / f.geometry.blockSize = evicted.address / f.geometry.blockSize
    · right
      obtain ⟨evicted, hevicted, hblock⟩ := hgone
      obtain ⟨-, -, -, hresident⟩ := hfilled.evicted evicted hevicted
      rw [h.residence_eq_of_div_eq hblock, hresident, Option.some.injEq] at hr
      subst hr
      exact ⟨evicted, hevicted, hd, hblock⟩
    · left
      rw [dirtyAt, hfilled.residence_eq, if_neg hother, if_neg hgone]
      exact hb
  · intro b hb
    rw [dirtyAt, hfilled.residence_eq] at hb
    split at hb
    · rename_i hblock
      exact Or.inr ⟨hb, hblock⟩
    · split at hb
      · cases hb
      · exact Or.inl hb
  · intro evicted hevicted hd
    obtain ⟨haligned, -, -, hresident⟩ := hfilled.evicted evicted hevicted
    exact ⟨haligned, dirtyAt_eq_true_iff.2 ⟨_, hresident, hd⟩⟩

theorem settled (h : s.WellFormed f) {outcome : AccessOutcome}
    (haccess : (access a kind).step s = (.ok outcome, t)) :
    t.WellFormed f ∧ Settled f s t a kind.isWrite outcome.evicted := by
  obtain ⟨lookup, u, hprobe, ⟨hhit, rfl, rfl⟩ | ⟨hmiss, install, hfill, rfl⟩⟩ :=
    access_eq_ok_iff.1 haccess
  · exact ⟨(h.probe hprobe).1, h.settled_of_hit hprobe hhit⟩
  · have hu := (h.probe hprobe).1
    have hsame := h.dirtyAt_of_miss hprobe hmiss
    obtain ⟨hmarked, hkept, hsource, hdeparted⟩ := hu.settled_of_fill hfill
    simp only [hsame] at hkept hsource hdeparted
    exact ⟨(hu.fill hfill).1, hmarked, hkept, hsource, hdeparted⟩

end WellFormed

end AssocCache.Store
