import AssocCache.Proofs.Policy.Stamps
import AssocCache.Proofs.Store.Listed

/-!
# Least recently used stores keep recency lists

A store of least recently used lines keeps the lines of a set in the recency order of its
valid blocks (`Lru.listing`).  One clock serves all sets, so a touch of one set leaves the
stamps of the others below the clock, and their lists as they are.  Every line that comes in
is trusted, so the list machine that the store is compared with is that of recency lists
(`Store.Tracks`).

The answers of every run are those of the machine, and its lists are the lines of the sets
(`Tracks.run`).
-/

namespace AssocCache

open Success

namespace CacheSet.Ranked

variable {f : Frame} {clock index way tag : Nat} {set : CacheSet} {order : List Block}
  {block : Block} {policy : Lru} {access : AccessKind}

/-- A way whose block is in place is stamped, or the clock overflows. -/
theorem reaches_stamp (h : Ranked policy.clock set order) (hb : set.blocks[way]? = some block)
    {told : CacheSet} {block' : Block} (htold : told.blocks = set.blocks.set way block')
    (hv : block'.valid = true) :
    Reaches Overflows (fun x => policy.clock + 1 < 2 ^ 64 ∧ x.1.clock = policy.clock + 1 ∧
        Ranked (policy.clock + 1) x.2 (block'.stamped policy.clock :: order.erase block))
      (policy.stamp told way) := by
  obtain ⟨hway, -⟩ := List.getElem?_eq_some_iff.1 hb
  have hget : told.blocks[way]? = some block' := by
    rw [htold, List.getElem?_set_self hway]
  rw [Lru.stamp_eq_bind hget]
  refine (Word.reaches_add policy.clock 1).bind ?_
  rintro _ ⟨rfl, hlt⟩
  refine .ok ⟨hlt, rfl, h.stamp hb hv ?_⟩
  rw [blocks_put, htold, List.set_set]

theorem reaches_hit (h : Ranked policy.clock set order) (hb : set.blocks[way]? = some block)
    (hv : block.valid = true) :
    Reaches Overflows (fun x => policy.clock + 1 < 2 ^ 64 ∧ x.1.clock = policy.clock + 1 ∧
        Ranked (policy.clock + 1) x.2
          ((block.touch access).stamped policy.clock :: order.erase block))
      (set.hit policy way access) := by
  rw [hit_eq hb hv]
  exact h.reaches_stamp hb rfl hv

theorem reaches_accept (h : Ranked policy.clock set order) (hset : set.WellFormed f index)
    (hb : set.blocks[way]? = some block) (hv : block.valid = false)
    (habsent : ∀ other, ¬ set.Carries other tag) (hhas : f.geometry.Has ⟨index, tag⟩) :
    Reaches Overflows (fun x => policy.clock + 1 < 2 ^ 64 ∧ x.1.clock = policy.clock + 1 ∧
        ∃ newest, Ranked (policy.clock + 1) x.2 (newest :: order) ∧ newest.tag = tag ∧
          newest.dirty = access.isWrite)
      (set.accept policy way tag
        (.classify (f.geometry.addressOf ⟨index, tag⟩) f.regionBorder) access) := by
  have hvacant : order.erase block = order := by
    refine List.erase_of_not_mem fun hmem => ?_
    obtain ⟨_, -, hvalid⟩ := h.lists.mem_iff.1 hmem
    rw [hv] at hvalid
    cases hvalid
  have hfilled := hset.fill hb hv habsent hhas access.isWrite
  rw [accept_eq_bind hb hv fun _ => rfl]
  refine (h.reaches_stamp hb rfl rfl).attach.bind ?_
  intro ⟨policy₁, set₁⟩ ⟨⟨hlt, hclock, hranked⟩, hstamp⟩
  -- The line was absent, so the set that holds it now holds nothing twice.
  have hunique := (hfilled.adjusted (Lru.adjusted_of_stamp hstamp)).checkUniqueTags_ok
  dsimp only
  rw [hunique]
  rw [hvacant] at hranked
  exact .ok ⟨hlt, hclock, _, hranked, rfl, rfl⟩

end CacheSet.Ranked

namespace Lru

/-- The lines of a set are in the order of their stamps, and the clock is in range. -/
def Keeps (policy : Lru) (_ : Progress) (set : CacheSet) (order : List Block) : Prop :=
  set.Ranked policy.clock order ∧ policy.clock < 2 ^ 64

/-- Touches let the clock advance, which leaves the orders of the other sets as they are. -/
theorem leads_of_ranked {index clock : Nat} {policy policy' : Lru} {p p' : Progress}
    {set' : CacheSet} {order' : List Block} (hranked : set'.Ranked clock order')
    (hclock : policy'.clock = clock) (hle : policy.clock ≤ clock) (hlt : clock < 2 ^ 64) :
    Policy.Leads Keeps index policy p policy' p' set' order' := by
  subst hclock
  exact ⟨⟨hranked, hlt⟩, fun _ h => ⟨h.1.mono hle, hlt⟩⟩

/-- Least recently used lines are kept in recency lists. -/
theorem listing (f : Frame) : Policy.Listing f (fun _ _ _ _ => true) Keeps where
  lists _ h := h.1.lists
  hit {index way policy p set order block} access _ h hb hv := by
    refine (h.1.reaches_hit hb hv).mono fun x ⟨hlt, hclock, hranked⟩ => ?_
    exact ⟨(block.touch access).stamped policy.clock, rfl, rfl,
      leads_of_ranked hranked hclock (Nat.le_succ _) hlt⟩
  accept access hset h hb hv habsent hhas hkind := by
    subst hkind
    refine (h.1.reaches_accept hset hb hv habsent hhas).mono ?_
    intro x ⟨hlt, hclock, newest, hranked, htag, hdirty⟩
    exact ⟨newest, htag, hdirty, leads_of_ranked hranked hclock (Nat.le_succ _) hlt⟩
  vacate _ h hb hv := by
    rw [CacheSet.vacate_of_valid hb hv rfl]
    exact .ok ⟨rfl, leads_of_ranked (h.1.clear hb rfl) rfl (Nat.le_refl _) h.2⟩
  chooseVictim {index policy p set order} hset h hpos hfull := by
    have hb := List.getElem?_eq_getElem (CacheSet.leastWordWay_lt hpos)
    exact ⟨set.leastWordWay, _, rfl, hb, (h.1.getLast?_eq hset hpos h.2 hfull).trans hb⟩

end Lru

namespace Store

/-- The lists are the recency orders of the sets of the store. -/
structure Tracks (f : Frame) (s : Store Lru) (m : RecencyLists) : Prop where
  wellFormed : s.WellFormed f
  geometry_eq : m.geometry = f.geometry
  clock_lt : s.policy.clock < 2 ^ 64
  occupancy_eq : s.stats.occupancy = s.lineCount
  lists : ∀ {index : Nat} {set : CacheSet}, s.sets[index]? = some set →
    ∃ order, set.Ranked s.policy.clock order ∧
      m.lists index = order.map (Block.entry f.geometry index)

namespace Tracks

variable {f : Frame} {s : Store Lru} {m : RecencyLists} {a : Nat} {line : Line} {set : CacheSet}

/-- The recency lists as lists that trust every line. -/
def trustful (f : Frame) (m : RecencyLists) : TrustingLists :=
  { m with rule := fun _ _ _ _ => true, regionBorder := f.regionBorder, progress := .start }

theorem listed (h : Tracks f s m) :
    Listed f (fun _ _ _ _ => true) Lru.Keeps s (trustful f m) where
  wellFormed := h.wellFormed
  geometry_eq := h.geometry_eq
  regionBorder_eq := rfl
  rule_eq := rfl
  occupancy_eq := h.occupancy_eq
  lists hset := by
    obtain ⟨order, hranked, hlist⟩ := h.lists hset
    exact ⟨order, ⟨hranked, h.clock_lt⟩, hlist⟩

/-- A store has a set, so what the sets say of the clock holds of the store. -/
theorem of_listed {m : TrustingLists} (h : Listed f (fun _ _ _ _ => true) Lru.Keeps s m) :
    Tracks f s m.toRecencyLists where
  wellFormed := h.wellFormed
  geometry_eq := h.geometry_eq
  clock_lt := by
    obtain ⟨_, hset⟩ := h.wellFormed.exists_set h.wellFormed.valid.numSets_pos
    obtain ⟨_, hkeeps, -⟩ := h.lists hset
    exact hkeeps.2
  occupancy_eq := h.occupancy_eq
  lists hset := by
    obtain ⟨order, hkeeps, hlist⟩ := h.lists hset
    exact ⟨order, hkeeps.1, hlist⟩

/-- Whether an address is in the lists is whether its set holds the line. -/
theorem isSome_entry? (h : Tracks f s m) (hmaps : s.Maps a line set) :
    (m.entry? a).isSome = (set.find line.tag).isSome :=
  h.listed.isSome_entry? (Lru.listing f) hmaps

/-- A run is answered as the recency lists answer it. -/
theorem run (h : Tracks f s m) (calls : List Call) :
    Reaches Overflows
      (fun x => x.1.map (fun exchange => exchange.answer.map Reply.sight) = (m.run calls).1 ∧
        Tracks f x.2 (m.run calls).2)
      (Store.run calls s) := by
  have hagrees : TrustingLists.Agrees ((trustful f m).run calls) (m.run calls) :=
    TrustingLists.Trustful.run (fun _ _ _ _ => rfl) calls
  rw [← hagrees.answer_eq, ← hagrees.lists_eq]
  exact (h.listed.run (Lru.listing f) calls).mono fun x ⟨hanswers, hlisted⟩ =>
    ⟨hanswers, of_listed hlisted⟩

end Tracks

end Store

end AssocCache
