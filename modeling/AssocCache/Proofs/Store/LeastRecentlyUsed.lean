import AssocCache.Proofs.RecencyLists
import AssocCache.Proofs.Store.Accesses
import AssocCache.Proofs.Store.Opened
import AssocCache.Proofs.Store.Tracked

/-!
# Runs of least recently used stores

A new store tracks empty recency lists, so a run of a least recently used store is a
run of the list machine (`run_lru_cases`), whose entries are the valid lines of the
store (`Tracks.lines`).  The one way out is a counter that leaves its 64 bits, and no
run of fewer than `2 ^ 63` calls gets there.

The stores that configurations describe do what the stores around the policy itself
do, so the same holds of them.
-/

namespace AssocCache

open Success

/-- A set without lines has an empty recency order. -/
theorem CacheSet.ranked_nil {set : CacheSet} (h : AnyPolicy.Untouched set) (clock : Nat) :
    set.Ranked clock [] := by
  have hnone : set.blocks.filter (·.valid) = [] := by
    refine List.filter_eq_nil_iff.2 fun block hblock => ?_
    rw [(h block hblock).1]
    exact Bool.false_ne_true
  refine ⟨?_, .nil, ?_⟩
  · rw [hnone]
  · intro block hblock
    cases hblock

namespace Store

variable {c : Config} {f : Frame} {calls : List Call} {index : Nat} {set : CacheSet}

/-! ## Stores around the policy itself -/

/-- The lists of a store that tracks them hold its valid lines. -/
theorem Tracks.lines {s : Store Lru} {m : RecencyLists} (h : Tracks f s m)
    (hset : s.sets[index]? = some set) :
    (m.lists index).length ≤ f.geometry.associativity ∧
      ((m.lists index).map Entry.address).Nodup ∧
      ∀ entry, entry ∈ m.lists index ↔ ∃ (way : Nat) (block : Block),
        set.blocks[way]? = some block ∧ block.valid = true ∧
          entry = ⟨f.geometry.addressOf ⟨index, block.tag⟩, block.dirty⟩ := by
  obtain ⟨order, hranked, hlist⟩ := h.lists hset
  rw [hlist]
  exact hranked.lists.entries h.wellFormed.valid (h.wellFormed.sets hset)

variable {s : Store Lru}

/-- A new store is ready for any number of calls that 63 bits can count. -/
theorem ready_of_create_lru (hbuilt : (create c ({} : Lru)).result = .ok s) {room : Nat}
    (hroom : room < 2 ^ 63) : s.Ready (frameOf c s.geometry ({} : Lru)) room (2 * room) := by
  refine ready_of_create hbuilt (by omega) fun _ _ _ => ?_
  show 1 + room < 2 ^ 64
  omega

/-- A new store tracks empty lists. -/
theorem tracks_of_create (hbuilt : (create c ({} : Lru)).result = .ok s) :
    Tracks (frameOf c s.geometry ({} : Lru)) s (.empty s.geometry) := by
  refine Tracks.of_listed (listed_of_create hbuilt fun set huntouched _ => ?_)
  exact ⟨CacheSet.ranked_nil huntouched _, by decide⟩

/-- A run of a new store is a run of the list machine, or it is long and a counter
leaves its range. -/
theorem run_lru_cases (hbuilt : (create c ({} : Lru)).result = .ok s) (calls : List Call) :
    (∃ history t, run calls s = .ok (history, t) ∧
        history.map (fun exchange => exchange.answer.map Reply.sight) =
          ((RecencyLists.empty s.geometry).run calls).1 ∧
        Tracks (frameOf c s.geometry ({} : Lru)) t
          ((RecencyLists.empty s.geometry).run calls).2) ∨
      2 ^ 63 ≤ calls.length ∧ run calls s = .error (.overflow .add) := by
  have hreaches := (tracks_of_create hbuilt).run calls
  rcases hrun : run calls s with fault | ⟨history, t⟩
  · right
    have hfault : fault = .overflow .add := hreaches.of_error hrun
    refine ⟨?_, by rw [hfault]⟩
    by_contra hshort
    obtain ⟨history, t, hok⟩ :=
      (ready_of_create_lru hbuilt (Nat.lt_of_not_le hshort)).run_ok calls
    rw [hrun] at hok
    cases hok
  · left
    obtain ⟨hanswers, htracks⟩ := hreaches.of_ok hrun
    exact ⟨history, t, rfl, hanswers, htracks⟩

/-! ## Stores of configurations -/

/-- A least recently used store answers every run as the list machine does: a hit
moves a line to the front and marks it if it is written, a line that comes in goes to
the front and makes the last line of a full list leave, and an invalidation takes a
line out.  After the run the list of each set holds the valid lines of the set, each
of them once.  Only a counter that leaves its range ends a run, which takes at least
`2 ^ 63` calls. -/
theorem recency_lists_of_run {s : Store AnyPolicy} (hbuilt : (ofConfig c).result = .ok s)
    (hpolicy : c.policy = .lru) (calls : List Call) :
    c.geometry = .ok s.geometry ∧
      ((∃ history t, run calls s = .ok (history, t) ∧
          history.map (fun exchange => exchange.answer.map Reply.sight) =
            ((RecencyLists.empty s.geometry).run calls).1 ∧
          ∀ index < s.geometry.numSets, ∃ set, t.sets[index]? = some set ∧
            let entries := ((RecencyLists.empty s.geometry).run calls).2.lists index
            entries.length ≤ s.geometry.associativity ∧ (entries.map Entry.address).Nodup ∧
            ∀ entry, entry ∈ entries ↔ ∃ (way : Nat) (block : Block),
              set.blocks[way]? = some block ∧ block.valid = true ∧
                entry = ⟨s.geometry.addressOf ⟨index, block.tag⟩, block.dirty⟩) ∨
        2 ^ 63 ≤ calls.length ∧ run calls s = .error (.overflow .add)) := by
  obtain ⟨geometry, policy, hgeometry, hkind, hcreate⟩ := ofConfig_eq_ok_iff.1 hbuilt
  have hshape := (wellFormed_of_create hcreate).1
  refine ⟨hshape, ?_⟩
  obtain rfl : policy = .lru {} := by
    unfold AnyPolicy.ofConfig at hkind
    rw [hpolicy] at hkind
    exact (Except.ok.inj hkind).symm
  obtain ⟨s₀, hcreate₀, hsame, hcoupled⟩ := AnyPolicy.run_opened (.lru {}) ({} : Lru) hcreate
  have halike := hcoupled calls
  rw [hsame]
  rcases run_lru_cases hcreate₀ calls with ⟨history, t, hrun, hanswers, htracks⟩ | ⟨hlong, hrun⟩
  · left
    obtain ⟨⟨history', t'⟩, hrun', hhistory, -, hsets⟩ := halike.exists_ok hrun
    obtain rfl : history' = history := hhistory
    refine ⟨history', t', hrun', hanswers, fun index hindex => ?_⟩
    have hlt : index < t.sets.size := by
      rw [htracks.wellFormed.size_sets]
      exact hindex
    have hset : t.sets[index]? = some t.sets[index] := Array.getElem?_eq_getElem hlt
    refine ⟨t.sets[index], ?_, htracks.lines hset⟩
    rw [← hset]
    exact congrArg (·[index]?) hsets
  · exact Or.inr ⟨hlong, halike.eq_error hrun⟩

/-- Two sets of two ways.  The third line of the first set makes the least recently
used one leave, which a write had marked. -/
theorem recency_lists_of_mixed_calls :
    ∃ s history t, (ofConfig { Config.ofShape .lru 256 64 2 with addressBits := 32 }).result =
        .ok s ∧
      run [.access 0 .write, .access 128 .read, .access 4 .read, .fill 0 .read,
        .access 256 .read, .fill 384 .write, .invalidate 300] s = .ok (history, t) ∧
      history.map (fun exchange => exchange.answer.map Reply.sight) =
        [.ok (.access false none), .ok (.access false none), .ok (.access true none),
          .error (.alreadyResident 0), .ok (.access false (some ⟨128, false⟩)),
          .ok (.install (some ⟨0, true⟩)), .ok (.departure (some ⟨256, false⟩))] := by
  obtain ⟨s, hbuilt, hgeometry⟩ : ∃ s, (ofConfig { Config.ofShape .lru 256 64 2 with
      addressBits := 32 }).result = .ok s ∧ s.geometry = ⟨256, 64, 2, 2, 6, 1, 32, 1⟩ :=
    ⟨_, rfl, rfl⟩
  rcases (recency_lists_of_run hbuilt rfl [.access 0 .write, .access 128 .read, .access 4 .read,
    .fill 0 .read, .access 256 .read, .fill 384 .write, .invalidate 300]).2 with
      ⟨history, t, hrun, hanswers, -⟩ | ⟨hlong, -⟩
  · refine ⟨s, history, t, hbuilt, hrun, ?_⟩
    rw [hanswers, hgeometry]
    rfl
  · exact absurd hlong (by decide)

end Store

end AssocCache

/-!
## The resident lines of a least recently used store

A store that a configuration describes, and whose policy is to evict the least
recently used line, holds the lines that the recency lists hold (`run_lru_of_ofConfig`).
What is then proved about lists of lines holds of the residence of addresses.
-/

namespace AssocCache

namespace Store

variable {f : Frame} {a : Nat}

/-- What a store tells about an address depends on its geometry and its sets alone. -/
theorem residence_congr {π π' : Type} {s : Store π} {t : Store π'}
    (hgeometry : t.geometry = s.geometry) (hsets : t.sets = s.sets) :
    t.residence a = s.residence a := by
  unfold residence residenceOf
  rw [hgeometry, hsets]

/-- The resident addresses are those of the lines in the lists. -/
theorem Tracks.isSome_residence_iff {s : Store Lru} {m : RecencyLists} (h : Tracks f s m) :
    (s.residence a).isSome = true ↔
      a < 2 ^ f.geometry.addressBits ∧ m.lineAddress a ∈ m.lines (m.setIndex a) := by
  rcases h.wellFormed.maps_cases a with ⟨ha, set, hmaps⟩ | ⟨ha, -⟩
  · obtain ⟨-, -, -, hset⟩ := h.wellFormed.of_maps hmaps
    rw [← RecencyLists.isSome_entry?_iff, h.isSome_entry? hmaps, h.wellFormed.residence_of_lt ha,
      residenceOf_eq hmaps.2, ← hset.map_way_residence, Option.isSome_map]
    exact (and_iff_right ha).symm
  · rw [h.wellFormed.residence_of_le ha]
    constructor
    · intro hsome
      cases hsome
    · intro ⟨hlt, _⟩
      omega

variable {c : Config} {s : Store AnyPolicy}

/-- A run of a least recently used store is a run of the list machine, whose lines are
the resident ones, or it is long and a counter leaves its range. -/
theorem run_lru_of_ofConfig (hbuilt : (ofConfig c).result = .ok s) (hpolicy : c.policy = .lru)
    (calls : List Call) :
    (∃ history t, run calls s = .ok (history, t) ∧
        history.map (fun exchange => exchange.answer.map Reply.sight) =
          ((RecencyLists.empty s.geometry).run calls).1 ∧
        s.stats.hits = 0 ∧
        ∃ f t₀, Tracks f t₀ ((RecencyLists.empty s.geometry).run calls).2 ∧
          f.geometry = s.geometry ∧ ∀ a, t.residence a = t₀.residence a) ∨
      2 ^ 63 ≤ calls.length ∧ run calls s = .error (.overflow .add) := by
  obtain ⟨geometry, policy, hgeometry, hkind, hcreate⟩ := ofConfig_eq_ok_iff.1 hbuilt
  have hfresh := (wellFormed_of_create hcreate).2
  obtain rfl : policy = .lru {} := by
    unfold AnyPolicy.ofConfig at hkind
    rw [hpolicy] at hkind
    exact (Except.ok.inj hkind).symm
  obtain ⟨s₀, hcreate₀, hsame, hcoupled⟩ := AnyPolicy.run_opened (.lru {}) ({} : Lru) hcreate
  have halike := hcoupled calls
  rw [hsame]
  rcases run_lru_cases hcreate₀ calls with ⟨history, t, hrun, hanswers, htracks⟩ | ⟨hlong, hrun⟩
  · obtain ⟨⟨history', t'⟩, hrun', hhistory, -, hsets⟩ := halike.exists_ok hrun
    obtain rfl : history' = history := hhistory
    have hgeometry' : t'.geometry = t.geometry := by
      rw [(hfresh.run hrun').geometry_eq, htracks.wellFormed.geometry_eq]
      exact hsame
    refine Or.inl ⟨history', t', hrun', hanswers, ?_, _, t, htracks, rfl, fun a => ?_⟩
    · obtain ⟨_, _, -, -, rfl⟩ := create_eq_ok_iff.1 hcreate
      rfl
    · exact residence_congr hgeometry' hsets
  · exact Or.inr ⟨hlong, halike.eq_error hrun⟩

end Store

end AssocCache
