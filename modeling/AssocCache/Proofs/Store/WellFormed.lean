import AssocCache.Proofs.CacheSet.Residence
import AssocCache.Proofs.Store.Cases
import AssocCache.Store.Build

/-!
# Well-formed stores

`Store.WellFormed` is the invariant of a store: its shape is a valid one, and so
is each of its sets.

`Store.residence` is the view that a user has of a store.  The three operations
of a well-formed store are described in this view, by the numbers of the blocks
of memory that change.

* A probe finds the line where it is, and marks it if it is written to
  (`WellFormed.probe`).
* A fill brings the line in and makes at most one other line leave
  (`WellFormed.fill`).
* An invalidation makes the line leave (`WellFormed.invalidate`).
-/

namespace AssocCache

open Success

namespace Store

variable {π : Type} {f : Frame} {s t : Store π} {a b : Nat} {line : Line} {set set' : CacheSet}

/-- The invariant of a store. -/
structure WellFormed (f : Frame) (s : Store π) : Prop where
  valid : f.geometry.Valid
  geometry_eq : s.geometry = f.geometry
  regionBorder_eq : s.regionBorder = f.regionBorder
  size_sets : s.sets.size = f.geometry.numSets
  sets : ∀ {index : Nat} {set : CacheSet}, s.sets[index]? = some set → set.WellFormed f index

/-- Where a line is, if it is resident. -/
def residenceOf (s : Store π) (line : Line) : Option Residence :=
  s.sets[line.set]?.bind fun set => set.residence line.tag

/-- Where the line of an address is, if it is resident. -/
def residence (s : Store π) (address : Nat) : Option Residence :=
  match s.geometry.locate address with
  | .ok line => s.residenceOf line
  | .error _ => none

/-- What a fill does to the view: the line comes in, and at most one other line of
its set leaves, which happens if the set was full. -/
structure Filled (f : Frame) (s t : Store π) (a : Nat) (dirty : Bool) (install : Install) :
    Prop where
  absent : s.residence a = none
  lt : a < 2 ^ f.geometry.addressBits
  residence_eq : ∀ b, t.residence b =
    if b / f.geometry.blockSize = a / f.geometry.blockSize then some ⟨install.way, dirty⟩
    else if ∃ evicted ∈ install.evicted,
        b / f.geometry.blockSize = evicted.address / f.geometry.blockSize then none
    else s.residence b
  evicted : ∀ evicted ∈ install.evicted, evicted.address % f.geometry.blockSize = 0 ∧
    evicted.address / f.geometry.blockSize ≠ a / f.geometry.blockSize ∧
    (f.geometry.lineOf evicted.address).set = (f.geometry.lineOf a).set ∧
    s.residence evicted.address = some ⟨install.way, evicted.wasDirty⟩
  isSome_iff : install.evicted.isSome = true ↔
    ∀ set, s.sets[(f.geometry.lineOf a).set]? = some set →
      set.occupancy = f.geometry.associativity

theorem residenceOf_eq (hset : s.sets[line.set]? = some set) :
    s.residenceOf line = set.residence line.tag := by
  simp [residenceOf, hset]

/-- A change of one set is seen in the lines of that set only. -/
theorem residenceOf_replace {index : Nat} (hset : s.sets[index]? = some set) (policy : π)
    (stats : Stats) (line : Line) :
    (s.replace index set' policy stats).residenceOf line =
      if line.set = index then set'.residence line.tag else s.residenceOf line := by
  obtain ⟨hlt, -⟩ := Array.getElem?_eq_some_iff.1 hset
  split
  · rename_i heq
    refine residenceOf_eq ?_
    rw [heq]
    exact Array.getElem?_setIfInBounds_self_of_lt hlt
  · rename_i hne
    simp only [residenceOf, Store.replace, Array.getElem?_setIfInBounds_ne (Ne.symm hne)]

namespace WellFormed

theorem exists_set (h : s.WellFormed f) {index : Nat} (hindex : index < f.geometry.numSets) :
    ∃ set, s.sets[index]? = some set := by
  rw [← h.size_sets] at hindex
  exact ⟨s.sets[index], Array.getElem?_eq_getElem hindex⟩

theorem index_lt (h : s.WellFormed f) {index : Nat} (hset : s.sets[index]? = some set) :
    index < f.geometry.numSets := by
  rw [← h.size_sets]
  exact (Array.getElem?_eq_some_iff.1 hset).1

/-- An address maps to a set or is refused. -/
theorem maps_cases (h : s.WellFormed f) (a : Nat) :
    (a < 2 ^ f.geometry.addressBits ∧ ∃ set, s.Maps a (f.geometry.lineOf a) set) ∨
      2 ^ f.geometry.addressBits ≤ a ∧ s.geometry.locate a =
        .error (.refused (.addressOutOfRange a f.geometry.addressBits)) := by
  rw [h.geometry_eq]
  rcases h.valid.locate_cases a with ⟨ha, hlocate⟩ | houtside
  · obtain ⟨set, hset⟩ := h.exists_set (h.valid.has_lineOf ha).1
    refine Or.inl ⟨ha, set, ?_, hset⟩
    rw [h.geometry_eq]
    exact hlocate
  · exact Or.inr houtside

/-- The facts about an address that maps to a set. -/
theorem of_maps (h : s.WellFormed f) (hmaps : s.Maps a line set) :
    a < 2 ^ f.geometry.addressBits ∧ line = f.geometry.lineOf a ∧ f.geometry.Has line ∧
      set.WellFormed f line.set := by
  have hlocate := hmaps.1
  rw [h.geometry_eq] at hlocate
  obtain ⟨ha, rfl⟩ := Geometry.locate_eq_ok hlocate
  exact ⟨ha, rfl, h.valid.has_lineOf ha, h.sets hmaps.2⟩

theorem residence_of_lt (h : s.WellFormed f) (ha : a < 2 ^ f.geometry.addressBits) :
    s.residence a = s.residenceOf (f.geometry.lineOf a) := by
  rw [residence, h.geometry_eq, h.valid.locate_eq ha]

theorem residence_of_le (h : s.WellFormed f) (ha : 2 ^ f.geometry.addressBits ≤ a) :
    s.residence a = none := by
  rw [residence, h.geometry_eq, Geometry.locate_of_le ha]

theorem lt_of_residence (h : s.WellFormed f) {r : Residence} (hr : s.residence a = some r) :
    a < 2 ^ f.geometry.addressBits := by
  refine Nat.lt_of_not_le fun hle => ?_
  rw [h.residence_of_le hle] at hr
  cases hr

/-- Addresses of one block have one residence. -/
theorem residence_eq_of_div_eq (h : s.WellFormed f)
    (hblock : b / f.geometry.blockSize = a / f.geometry.blockSize) :
    s.residence b = s.residence a := by
  rcases Nat.lt_or_ge a (2 ^ f.geometry.addressBits) with ha | ha
  · rw [h.residence_of_lt ha, h.residence_of_lt (h.valid.lt_space_of_div_eq hblock ha),
      h.valid.lineOf_eq_iff.2 hblock]
  · rw [h.residence_of_le ha, h.residence_of_le]
    exact Nat.le_of_not_lt fun hb =>
      Nat.not_lt.2 ha (h.valid.lt_space_of_div_eq hblock.symm hb)

/-- A store in which a line changed and another one left, seen by addresses. -/
theorem residence_of_updates (h : s.WellFormed f) (h' : t.WellFormed f)
    (ha : a < 2 ^ f.geometry.addressBits) {r : Option Residence} (gone : Option Eviction)
    (hupdate : ∀ line, t.residenceOf line =
      if line = f.geometry.lineOf a then r
      else if ∃ evicted ∈ gone, line = f.geometry.lineOf evicted.address then none
      else s.residenceOf line) (b : Nat) :
    t.residence b =
      if b / f.geometry.blockSize = a / f.geometry.blockSize then r
      else if ∃ evicted ∈ gone,
          b / f.geometry.blockSize = evicted.address / f.geometry.blockSize then none
      else s.residence b := by
  rcases Nat.lt_or_ge b (2 ^ f.geometry.addressBits) with hb | hb
  · rw [h.residence_of_lt hb, h'.residence_of_lt hb, hupdate]
    simp only [h.valid.lineOf_eq_iff]
  · rw [h.residence_of_le hb, h'.residence_of_le hb, if_neg, ite_self]
    intro hblock
    exact Nat.not_lt.2 hb (h.valid.lt_space_of_div_eq hblock ha)

theorem residence_of_update (h : s.WellFormed f) (h' : t.WellFormed f)
    (ha : a < 2 ^ f.geometry.addressBits) {r : Option Residence}
    (hupdate : ∀ line, t.residenceOf line =
      if line = f.geometry.lineOf a then r else s.residenceOf line) (b : Nat) :
    t.residence b =
      if b / f.geometry.blockSize = a / f.geometry.blockSize then r else s.residence b := by
  have hupdates := h.residence_of_updates h' ha (r := r) none (by simpa using hupdate) b
  simpa using hupdates

theorem replace (h : s.WellFormed f) {index : Nat} (hset : set.WellFormed f index) (policy : π)
    (stats : Stats) : (s.replace index set policy stats).WellFormed f where
  valid := h.valid
  geometry_eq := h.geometry_eq
  regionBorder_eq := h.regionBorder_eq
  size_sets := by rw [Store.replace, Array.size_setIfInBounds, h.size_sets]
  sets {other found} hfound := by
    rw [Store.replace, Array.getElem?_setIfInBounds] at hfound
    split at hfound
    · rename_i heq
      subst heq
      split at hfound
      · cases hfound
        exact hset
      · cases hfound
    · exact h.sets hfound

theorem recount (h : s.WellFormed f) (stats : Stats) :
    ({ s with stats } : Store π).WellFormed f :=
  ⟨h.valid, h.geometry_eq, h.regionBorder_eq, h.size_sets, h.sets⟩

/-- A change of one set that its view shows in one line. -/
theorem residenceOf_replace_line {index tag : Nat} (hset : s.sets[index]? = some set)
    {r : Option Residence}
    (hview : ∀ sought, set'.residence sought = if sought = tag then r else set.residence sought)
    (policy : π) (stats : Stats) (line : Line) :
    (s.replace index set' policy stats).residenceOf line =
      if line = ⟨index, tag⟩ then r else s.residenceOf line := by
  rw [residenceOf_replace hset, hview]
  obtain ⟨lineSet, lineTag⟩ := line
  by_cases hindex : lineSet = index
  · subst hindex
    by_cases htag : lineTag = tag
    · simp [htag]
    · have hline : (⟨lineSet, lineTag⟩ : Line) ≠ ⟨lineSet, tag⟩ := by simp [htag]
      rw [if_pos rfl, if_neg htag, if_neg hline]
      exact (residenceOf_eq hset).symm
  · simp [hindex]

/-! ## The operations in the view -/

/-- What is reported of a line that leaves: the aligned address of the line. -/
theorem departure (h : s.WellFormed f) {index : Nat} (hset : s.sets[index]? = some set)
    {block : Block} {r : Residence} (hr : set.residence block.tag = some r) :
    f.geometry.lineOf (s.departure index block).address = ⟨index, block.tag⟩ ∧
      (s.departure index block).address % f.geometry.blockSize = 0 ∧
      s.residence (s.departure index block).address = some r := by
  have hwell := h.sets hset
  obtain ⟨found, hfound, hholds, -⟩ := hwell.residence_eq_some_iff.1 hr
  have hvalid := Block.holds_iff.1 hholds
  have hhas : f.geometry.Has ⟨index, block.tag⟩ := by
    rw [← hvalid.2]
    exact (hwell.blocks hfound).has hvalid.1
  have haddress : (s.departure index block).address = f.geometry.addressOf ⟨index, block.tag⟩ := by
    rw [← h.geometry_eq]
    rfl
  have hline := h.valid.lineOf_addressOf hhas
  rw [haddress]
  refine ⟨hline, h.valid.addressOf_mod hhas, ?_⟩
  rw [h.residence_of_lt (h.valid.addressOf_lt hhas), hline]
  exact (residenceOf_eq hset).trans hr

/-- A set reports the lines that leave it, and no others. -/
theorem exists_departure_iff (h : s.WellFormed f) {index : Nat} (hset : s.sets[index]? = some set)
    {victim : Option Block} (hresident : ∀ block ∈ victim, ∃ r, set.residence block.tag = some r)
    {line : Line} :
    (∃ evicted ∈ victim.map (s.departure index), line = f.geometry.lineOf evicted.address) ↔
      line.set = index ∧ ∃ block ∈ victim, block.tag = line.tag := by
  have hline : ∀ block ∈ victim,
      f.geometry.lineOf (s.departure index block).address = ⟨index, block.tag⟩ := by
    intro block hblock
    obtain ⟨r, hr⟩ := hresident block hblock
    exact (h.departure hset hr).1
  constructor
  · intro ⟨evicted, hevicted, hsame⟩
    obtain ⟨block, hblock, rfl⟩ := Option.map_eq_some_iff.1 hevicted
    rw [hsame, hline block hblock]
    exact ⟨rfl, block, hblock, rfl⟩
  · intro ⟨hindex, block, hblock, htag⟩
    refine ⟨_, Option.map_eq_some_iff.2 ⟨block, hblock, rfl⟩, ?_⟩
    rw [hline block hblock, ← hindex, htag]

/-- Taking an absent line out of the view changes nothing. -/
theorem residence_eq_ite_of_eq_none (h : s.WellFormed f) (hnone : s.residence a = none) (b : Nat) :
    s.residence b =
      if b / f.geometry.blockSize = a / f.geometry.blockSize then none else s.residence b := by
  split
  · rename_i hblock
    exact (h.residence_eq_of_div_eq hblock).trans hnone
  · rfl

variable [Policy π] [Policy.Tame π] {access : AccessKind}

theorem probe (h : s.WellFormed f) {lookup : Lookup}
    (hprobe : (Store.probe a access).outcome s = .ok (lookup, t)) :
    t.WellFormed f ∧ lookup.way = (s.residence a).map (·.way) ∧
      a < 2 ^ f.geometry.addressBits ∧ ∀ b, t.residence b =
        if b / f.geometry.blockSize = a / f.geometry.blockSize then
          (s.residence a).map (·.touch access)
        else s.residence b := by
  obtain ⟨line, set, hmaps, hcases⟩ := probe_eq_ok_iff.1 hprobe
  obtain ⟨ha, rfl, hhas, hset⟩ := h.of_maps hmaps
  have hresidence := (h.residence_of_lt ha).trans (residenceOf_eq hmaps.2)
  have hway := hset.map_way_residence (f.geometry.lineOf a).tag
  rcases hcases with ⟨way, policy, set', stats, hfind, hhit, -, rfl, rfl⟩ |
    ⟨stats, hfind, -, rfl, rfl⟩
  · obtain ⟨hset', -, hview⟩ := hset.hit hfind hhit
    have h' := h.replace hset' policy stats
    refine ⟨h', by rw [hresidence, hway, hfind], ha, ?_⟩
    rw [hresidence]
    exact h.residence_of_update h' ha (residenceOf_replace_line hmaps.2 hview policy stats)
  · have hnone : s.residence a = none := by
      rw [hresidence, ← Option.map_eq_none_iff, hway, hfind]
    rw [hnone]
    exact ⟨h.recount stats, rfl, ha, h.residence_eq_ite_of_eq_none hnone⟩

theorem fill (h : s.WellFormed f) {install : Install}
    (hfill : (Store.fill a access).outcome s = .ok (install, t)) :
    t.WellFormed f ∧ Filled f s t a access.isWrite install := by
  obtain ⟨line, set, hmaps, habsent, way, policy₁, set₁, victim, policy₂, set₂, policy₃, set₃, stats,
    hchoose, hvacate, haccept, -, rfl, rfl⟩ := fill_eq_ok_iff.1 hfill
  obtain ⟨ha, rfl, hhas, hset⟩ := h.of_maps hmaps
  have hnone : set.residence (f.geometry.lineOf a).tag = none := by
    rw [← Option.map_eq_none_iff, hset.map_way_residence, habsent]
  rw [h.geometry_eq, h.regionBorder_eq] at haccept
  obtain ⟨hset₃, hfilled⟩ := hset.fillSteps hnone hhas hchoose hvacate haccept
  have h' := h.replace hset₃ policy₃ stats
  have hdeparture : ∀ block ∈ victim, _ := fun block hblock =>
    h.departure hmaps.2 (hfilled.resident block hblock).2
  refine ⟨h', ?_, ha, ?_, ?_, ?_⟩
  · exact (h.residence_of_lt ha).trans ((residenceOf_eq hmaps.2).trans hnone)
  · refine h.residence_of_updates h' ha _ fun line => ?_
    simp only [h.exists_departure_iff hmaps.2 fun block hblock =>
      ⟨_, (hfilled.resident block hblock).2⟩]
    rw [residenceOf_replace hmaps.2, hfilled.residence_eq]
    by_cases hindex : line.set = (f.geometry.lineOf a).set
    · have hline : line = f.geometry.lineOf a ↔ line.tag = (f.geometry.lineOf a).tag := by
        rw [Line.eq_iff]
        simp [hindex]
      have hold : s.residenceOf line = set.residence line.tag := residenceOf_eq (hindex ▸ hmaps.2)
      simp only [hindex, hline, hold, if_true, true_and]
    · have hline : line ≠ f.geometry.lineOf a := fun heq => hindex (congrArg Line.set heq)
      simp [hindex, hline]
  · intro evicted hevicted
    obtain ⟨block, hblock, rfl⟩ := Option.map_eq_some_iff.1 hevicted
    obtain ⟨hline, haligned, hresident⟩ := hdeparture block hblock
    refine ⟨haligned, ?_, by rw [hline], hresident⟩
    intro hsame
    rw [← h.valid.lineOf_eq_iff, hline] at hsame
    exact (hfilled.resident block hblock).1 (congrArg Line.tag hsame)
  · rw [Option.isSome_map, hfilled.isSome_iff, hset.length_blocks]
    constructor
    · intro hfull found hfound
      rw [hmaps.2] at hfound
      cases hfound
      exact hfull
    · intro hfull
      exact hfull set hmaps.2

theorem invalidate (h : s.WellFormed f) {evicted : Option Eviction}
    (hinvalidate : (Store.invalidate a).outcome s = .ok (evicted, t)) :
    t.WellFormed f ∧ a < 2 ^ f.geometry.addressBits ∧
      evicted = (s.residence a).map (fun r =>
        ⟨f.geometry.blockSize * (a / f.geometry.blockSize), r.dirty⟩) ∧
      ∀ b, t.residence b =
        if b / f.geometry.blockSize = a / f.geometry.blockSize then none else s.residence b := by
  obtain ⟨line, set, hmaps, hcases⟩ := invalidate_eq_ok_iff.1 hinvalidate
  obtain ⟨ha, rfl, hhas, hset⟩ := h.of_maps hmaps
  have hresidence := (h.residence_of_lt ha).trans (residenceOf_eq hmaps.2)
  have hway := hset.map_way_residence (f.geometry.lineOf a).tag
  rcases hcases with ⟨hfind, rfl, rfl⟩ | ⟨way, victim, policy, set', hfind, hvacate, rfl, hstats⟩
  · have hnone : t.residence a = none := by
      rw [hresidence, ← Option.map_eq_none_iff, hway, hfind]
    rw [hnone]
    exact ⟨h, ha, rfl, h.residence_eq_ite_of_eq_none hnone⟩
  · obtain ⟨hset', gone, rfl, htag, hgone, hview⟩ := hset.vacate_of_find hfind hvacate
    have hreplace : ∀ stats, (s.replace (f.geometry.lineOf a).set set' policy stats).WellFormed f ∧
        ∀ b, (s.replace (f.geometry.lineOf a).set set' policy stats).residence b =
          if b / f.geometry.blockSize = a / f.geometry.blockSize then none
          else s.residence b := by
      intro stats
      have h' := h.replace hset' policy stats
      exact ⟨h', h.residence_of_update h' ha (residenceOf_replace_line hmaps.2 hview policy stats)⟩
    have hevicted : (some gone).map (s.departure (f.geometry.lineOf a).set) =
        (s.residence a).map fun r =>
          ⟨f.geometry.blockSize * (a / f.geometry.blockSize), r.dirty⟩ := by
      rw [hresidence, hgone, ← h.valid.addressOf_lineOf ha, Option.map_some, Option.map_some,
        Store.departure, htag, h.geometry_eq]
    rcases hstats with ⟨stats, -, -, rfl⟩ | ⟨hnone, -⟩
    · exact ⟨(hreplace stats).1, ha, hevicted, (hreplace stats).2⟩
    · cases hnone

end WellFormed

end Store

/-!
## Fresh stores

A store that was just built is well-formed (`wellFormed_of_create`) and holds no
line (`residence_fresh`).  `layout_cases` says which sets it consists of.
-/

namespace Store

variable {π : Type} [Policy π] {c : Config} {g : Geometry} {policy : π}
  {random : UInt64 → Random.Generator}

/-- The sets of a layout: a single indexed one for a fully associative policy, and
scanned ones for the others. -/
theorem layout_cases {sets : Array CacheSet} (h : layout c g policy = .ok sets) :
    sets.size = g.numSets ∧ ∀ {index : Nat} {set : CacheSet}, sets[index]? = some set →
      Policy.fullyAssociative policy = true ∧ index = 0 ∧ set = .indexed index g.associativity ∨
        Policy.fullyAssociative policy = false ∧
          ∃ role, set = .scanned index g.associativity role := by
  unfold layout at h
  cases hfull : Policy.fullyAssociative policy with
  | true =>
    rw [hfull, if_pos rfl] at h
    split at h
    · rename_i hsingle
      obtain ⟨-, -, hpure⟩ := bind_eq_ok_iff.1 h
      have hsets := pure_eq_ok_iff.1 hpure
      subst hsets
      refine ⟨hsingle.symm, fun {index set} hset => ?_⟩
      obtain ⟨hlt, hget⟩ := Array.getElem?_eq_some_iff.1 hset
      have hzero : index = 0 := by
        have hsize : index < 1 := hlt
        omega
      subst hzero
      exact Or.inl ⟨rfl, rfl, hget.symm⟩
    · cases h
  | false =>
    rw [hfull, if_neg Bool.false_ne_true] at h
    obtain ⟨stride, -, h⟩ := bind_eq_ok_iff.1 h
    obtain ⟨-, -, hpure⟩ := bind_eq_ok_iff.1 h
    have hsets := pure_eq_ok_iff.1 hpure
    subst hsets
    refine ⟨Array.size_ofFn, fun {index set} hset => Or.inr ⟨rfl, DuelRole.ofIndex index stride, ?_⟩⟩
    obtain ⟨hlt, hget⟩ := Array.getElem?_eq_some_iff.1 hset
    rw [Array.getElem_ofFn] at hget
    exact hget.symm

/-- With a geometry at hand a store is built if its sets are. -/
theorem result_create (hgeometry : c.geometry = .ok g) (policy : π) :
    (create c policy).result =
      (layout c g policy).map fun sets =>
        { name := c.name, geometry := g, regionBorder := c.regionBorder.map UInt64.toNat, sets,
          policy, stats := {} } := by
  unfold create
  rw [hgeometry]
  cases hlayout : layout c g policy with
  | error failure =>
    simp only [mapError_ok, bind, Except.bind, hlayout]
    rfl
  | ok sets =>
    simp only [mapError_ok, bind, Except.bind, hlayout]
    rfl

theorem create_eq_ok_iff {s : Store π} :
    (create c policy).result = .ok s ↔
      ∃ geometry sets, c.geometry = .ok geometry ∧ layout c geometry policy = .ok sets ∧
        s = { name := c.name, geometry, regionBorder := c.regionBorder.map UInt64.toNat, sets,
              policy, stats := {} } := by
  cases hgeometry : c.geometry with
  | error error =>
    unfold create
    rw [hgeometry]
    simp [Except.mapError, bind, Except.bind]
  | ok geometry =>
    rw [result_create hgeometry, map_eq_ok_iff]
    constructor
    · rintro ⟨sets, hlayout, rfl⟩
      exact ⟨geometry, sets, rfl, hlayout, rfl⟩
    · rintro ⟨_, sets, hsame, hlayout, rfl⟩
      cases hsame
      exact ⟨sets, hlayout, rfl⟩

theorem policy_of_create {s : Store π} (h : (create c policy).result = .ok s) :
    s.policy = policy := by
  obtain ⟨geometry, sets, -, -, rfl⟩ := create_eq_ok_iff.1 h
  rfl

theorem stats_of_create {s : Store π} (h : (create c policy).result = .ok s) : s.stats = {} := by
  obtain ⟨geometry, sets, -, -, rfl⟩ := create_eq_ok_iff.1 h
  rfl

theorem geometry_of_create {s : Store π} (h : (create c policy).result = .ok s)
    (hgeometry : c.geometry = .ok g) : s.geometry = g := by
  obtain ⟨geometry, sets, hsame, -, rfl⟩ := create_eq_ok_iff.1 h
  exact Except.ok.inj (hsame.symm.trans hgeometry)

theorem ofConfig_eq_ok_iff {s : Store AnyPolicy} :
    (ofConfig c random).result = .ok s ↔
      ∃ geometry policy, c.geometry = .ok geometry ∧
        AnyPolicy.ofConfig c geometry random = .ok policy ∧ (create c policy).result = .ok s := by
  unfold ofConfig
  cases hgeometry : c.geometry with
  | error error => simp
  | ok geometry =>
    cases hpolicy : AnyPolicy.ofConfig c geometry random with
    | error fault => simp [hpolicy]
    | ok policy => simp [hpolicy]

/-- A configuration describes the store around the policy that it names. -/
theorem result_ofConfig {policy : AnyPolicy} (hgeometry : c.geometry = .ok g)
    (hpolicy : AnyPolicy.ofConfig c g random = .ok policy) :
    (ofConfig c random).result = (create c policy).result := by
  rw [ofConfig, hgeometry]
  dsimp only
  rw [hpolicy]

/-- What the sets of a store have in common when it is built around a policy. -/
def frameOf (c : Config) (g : Geometry) (policy : π) : Frame where
  geometry := g
  regionBorder := c.regionBorder.map UInt64.toNat
  indexed := Policy.fullyAssociative policy

theorem wellFormed_of_create {s : Store π} (h : (create c policy).result = .ok s) :
    c.geometry = .ok s.geometry ∧ s.WellFormed (frameOf c s.geometry policy) := by
  obtain ⟨geometry, sets, hgeometry, hlayout, rfl⟩ := create_eq_ok_iff.1 h
  obtain ⟨hsize, hsets⟩ := layout_cases hlayout
  refine ⟨hgeometry, Config.geometry_valid hgeometry, rfl, rfl, hsize, fun {index set} hset => ?_⟩
  rcases hsets hset with ⟨hfull, -, rfl⟩ | ⟨hfull, role, rfl⟩
  · rw [frameOf, hfull]
    exact .indexed_empty _ _ _
  · rw [frameOf, hfull]
    exact .scanned _ _ _ _

/-- A new store holds no line. -/
theorem residence_fresh {s : Store π} (h : (create c policy).result = .ok s) (a : Nat) :
    s.residence a = none := by
  obtain ⟨hgeometry, hwell⟩ := wellFormed_of_create h
  rcases Nat.lt_or_ge a (2 ^ s.geometry.addressBits) with ha | ha
  · obtain ⟨geometry, sets, -, hlayout, rfl⟩ := create_eq_ok_iff.1 h
    obtain ⟨-, set, hmaps⟩ := (hwell.maps_cases a).resolve_right (by
      intro houtside
      exact Nat.not_lt.2 houtside.1 ha)
    rw [hwell.residence_of_lt ha, residenceOf_eq hmaps.2,
      (hwell.sets hmaps.2).residence_eq_none_iff]
    rcases (layout_cases hlayout).2 hmaps.2 with ⟨-, -, rfl⟩ | ⟨-, role, rfl⟩
    · exact fun way => CacheSet.not_carries_scanned _ _ .follower way _
    · exact fun way => CacheSet.not_carries_scanned _ _ role way _
  · exact hwell.residence_of_le ha

theorem fullyAssociative_ofConfig {policy : AnyPolicy}
    (h : AnyPolicy.ofConfig c g random = .ok policy) :
    Policy.fullyAssociative policy = decide (c.policy = .fullyAssociativeLru) := by
  unfold AnyPolicy.ofConfig at h
  cases hkind : c.policy <;> simp only [hkind] at h
  case writeBackAware =>
    obtain ⟨preset, -, hmap⟩ := bind_eq_ok_iff.1 h
    obtain ⟨_, -, rfl⟩ := map_eq_ok_iff.1 hmap
    rfl
  case lru | lfu | random | fullyAssociativeLru | bimodal =>
    cases h
    rfl
  all_goals
    obtain ⟨_, -, rfl⟩ := map_eq_ok_iff.1 h
    rfl

end Store

end AssocCache
