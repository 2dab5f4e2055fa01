import AssocCache.Proofs.Hierarchy.Cases
import AssocCache.Proofs.Store.Dirty
import AssocCache.Proofs.Store.Run
import AssocCache.Proofs.Trace

/-!
# Runs of a hierarchy

`Hierarchy.serve` accesses a list of lines one after the other, and keeps a journal
of what each access wrote to main memory (`serve_append`).  Traces that run without
a failure are served line by line (`WellFormed.simulateAll_eq_ok_iff`).
-/

/-!
## Well-formed hierarchies

A hierarchy is well-formed when each of its stores is (`Hierarchy.WellFormed`).  It
starts so (`wellFormed_of_ofConfig`), and an access to a line keeps it so
(`WellFormed.accessLine`).

`Hierarchy.Settled` says what an access to the store of one level does to the
pending writes of the whole row.
-/

namespace AssocCache

theorem Config.blockSize_of_geometry {c : Config} {g : Geometry} (h : c.geometry = .ok g) :
    g.blockSize = c.blockSize.toNat := by
  obtain ⟨n, -, rfl⟩ := geometry_eq_ok_iff.1 h
  rfl

namespace Hierarchy

variable {frames : List Frame} {f : Frame} {h h' : Hierarchy} {level a b : Nat}
  {below : List Nat} {kind : AccessKind}

/-- The invariant of a hierarchy. -/
structure WellFormed (frames : List Frame) (h : Hierarchy) : Prop where
  length_eq : h.stores.length = frames.length
  store : ∀ {level : Nat} {f : Frame} {s : Store AnyPolicy}, frames[level]? = some f →
    h.stores[level]? = some s → s.WellFormed f

/-- Whether the line of an address is resident in a level with pending writes. -/
def dirtyAt (h : Hierarchy) (level address : Nat) : Bool :=
  h.stores[level]?.any (·.dirtyAt address)

/-- What an access to one level does to the pending writes of the row. -/
structure Settled (f : Frame) (level : Nat) (h h' : Hierarchy) (a : Nat) (written : Bool)
    (gone : Option Eviction) : Prop where
  marked : written = true → h'.dirtyAt level a = true
  kept : ∀ other b, h.dirtyAt other b = true → h'.dirtyAt other b = true ∨
    ∃ evicted ∈ gone, other = level ∧ evicted.wasDirty = true ∧
      b / f.geometry.blockSize = evicted.address / f.geometry.blockSize
  source : ∀ other b, h'.dirtyAt other b = true → h.dirtyAt other b = true ∨
    other = level ∧ written = true ∧ b / f.geometry.blockSize = a / f.geometry.blockSize
  departed : ∀ evicted ∈ gone, evicted.wasDirty = true →
    evicted.address % f.geometry.blockSize = 0 ∧ h.dirtyAt level evicted.address = true

theorem dirtyAt_of_stores_eq (hstores : h'.stores = h.stores) (level a : Nat) :
    h'.dirtyAt level a = h.dirtyAt level a := by
  rw [dirtyAt, dirtyAt, hstores]

theorem dirtyAt_eq_of_getElem? {s : Store AnyPolicy} (hs : h.stores[level]? = some s) (a : Nat) :
    h.dirtyAt level a = s.dirtyAt a := by
  rw [dirtyAt, hs, Option.any_some]

theorem dirtyAt_eq_true_iff :
    h.dirtyAt level a = true ↔ ∃ s, h.stores[level]? = some s ∧ s.dirtyAt a = true := by
  unfold dirtyAt
  rw [Option.any_eq_true]

namespace WellFormed

theorem of_stores_eq (hwell : h.WellFormed frames) (hstores : h'.stores = h.stores) :
    h'.WellFormed frames where
  length_eq := hstores ▸ hwell.length_eq
  store hf hs := hwell.store hf (hstores ▸ hs)

theorem exists_frame (hwell : h.WellFormed frames) {s : Store AnyPolicy}
    (hs : h.stores[level]? = some s) : ∃ f, frames[level]? = some f ∧ s.WellFormed f := by
  have hlt : level < frames.length := by
    rw [← hwell.length_eq]
    exact (List.getElem?_eq_some_iff.1 hs).1
  exact ⟨frames[level], List.getElem?_eq_getElem hlt, hwell.store (List.getElem?_eq_getElem hlt) hs⟩

theorem dirtyAt_eq_of_div_eq (hwell : h.WellFormed frames) (hf : frames[level]? = some f)
    (hblock : b / f.geometry.blockSize = a / f.geometry.blockSize) :
    h.dirtyAt level b = h.dirtyAt level a := by
  cases hs : h.stores[level]? with
  | none => rw [dirtyAt, dirtyAt, hs, Option.any_none, Option.any_none]
  | some s =>
    rw [dirtyAt_eq_of_getElem? hs, dirtyAt_eq_of_getElem? hs,
      (hwell.store hf hs).dirtyAt_eq_of_div_eq hblock]

theorem set (hwell : h.WellFormed frames) (hf : frames[level]? = some f) {t : Store AnyPolicy}
    (ht : t.WellFormed f) (hstores : h'.stores = h.stores.set level t) : h'.WellFormed frames where
  length_eq := by rw [hstores, List.length_set, hwell.length_eq]
  store {other g s} hg hs := by
    rw [hstores, List.getElem?_set] at hs
    split at hs
    · rename_i heq
      subst heq
      rw [hf] at hg
      cases hg
      split at hs
      · cases hs
        exact ht
      · cases hs
    · exact hwell.store hg hs

/-- An access to the store of a level, seen from the whole row. -/
theorem settled (hwell : h.WellFormed frames) {outcome : AccessOutcome}
    (hstep : (onStore level (Store.access a kind)).step h = (.ok outcome, h')) :
    ∃ f, frames[level]? = some f ∧ h'.WellFormed frames ∧
      Settled f level h h' a kind.isWrite outcome.evicted := by
  obtain ⟨s, t, hs, haccess, hstores⟩ := stores_of_onStore hstep
  obtain ⟨f, hf, hstore⟩ := hwell.exists_frame hs
  obtain ⟨ht, hsettled⟩ := hstore.settled haccess
  refine ⟨f, hf, hwell.set hf ht hstores, ?_⟩
  have hlt := (List.getElem?_eq_some_iff.1 hs).1
  have hbefore := dirtyAt_eq_of_getElem? hs
  have hafter : ∀ b, h'.dirtyAt level b = t.dirtyAt b := by
    refine dirtyAt_eq_of_getElem? ?_
    rw [hstores, List.getElem?_set_self hlt]
  have hother : ∀ other, other ≠ level → ∀ b, h'.dirtyAt other b = h.dirtyAt other b := by
    intro other hne b
    rw [dirtyAt, dirtyAt, hstores, List.getElem?_set_ne (Ne.symm hne)]
  refine ⟨?_, ?_, ?_, ?_⟩
  · intro hwrite
    rw [hafter]
    exact hsettled.marked hwrite
  · intro other b hb
    by_cases hlevel : other = level
    · subst hlevel
      rw [hbefore] at hb
      rw [hafter]
      rcases hsettled.kept b hb with hkept | ⟨evicted, hevicted, hdirty, hblock⟩
      · exact Or.inl hkept
      · exact Or.inr ⟨evicted, hevicted, rfl, hdirty, hblock⟩
    · left
      rw [hother other hlevel]
      exact hb
  · intro other b hb
    by_cases hlevel : other = level
    · subst hlevel
      rw [hafter] at hb
      rw [hbefore]
      rcases hsettled.source b hb with hold | ⟨hwrite, hblock⟩
      · exact Or.inl hold
      · exact Or.inr ⟨rfl, hwrite, hblock⟩
    · left
      rw [← hother other hlevel]
      exact hb
  · intro evicted hevicted hdirty
    rw [hbefore]
    exact hsettled.departed evicted hevicted hdirty

/-! ### Accesses to lines -/

theorem descend (hwell : h.WellFormed frames) {levels : List Nat} {descent : Descent}
    (hstep : (Hierarchy.descend a levels kind).step h = (.ok descent, h')) :
    h'.WellFormed frames := by
  induction levels generalizing kind h descent with
  | nil =>
    obtain ⟨-, rfl⟩ := descend_nil_eq_ok_iff.1 hstep
    exact hwell
  | cons level below ih =>
    obtain ⟨outcome, h₁, h₂, haccess, hcharge, hrest⟩ := descend_cons_eq_ok_iff.1 hstep
    obtain ⟨f, -, hwell₁, -⟩ := hwell.settled haccess
    have hwell₂ := hwell₁.of_stores_eq (stores_of_charge hcharge)
    rcases hrest with ⟨-, hcount, -⟩ | ⟨-, h₃, h₄, rest, hmiss, hcount, hbelow, -⟩
    · exact hwell₂.of_stores_eq (stores_of_count hcount)
    · have hwell₃ := hwell₂.of_stores_eq (stores_of_count hmiss)
      exact ih (hwell₃.of_stores_eq (stores_of_countEviction hcount)) hbelow

theorem writeBack (hwell : h.WellFormed frames) {written : Option Nat}
    (hstep : (Hierarchy.writeBack below a).step h = (.ok written, h')) : h'.WellFormed frames := by
  induction below generalizing a h with
  | nil =>
    obtain ⟨hcount, -⟩ := writeBack_nil_eq_ok_iff.1 hstep
    exact hwell.of_stores_eq (stores_of_countMemoryWriteback hcount)
  | cons level below ih =>
    obtain ⟨outcome, h₁, haccess, hrest⟩ := writeBack_cons_eq_ok_iff.1 hstep
    obtain ⟨f, -, hwell₁, -⟩ := hwell.settled haccess
    rcases hrest with ⟨-, -, rfl⟩ | ⟨-, h₂, hcount, ⟨-, -, rfl⟩ | ⟨victim, -, hbelow⟩⟩
    · exact hwell₁
    · exact hwell₁.of_stores_eq (stores_of_countEviction hcount)
    · exact ih (hwell₁.of_stores_eq (stores_of_countEviction hcount)) hbelow

theorem writeBackAll (hwell : h.WellFormed frames) {victims : List Victim} {written : List Nat}
    (hstep : (Hierarchy.writeBackAll victims).step h = (.ok written, h')) :
    h'.WellFormed frames := by
  induction victims generalizing h written with
  | nil =>
    obtain ⟨-, rfl⟩ := writeBackAll_nil_eq_ok_iff.1 hstep
    exact hwell
  | cons victim victims ih =>
    obtain ⟨first, h₁, rest, hfirst, hrest, -⟩ := writeBackAll_cons_eq_ok_iff.1 hstep
    exact ih (hwell.writeBack hfirst) hrest

theorem accessLine (hwell : h.WellFormed frames) {written : List Nat}
    (hstep : (Hierarchy.accessLine a kind).step h = (.ok written, h')) : h'.WellFormed frames := by
  obtain ⟨descent, h₁, h₂, hdescend, hserved, hwrite⟩ := accessLine_eq_ok_iff.1 hstep
  have hwell₁ := hwell.descend hdescend
  rcases hserved with ⟨-, rfl⟩ | ⟨-, hcount⟩
  · exact hwell₁.writeBackAll hwrite
  · exact (hwell₁.of_stores_eq (stores_of_countMemoryAccess hcount)).writeBackAll hwrite

/-- A run never changes the shape of a store. -/
theorem map_blockSize (hwell : h.WellFormed frames) :
    h.stores.map (·.geometry.blockSize) = frames.map (·.geometry.blockSize) := by
  refine List.ext_getElem (by simpa using hwell.length_eq) fun level hleft hright => ?_
  rw [List.length_map] at hleft hright
  rw [List.getElem_map, List.getElem_map]
  have hstore := hwell.store (List.getElem?_eq_getElem hright) (List.getElem?_eq_getElem hleft)
  rw [hstore.geometry_eq]

end WellFormed

theorem lineSize_eq_headD (h : Hierarchy) :
    h.lineSize = (h.stores.map (·.geometry.blockSize)).headD 1 := by
  unfold lineSize stores
  cases h.levels <;> rfl

/-! ### The start -/

theorem buildLevels_eq_ok {configs : List Config} {levels : List Level}
    (hbuilt : (buildLevels configs).result = .ok levels) :
    levels.length = configs.length ∧ ∀ {level : Nat} {c : Config} {l : Level},
      configs[level]? = some c → levels[level]? = some l →
        (Store.ofConfig c).result = .ok l.store ∧ l.tally = {} := by
  induction configs generalizing levels with
  | nil =>
    cases hbuilt
    exact ⟨rfl, fun hc => by cases hc⟩
  | cons c rest ih =>
    simp only [buildLevels, Logged.result_bind_eq_ok_iff, Logged.result_pure, Except.ok.injEq]
      at hbuilt
    obtain ⟨store, hstore, later, hlater, rfl⟩ := hbuilt
    obtain ⟨hlength, hlevels⟩ := ih hlater
    refine ⟨by rw [List.length_cons, List.length_cons, hlength], fun {level c' l} hc hl => ?_⟩
    cases level with
    | zero =>
      cases hc
      cases hl
      exact ⟨hstore, rfl⟩
    | succ level => exact hlevels hc hl

theorem ofConfig_eq_ok_iff {c : HierarchyConfig} :
    (ofConfig c).result = .ok h ↔
      c.caches ≠ [] ∧ ∃ levels, (buildLevels c.caches).result = .ok levels ∧
        h = { levels, memoryLatency := c.memoryLatency.toNat, memoryAccesses := 0,
              memoryWritebacks := 0, cycles := 0 } := by
  unfold ofConfig
  cases c.caches with
  | nil => simp
  | cons first rest =>
    simp only [List.isEmpty_cons, Bool.false_eq_true, if_false, Logged.result_bind_eq_ok_iff,
      Logged.result_pure, Except.ok.injEq, ne_eq, reduceCtorEq, not_false_eq_true, true_and]
    constructor
    · intro ⟨levels, hlevels, hstate⟩
      exact ⟨levels, hlevels, hstate.symm⟩
    · intro ⟨levels, hlevels, hstate⟩
      exact ⟨levels, hlevels, hstate.symm⟩

/-- What the stores of a row have in common with their configurations. -/
def framesOf (configs : List Config) (stores : List (Store AnyPolicy)) : List Frame :=
  List.zipWith (fun c s => ⟨s.geometry, c.regionBorder.map UInt64.toNat,
    decide (c.policy = .fullyAssociativeLru)⟩) configs stores

/-- The stores of a new hierarchy are those that its configurations describe. -/
theorem stores_of_ofConfig {c : HierarchyConfig} (hbuilt : (ofConfig c).result = .ok h) :
    h.stores.length = c.caches.length ∧ ∀ {level : Nat} {config : Config} {s : Store AnyPolicy},
      c.caches[level]? = some config → h.stores[level]? = some s →
        (Store.ofConfig config).result = .ok s := by
  obtain ⟨-, levels, hlevels, rfl⟩ := ofConfig_eq_ok_iff.1 hbuilt
  obtain ⟨hlength, hstores⟩ := buildLevels_eq_ok hlevels
  refine ⟨by rw [stores, List.length_map, hlength], fun hconfig hs => ?_⟩
  rw [stores, List.getElem?_map] at hs
  obtain ⟨l, hl, rfl⟩ := Option.map_eq_some_iff.1 hs
  exact (hstores hconfig hl).1

theorem wellFormed_of_ofConfig {c : HierarchyConfig} (hbuilt : (ofConfig c).result = .ok h) :
    h.WellFormed (framesOf c.caches h.stores) := by
  obtain ⟨hlength, hstores⟩ := stores_of_ofConfig hbuilt
  refine ⟨by rw [framesOf, List.length_zipWith, hlength, Nat.min_self], fun hf hs => ?_⟩
  obtain ⟨config, s, hconfig, hs', rfl⟩ := List.getElem?_zipWith_eq_some.1 hf
  rw [hs] at hs'
  cases hs'
  exact (Store.wellFormed_of_ofConfig (hstores hconfig hs)).2

/-- The line sizes are those of the configurations. -/
theorem map_blockSize_of_ofConfig {c : HierarchyConfig} (hbuilt : (ofConfig c).result = .ok h) :
    h.stores.map (·.geometry.blockSize) = c.caches.map (·.blockSize.toNat) := by
  obtain ⟨hlength, hstores⟩ := stores_of_ofConfig hbuilt
  refine List.ext_getElem (by simpa using hlength) fun level hleft hright => ?_
  rw [List.length_map] at hleft hright
  rw [List.getElem_map, List.getElem_map]
  have hstore := hstores (List.getElem?_eq_getElem hright) (List.getElem?_eq_getElem hleft)
  exact Config.blockSize_of_geometry (Store.wellFormed_of_ofConfig hstore).1

/-- No line of a new hierarchy is dirty. -/
theorem dirtyAt_of_ofConfig {c : HierarchyConfig} (hbuilt : (ofConfig c).result = .ok h)
    (level a : Nat) : h.dirtyAt level a = false := by
  obtain ⟨hlength, hstores⟩ := stores_of_ofConfig hbuilt
  cases hs : h.stores[level]? with
  | none => rw [dirtyAt, hs, Option.any_none]
  | some s =>
    have hlt : level < c.caches.length := hlength ▸ (List.getElem?_eq_some_iff.1 hs).1
    obtain ⟨geometry, policy, -, -, hcreate⟩ :=
      Store.ofConfig_eq_ok_iff.1 (hstores (List.getElem?_eq_getElem hlt) hs)
    rw [dirtyAt_eq_of_getElem? hs, Store.dirtyAt, Store.residence_fresh hcreate, Option.any_none]

end Hierarchy

/-! ## Journals -/

open Success

/-- A line that was asked for, and the addresses that were written to main memory
until it was served. -/
structure Service where
  demand : Demand
  flushed : List Nat
  deriving DecidableEq, Repr

namespace Hierarchy

variable {frames : List Frame} {h h' : Hierarchy} {demand : Demand} {demands : List Demand}
  {journal : List Service}

/-- Runs a trace. -/
def simulate : Trace → Action TraceFailure Hierarchy Unit
  | .fixed bytes => simulateFixed bytes
  | .text characters => simulateText characters

/-- Runs one trace after the other. -/
def simulateAll (traces : List Trace) : Action TraceFailure Hierarchy Unit :=
  Action.forEach traces simulate

/-- Accesses the lines that are asked for.  The answer is what happened and the
hierarchy after it. -/
def serve : List Demand → Hierarchy → Except Failure (List Service × Hierarchy)
  | [], h => .ok ([], h)
  | demand :: demands, h =>
    match (accessLine demand.address demand.kind).step h with
    | (.ok flushed, h) => do
      let (journal, h) ← serve demands h
      pure (⟨demand, flushed⟩ :: journal, h)
    | (.error failure, _) => .error failure

/-! ## Serving lines -/

theorem serve_cons_eq_ok_iff :
    serve (demand :: demands) h = .ok (journal, h') ↔
      ∃ flushed h₁ later, (accessLine demand.address demand.kind).step h = (.ok flushed, h₁) ∧
        serve demands h₁ = .ok (later, h') ∧ journal = ⟨demand, flushed⟩ :: later := by
  rw [serve]
  rcases (accessLine demand.address demand.kind).step h with ⟨_ | flushed, h₁⟩
  · simp
  · simp only [bind_eq_ok_iff, pure_eq_ok_iff, Prod.exists, Prod.mk.injEq, Except.ok.injEq]
    constructor
    · intro ⟨later, h₂, hserve, hjournal, hstate⟩
      subst hstate
      exact ⟨flushed, h₁, later, ⟨rfl, rfl⟩, hserve, hjournal.symm⟩
    · intro ⟨_, _, later, ⟨hflushed, hstate⟩, hserve, hjournal⟩
      subst hflushed
      subst hstate
      exact ⟨later, h', hserve, hjournal.symm, rfl⟩

/-- Two lists of lines are served one after the other. -/
theorem serve_append (before after : List Demand) (h h' : Hierarchy) (journal : List Service) :
    serve (before ++ after) h = .ok (journal, h') ↔
      ∃ earlier h₁ later, serve before h = .ok (earlier, h₁) ∧ serve after h₁ = .ok (later, h') ∧
        journal = earlier ++ later := by
  induction before generalizing h journal with
  | nil =>
    rw [List.nil_append]
    constructor
    · intro hserve
      exact ⟨[], h, journal, rfl, hserve, rfl⟩
    · intro ⟨earlier, h₁, later, hbefore, hafter, hjournal⟩
      cases hbefore
      rw [hjournal, List.nil_append]
      exact hafter
  | cons demand before ih =>
    simp only [List.cons_append, serve_cons_eq_ok_iff, ih]
    constructor
    · intro ⟨flushed, h₁, _, haccess, ⟨earlier, h₂, later, hbefore, hafter, hrest⟩, hjournal⟩
      subst hrest
      refine ⟨⟨demand, flushed⟩ :: earlier, h₂, later, ?_, hafter, hjournal⟩
      exact ⟨flushed, h₁, earlier, haccess, hbefore, rfl⟩
    · intro ⟨_, h₂, later, ⟨flushed, h₁, earlier, haccess, hbefore, hearlier⟩, hafter, hjournal⟩
      subst hearlier
      refine ⟨flushed, h₁, earlier ++ later, haccess, ?_, hjournal⟩
      exact ⟨earlier, h₂, later, hbefore, hafter, rfl⟩

/-- A journal has an entry for each of the lines, in their order. -/
theorem demands_of_serve (hserve : serve demands h = .ok (journal, h')) :
    journal.map Service.demand = demands := by
  induction demands generalizing h journal with
  | nil =>
    cases hserve
    rfl
  | cons demand demands ih =>
    obtain ⟨flushed, h₁, later, -, hrest, rfl⟩ := serve_cons_eq_ok_iff.1 hserve
    rw [List.map_cons, ih hrest]

theorem WellFormed.serve (hwell : h.WellFormed frames)
    (hserve : Hierarchy.serve demands h = .ok (journal, h')) : h'.WellFormed frames := by
  induction demands generalizing h journal with
  | nil =>
    cases hserve
    exact hwell
  | cons demand demands ih =>
    obtain ⟨flushed, h₁, later, haccess, hrest, -⟩ := serve_cons_eq_ok_iff.1 hserve
    exact ih (hwell.accessLine haccess) hrest

/-- The size of a line stays the same along a run. -/
theorem WellFormed.lineSize_of_serve (hwell : h.WellFormed frames)
    (hserve : Hierarchy.serve demands h = .ok (journal, h')) : h'.lineSize = h.lineSize := by
  rw [lineSize_eq_headD, lineSize_eq_headD, (hwell.serve hserve).map_blockSize,
    hwell.map_blockSize]

end Hierarchy

/-! ## Loops -/

theorem Action.step_forEach_cons_eq_ok_iff {ε σ α : Type} {f : α → Action ε σ Unit} {a : α}
    {as : List α} {s t : σ} :
    (Action.forEach (a :: as) f).step s = (.ok (), t) ↔
      ∃ u, (f a).step s = (.ok (), u) ∧ (Action.forEach as f).step u = (.ok (), t) := by
  rw [Action.step_forEach_cons]
  rcases (f a).step s with ⟨_ | _, u⟩
  · simp
  · simp

theorem Action.step_forEach_append_eq_ok_iff {ε σ α : Type} {f : α → Action ε σ Unit}
    {as bs : List α} {s t : σ} :
    (Action.forEach (as ++ bs) f).step s = (.ok (), t) ↔
      ∃ u, (Action.forEach as f).step s = (.ok (), u) ∧
        (Action.forEach bs f).step u = (.ok (), t) := by
  rw [Action.step_forEach_append]
  rcases (Action.forEach as f).step s with ⟨_ | _, u⟩
  · simp
  · simp

theorem Action.step_mapError_eq_ok_iff {ε ε' σ α : Type} {x : Action ε σ α} {f : ε → ε'} {a : α}
    {s t : σ} : (x.mapError f).step s = (.ok a, t) ↔ x.step s = (.ok a, t) := by
  rw [Action.step_mapError]
  rcases x.step s with ⟨_ | _, u⟩
  · simp
  · simp

namespace Hierarchy

variable {frames : List Frame} {h h' : Hierarchy}

theorem access_eq_ok_iff {record : TraceRecord} :
    (access record).step h = (.ok (), h') ↔
      ∃ journal, serve (record.demands h.lineSize) h = .ok (journal, h') := by
  unfold access TraceRecord.demands
  rw [Action.step_bind, Action.step_get]
  dsimp only
  generalize record.lines h.lineSize = lines
  induction lines generalizing h with
  | nil => simp [serve, eq_comm]
  | cons line lines ih =>
    rw [List.map_cons, Action.step_forEach_cons_eq_ok_iff]
    simp only [ih, serve_cons_eq_ok_iff, Action.step_bind_eq_ok_iff, Action.step_pure,
      Prod.mk.injEq, true_and]
    constructor
    · intro ⟨h₁, ⟨flushed, h₂, haccess, hsame⟩, later, hserve⟩
      subst hsame
      exact ⟨_, flushed, h₂, later, haccess, hserve, rfl⟩
    · intro ⟨_, flushed, h₁, later, haccess, hserve, _⟩
      exact ⟨h₁, ⟨flushed, h₁, haccess, rfl⟩, later, hserve⟩

/-- The records of a trace are served one after the other. -/
theorem WellFormed.forEach_access_eq_ok_iff (hwell : h.WellFormed frames)
    (records : List TraceRecord) :
    (Action.forEach records access).step h = (.ok (), h') ↔
      ∃ journal, Hierarchy.serve (records.flatMap (·.demands h.lineSize)) h =
        .ok (journal, h') := by
  induction records generalizing h with
  | nil => simp [Hierarchy.serve, eq_comm]
  | cons record records ih =>
    simp only [List.flatMap_cons, Action.step_forEach_cons_eq_ok_iff, access_eq_ok_iff,
      serve_append]
    constructor
    · intro ⟨h₁, ⟨earlier, hrecord⟩, hrest⟩
      obtain ⟨later, hlater⟩ := (ih (hwell.serve hrecord)).1 hrest
      rw [hwell.lineSize_of_serve hrecord] at hlater
      exact ⟨_, earlier, h₁, later, hrecord, hlater, rfl⟩
    · intro ⟨_, earlier, h₁, later, hrecord, hlater, _⟩
      refine ⟨h₁, ⟨earlier, hrecord⟩, (ih (hwell.serve hrecord)).2 ⟨later, ?_⟩⟩
      rw [hwell.lineSize_of_serve hrecord]
      exact hlater

/-! ## Traces -/

theorem forEach_mapError_eq_ok_iff (records : List TraceRecord) :
    (Action.forEach records fun record => (access record).mapError TraceFailure.store).step h =
        (.ok (), h') ↔
      (Action.forEach records access).step h = (.ok (), h') := by
  induction records generalizing h with
  | nil => simp
  | cons record records ih =>
    simp only [Action.step_forEach_cons_eq_ok_iff, Action.step_mapError_eq_ok_iff, ih]

theorem simulateFixed_eq_ok_iff {bytes : List UInt8} :
    (simulateFixed bytes).step h = (.ok (), h') ↔
      ∃ records, (Trace.fixed bytes).records = .ok records ∧
        (Action.forEach records access).step h = (.ok (), h') := by
  unfold simulateFixed
  show _ ↔ ∃ records, FixedForm.parse bytes = .ok records ∧ _
  cases FixedForm.parse bytes with
  | error error => simp
  | ok records =>
    rw [forEach_mapError_eq_ok_iff]
    constructor
    · intro hstep
      exact ⟨records, rfl, hstep⟩
    · intro ⟨_, hrecords, hstep⟩
      cases hrecords
      exact hstep

theorem accessTextLine_eq_ok_iff {number : Nat} {line : List Char} :
    (accessTextLine number line).step h = (.ok (), h') ↔
      ∃ record?, TextForm.parseLine number line = .ok record? ∧
        (Action.forEach record?.toList access).step h = (.ok (), h') := by
  unfold accessTextLine
  cases TextForm.parseLine number line with
  | error error => simp
  | ok record? =>
    cases record? with
    | none => simp
    | some record =>
      simp only [Except.ok.injEq, exists_eq_left', Option.toList_some, exists_eq_right,
        Action.step_forEach_cons_eq_ok_iff, Action.step_mapError_eq_ok_iff,
        Action.step_forEach_nil, Prod.mk.injEq, true_and]

theorem forEach_accessTextLine_eq_ok_iff (lines : List (List Char × Nat)) :
    (Action.forEach lines fun (line, number) => accessTextLine number line).step h =
        (.ok (), h') ↔
      ∃ read, lines.mapM (fun (line, number) => TextForm.parseLine number line) = .ok read ∧
        (Action.forEach (read.filterMap id) access).step h = (.ok (), h') := by
  induction lines generalizing h with
  | nil =>
    simp only [List.mapM_nil, pure_eq_ok_iff, exists_eq_left', List.filterMap_nil,
      Action.step_forEach_nil, Prod.mk.injEq, true_and]
  | cons numbered lines ih =>
    have hsplit : ∀ (record? : Option TraceRecord) (read : List (Option TraceRecord)),
        (record? :: read).filterMap id = record?.toList ++ read.filterMap id := by
      intro record? read
      cases record? <;> rfl
    rw [Action.step_forEach_cons_eq_ok_iff]
    simp only [ih, accessTextLine_eq_ok_iff, List.mapM_cons, bind_eq_ok_iff, pure_eq_ok_iff]
    constructor
    · intro ⟨h₁, ⟨record?, hline, hfirst⟩, read, hread, hrest⟩
      refine ⟨_, ⟨record?, hline, read, hread, rfl⟩, ?_⟩
      rw [hsplit, Action.step_forEach_append_eq_ok_iff]
      exact ⟨h₁, hfirst, hrest⟩
    · intro ⟨_, ⟨record?, hline, read, hread, hall⟩, hstep⟩
      subst hall
      rw [hsplit, Action.step_forEach_append_eq_ok_iff] at hstep
      obtain ⟨h₁, hfirst, hrest⟩ := hstep
      exact ⟨h₁, ⟨record?, hline, hfirst⟩, read, hread, hrest⟩

theorem simulateText_eq_ok_iff {characters : List Char} :
    (simulateText characters).step h = (.ok (), h') ↔
      ∃ records, (Trace.text characters).records = .ok records ∧
        (Action.forEach records access).step h = (.ok (), h') := by
  unfold simulateText Trace.records
  rw [forEach_accessTextLine_eq_ok_iff]
  simp only [bind_eq_ok_iff, pure_eq_ok_iff]
  constructor
  · intro ⟨read, hread, hstep⟩
    exact ⟨_, ⟨read, hread, rfl⟩, hstep⟩
  · intro ⟨_, ⟨read, hread, hrecords⟩, hstep⟩
    subst hrecords
    exact ⟨read, hread, hstep⟩

theorem simulate_eq_ok_iff {trace : Trace} :
    (simulate trace).step h = (.ok (), h') ↔
      ∃ records, trace.records = .ok records ∧
        (Action.forEach records access).step h = (.ok (), h') := by
  cases trace with
  | fixed bytes => exact simulateFixed_eq_ok_iff
  | text characters => exact simulateText_eq_ok_iff

/-- Traces that run without a failure are served line by line. -/
theorem WellFormed.simulateAll_eq_ok_iff (hwell : h.WellFormed frames) (traces : List Trace) :
    (simulateAll traces).step h = (.ok (), h') ↔
      ∃ demands journal, demandsOf h.lineSize traces = .ok demands ∧
        Hierarchy.serve demands h = .ok (journal, h') := by
  unfold simulateAll
  induction traces generalizing h with
  | nil => simp [demandsOf, Hierarchy.serve, eq_comm]
  | cons trace traces ih =>
    simp only [Action.step_forEach_cons_eq_ok_iff, simulate_eq_ok_iff,
      hwell.forEach_access_eq_ok_iff, demandsOf, bind_eq_ok_iff, pure_eq_ok_iff]
    constructor
    · rintro ⟨h₁, ⟨records, hrecords, earlier, htrace⟩, hrest⟩
      obtain ⟨demands, later, hdemands, hlater⟩ := (ih (hwell.serve htrace)).1 hrest
      rw [hwell.lineSize_of_serve htrace] at hdemands
      refine ⟨_, earlier ++ later, ⟨records, hrecords, demands, hdemands, rfl⟩, ?_⟩
      exact (serve_append _ _ _ _ _).2 ⟨earlier, h₁, later, htrace, hlater, rfl⟩
    · rintro ⟨_, journal, ⟨records, hrecords, demands, hdemands, hall⟩, hserve⟩
      subst hall
      obtain ⟨earlier, h₁, later, htrace, hlater, -⟩ := (serve_append _ _ _ _ _).1 hserve
      refine ⟨h₁, ⟨records, hrecords, earlier, htrace⟩, (ih (hwell.serve htrace)).2 ?_⟩
      rw [hwell.lineSize_of_serve htrace]
      exact ⟨demands, later, hdemands, hlater⟩

end Hierarchy

end AssocCache
