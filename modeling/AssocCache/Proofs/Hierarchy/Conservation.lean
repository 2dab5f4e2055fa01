import AssocCache.Proofs.Hierarchy.Ledger
import AssocCache.Proofs.Hierarchy.Run

/-!
# Conservation laws of a run

Traces may be refused halfway, and the hierarchy goes on with what was done by then
(`Hierarchy.attemptAll`).  Whatever the traces were, the counters of the hierarchy
agree with those of its stores, with the counters of main memory and with the cycles
that were charged.  When no trace was refused, each level was asked for what the level
before it missed and wrote back.
-/

namespace AssocCache

open AssocCache.Action Success

/-- What holds after a trace failed, but for a fault. -/
def TraceFailure.Spares (P : Hierarchy → Prop) : TraceFailure → Hierarchy → Prop
  | .store failure, h => failure.Spares P h
  | .trace _, h => P h

theorem Config.hitLatency_of_geometry {c : Config} {g : Geometry} (h : c.geometry = .ok g) :
    g.hitLatency = c.hitLatency.toNat := by
  obtain ⟨n, -, rfl⟩ := geometry_eq_ok_iff.1 h
  rfl

namespace Hierarchy

variable {h h' : Hierarchy} {layout : Layout} {lines : Nat}

/-- The answer to a trace, and the hierarchy after it.  A refusal is an answer, and a
fault is none. -/
def attempt (trace : Trace) (h : Hierarchy) :
    Except Fault (Except TraceFailure Unit × Hierarchy) :=
  match (simulate trace).step h with
  | (.error (.store (.aborted fault)), _) => .error fault
  | (answer, h) => .ok (answer, h)

/-- The answers to one trace after the other, and the hierarchy after them. -/
def attemptAll : List Trace → Hierarchy →
    Except Fault (List (Except TraceFailure Unit) × Hierarchy)
  | [], h => .ok ([], h)
  | trace :: traces, h => do
    let (answer, h) ← attempt trace h
    let (answers, h) ← attemptAll traces h
    pure (answer :: answers, h)

theorem attemptAll_cons_eq_ok_iff {trace : Trace} {traces : List Trace}
    {answers : List (Except TraceFailure Unit)} :
    attemptAll (trace :: traces) h = .ok (answers, h') ↔
      ∃ answer h₁ later, attempt trace h = .ok (answer, h₁) ∧
        attemptAll traces h₁ = .ok (later, h') ∧ answers = answer :: later := by
  simp only [attemptAll, bind_eq_ok_iff, pure_eq_ok_iff, Prod.exists, Prod.mk.injEq]
  constructor
  · intro ⟨answer, h₁, hfirst, later, h₂, hrest, hanswers, hstate⟩
    subst hstate
    exact ⟨answer, h₁, later, hfirst, hrest, hanswers.symm⟩
  · intro ⟨answer, h₁, later, hfirst, hrest, hanswers⟩
    exact ⟨answer, h₁, hfirst, later, h', hrest, hanswers.symm, rfl⟩

theorem step_of_attempt {trace : Trace} {answer : Except TraceFailure Unit}
    (hattempt : attempt trace h = .ok (answer, h')) :
    (simulate trace).step h = (answer, h') ∧
      ∀ fault, answer ≠ .error (.store (.aborted fault)) := by
  unfold attempt at hattempt
  rcases hstep : (simulate trace).step h with ⟨failure | _, h₁⟩
  · rw [hstep] at hattempt
    cases failure with
    | trace error =>
      cases hattempt
      exact ⟨rfl, by simp⟩
    | store failure =>
      cases failure with
      | refused refusal =>
        cases hattempt
        exact ⟨rfl, by simp⟩
      | aborted fault => cases hattempt
  · rw [hstep] at hattempt
    cases hattempt
    exact ⟨rfl, by simp⟩

/-- Traces that were all run to the end are a run without a failure. -/
theorem simulateAll_of_attemptAll {traces : List Trace}
    {answers : List (Except TraceFailure Unit)} (hrun : attemptAll traces h = .ok (answers, h'))
    (hanswers : ∀ answer ∈ answers, answer = .ok ()) :
    (simulateAll traces).step h = (.ok (), h') := by
  induction traces generalizing h answers with
  | nil =>
    cases hrun
    rfl
  | cons trace traces ih =>
    obtain ⟨answer, h₁, later, hattempt, hrest, rfl⟩ := attemptAll_cons_eq_ok_iff.1 hrun
    obtain ⟨hstep, -⟩ := step_of_attempt hattempt
    rw [hanswers answer List.mem_cons_self] at hstep
    refine Action.step_forEach_cons_eq_ok_iff.2 ⟨h₁, hstep, ?_⟩
    exact ih hrest fun other hother => hanswers other (List.mem_cons_of_mem _ hother)

/-! ## Balance along a run -/

theorem Balanced.accessLine (hbalanced : Balanced layout h) (address : Nat) (kind : AccessKind) :
    Ends (Hierarchy.accessLine address kind) h (fun _ => Balanced layout)
      (Failure.Spares (Balanced layout)) := by
  obtain ⟨lines, asked, pending, hasked, hledger⟩ := hbalanced
  exact (hledger.accessLine hasked).weaken (fun _ _ hlater => hlater.balanced hasked)
    fun _ _ hlater => hlater

theorem Balanced.access (hbalanced : Balanced layout h) (record : TraceRecord) :
    Ends (Hierarchy.access record) h (fun _ => Balanced layout)
      (Failure.Spares (Balanced layout)) := by
  unfold Hierarchy.access
  refine ends_bind.2 ?_
  show Ends (Action.forEach (record.lines h.lineSize) _) h _ _
  refine Ends.forEach (fun line _ h₁ hbalanced₁ => ?_) hbalanced
  exact ends_bind.2 (hbalanced₁.accessLine line record.kind)

theorem Balanced.accessRecord (hbalanced : Balanced layout h) (record : TraceRecord) :
    Ends ((Hierarchy.access record).mapError TraceFailure.store) h (fun _ => Balanced layout)
      (TraceFailure.Spares (Balanced layout)) :=
  ends_mapError.2 (hbalanced.access record)

theorem Balanced.simulate (hbalanced : Balanced layout h) (trace : Trace) :
    Ends (Hierarchy.simulate trace) h (fun _ => Balanced layout)
      (TraceFailure.Spares (Balanced layout)) := by
  cases trace with
  | fixed bytes =>
    show Ends (simulateFixed bytes) h _ _
    unfold simulateFixed
    split
    · exact hbalanced
    · exact Ends.forEach (fun record _ h₁ hbalanced₁ => hbalanced₁.accessRecord record) hbalanced
  | text characters =>
    show Ends (simulateText characters) h _ _
    refine Ends.forEach (fun line _ h₁ hbalanced₁ => ?_) hbalanced
    show Ends (accessTextLine line.2 line.1) h₁ _ _
    unfold accessTextLine
    split
    · exact hbalanced₁
    · exact hbalanced₁
    · exact hbalanced₁.accessRecord _

theorem Balanced.attempt (hbalanced : Balanced layout h) {trace : Trace}
    {answer : Except TraceFailure Unit} (hattempt : Hierarchy.attempt trace h = .ok (answer, h')) :
    Balanced layout h' := by
  obtain ⟨hstep, hfault⟩ := step_of_attempt hattempt
  cases answer with
  | ok _ => exact (hbalanced.simulate trace).of_ok hstep
  | error failure =>
    have hspared := (hbalanced.simulate trace).of_error hstep
    cases failure with
    | trace error => exact hspared
    | store failure =>
      cases failure with
      | refused refusal => exact hspared
      | aborted fault => exact absurd rfl (hfault fault)

/-- The counters balance after any traces, by induction on them. -/
theorem Balanced.attemptAll (hbalanced : Balanced layout h) {traces : List Trace}
    {answers : List (Except TraceFailure Unit)}
    (hrun : Hierarchy.attemptAll traces h = .ok (answers, h')) : Balanced layout h' := by
  induction traces generalizing h answers with
  | nil =>
    cases hrun
    exact hbalanced
  | cons trace traces ih =>
    obtain ⟨answer, h₁, later, hattempt, hrest, -⟩ := attemptAll_cons_eq_ok_iff.1 hrun
    exact ih (hbalanced.attempt hattempt) hrest

/-- No request is open after a run, by induction on the lines that are served. -/
theorem Ledger.serve {demands : List Demand} {journal : List Service}
    (hledger : Ledger layout lines [] [] h)
    (hserve : Hierarchy.serve demands h = .ok (journal, h')) :
    Ledger layout (lines + demands.length) [] [] h' := by
  induction demands generalizing h lines journal with
  | nil =>
    cases hserve
    exact hledger
  | cons demand demands ih =>
    obtain ⟨flushed, h₁, later, haccess, hrest, -⟩ := serve_cons_eq_ok_iff.1 hserve
    have hnext := ih ((hledger.accessLine List.not_mem_nil).of_ok haccess) hrest
    rw [List.length_cons, Nat.add_comm demands.length, ← Nat.add_assoc]
    exact hnext

/-! ## The laws -/

theorem tallies_of_ofConfig {c : HierarchyConfig} (hbuilt : (ofConfig c).result = .ok h) :
    ∀ l ∈ h.levels, l.tally = {} ∧ l.store.stats = {} := by
  obtain ⟨-, levels, hlevels, rfl⟩ := ofConfig_eq_ok_iff.1 hbuilt
  obtain ⟨hlength, hfresh⟩ := buildLevels_eq_ok hlevels
  intro l hl
  obtain ⟨level, hlevel⟩ := List.getElem?_of_mem hl
  have hlt : level < c.caches.length := hlength ▸ (List.getElem?_eq_some_iff.1 hlevel).1
  obtain ⟨hstore, htally⟩ := hfresh (List.getElem?_eq_getElem hlt) hlevel
  obtain ⟨geometry, policy, -, -, hcreate⟩ := Store.ofConfig_eq_ok_iff.1 hstore
  exact ⟨htally, Store.stats_of_create hcreate⟩

/-- Nothing is counted about a new hierarchy. -/
theorem ledger_of_ofConfig {c : HierarchyConfig} (hbuilt : (ofConfig c).result = .ok h) :
    Ledger h.layout 0 [] [] h := by
  have hfresh := tallies_of_ofConfig hbuilt
  have htally : ∀ level, h.tallyAt level = {} := fun level => by
    cases hl : h.levels[level]? with
    | none =>
      rw [tallyAt, hl]
      rfl
    | some l => rw [tallyAt_eq hl, (hfresh l (List.mem_of_getElem? hl)).1]
  have hstore : ∀ level, h.storeTallyAt level = {} := fun level => by
    cases hl : h.levels[level]? with
    | none =>
      rw [storeTallyAt, hl]
      rfl
    | some l =>
      rw [storeTallyAt_eq hl, (hfresh l (List.mem_of_getElem? hl)).2]
      rfl
  have hcycles : h.lookupCycles = 0 := by
    refine List.sum_eq_zero fun cycles hmem => ?_
    obtain ⟨l, hl, rfl⟩ := List.mem_map.1 hmem
    rw [Level.cycles, (hfresh l hl).1]
    rfl
  obtain ⟨-, levels, -, hstate⟩ := ofConfig_eq_ok_iff.1 hbuilt
  have hmemory : h.memoryAccesses = 0 ∧ h.memoryWritebacks = 0 ∧ h.cycles = 0 := by
    rw [hstate]
    exact ⟨rfl, rfl, rfl⟩
  have hdemands : ∀ level, h.demandsAt level = 0 := fun level => by
    simp [demandsAt, htally, hmemory.1]
  have hrequests : ∀ level, h.requestsAt level = 0 := fun level => by
    simp [requestsAt, hstore, hmemory.1, hmemory.2.1]
  exact {
    layout_eq := rfl
    evictions := fun level => by rw [htally, hstore]
    writebacks := fun level => by rw [htally, hstore]
    first_hits := by rw [htally, hstore]
    first_misses := by rw [htally, hstore]
    start := hdemands 0
    demands := fun level _ => by rw [hdemands, htally, List.count_nil]
    requests := fun level _ => by rw [hrequests, htally, List.count_nil]
    cycles := by rw [hmemory.1, hmemory.2.2, hcycles, Nat.mul_zero]
    fits := fun level => by
      rw [htally]
      exact ⟨by decide, by decide⟩ }

/-- The geometries of a hierarchy are those of its configurations. -/
theorem geometry_of_layout {c : HierarchyConfig} (hbuilt : (ofConfig c).result = .ok h)
    (hlayout : h'.layout = h.layout) :
    h'.levels.length = c.caches.length ∧ h'.memoryLatency = c.memoryLatency.toNat ∧
      ∀ {level : Nat} {config : Config} {l : Level}, c.caches[level]? = some config →
        h'.levels[level]? = some l → config.geometry = .ok l.store.geometry := by
  obtain ⟨hlength, hstores⟩ := stores_of_ofConfig hbuilt
  obtain ⟨-, levels, -, hstate⟩ := ofConfig_eq_ok_iff.1 hbuilt
  have hlength' : h'.levels.length = h.levels.length := by
    rw [length_levels, length_levels, hlayout]
  rw [stores, List.length_map] at hlength
  refine ⟨hlength'.trans hlength, ?_, fun {level config l} hconfig hl => ?_⟩
  · have hlatency : h'.memoryLatency = h.memoryLatency := congrArg Layout.memoryLatency hlayout
    rw [hlatency, hstate]
  · have hlt : level < h.levels.length := hlength' ▸ (List.getElem?_eq_some_iff.1 hl).1
    have hshapes := congrArg (·.shapes[level]?) hlayout
    simp only [layout, List.getElem?_map, hl, List.getElem?_eq_getElem hlt, Option.map_some,
      Option.some.injEq] at hshapes
    rw [hshapes]
    refine (Store.wellFormed_of_ofConfig (hstores hconfig ?_)).1
    rw [stores, List.getElem?_map, List.getElem?_eq_getElem hlt, Option.map_some]

theorem getElem?_of_getLast? {l : Level} (hl : h.levels.getLast? = some l) :
    ∃ level, level + 1 = h.layout.depth ∧ h.levels[level]? = some l := by
  rw [List.getLast?_eq_getElem?] at hl
  have hlt := (List.getElem?_eq_some_iff.1 hl).1
  refine ⟨_, ?_, hl⟩
  rw [← length_levels]
  omega

namespace Ledger

variable {asked pending : List Nat} {l upper lower : Level} {level : Nat}

/-- Main memory served what the last level missed. -/
theorem memoryAccesses_eq (hledger : Ledger layout lines asked pending h)
    (hasked : layout.depth ∉ asked) (hl : h.levels.getLast? = some l) :
    h.memoryAccesses = l.tally.misses := by
  obtain ⟨level, hlast, hlevel⟩ := getElem?_of_getLast? hl
  rw [hledger.layout_eq] at hlast
  have hmissed := hledger.demands level (by omega)
  rw [hlast, List.count_eq_zero.2 hasked, Nat.add_zero, tallyAt_eq hlevel, demandsAt,
    hledger.length_eq, if_neg (Nat.lt_irrefl _)] at hmissed
  exact hmissed

/-- Main memory took what the last level wrote back. -/
theorem memoryWritebacks_eq (hledger : Ledger layout lines [] [] h)
    (hl : h.levels.getLast? = some l) : h.memoryWritebacks = l.tally.writebacks := by
  have hserved := hledger.memoryAccesses_eq List.not_mem_nil hl
  obtain ⟨level, hlast, hlevel⟩ := getElem?_of_getLast? hl
  rw [hledger.layout_eq] at hlast
  have hreached := hledger.requests level (by omega)
  rw [hlast, List.count_nil, Nat.add_zero, tallyAt_eq hlevel, requestsAt, hledger.length_eq,
    if_neg (Nat.lt_irrefl _)] at hreached
  omega

/-- A level was asked for what the level before it missed and wrote back. -/
theorem lower_eq (hledger : Ledger layout lines [] [] h) (hupper : h.levels[level]? = some upper)
    (hlower : h.levels[level + 1]? = some lower) :
    lower.tally.hits + lower.tally.misses = upper.tally.misses ∧
      lower.store.stats.hits + lower.store.stats.misses =
        upper.tally.misses + upper.tally.writebacks := by
  have hlt := (List.getElem?_eq_some_iff.1 hlower).1
  have hdepth := hledger.length_eq
  have hmissed := hledger.demands level (by omega)
  have hreached := hledger.requests level (by omega)
  rw [demandsAt, if_pos hlt, tallyAt_eq hlower, tallyAt_eq hupper, List.count_nil] at hmissed
  rw [requestsAt, if_pos hlt, storeTallyAt_eq hlower, tallyAt_eq hupper, List.count_nil] at hreached
  exact ⟨hmissed, hreached⟩

end Ledger

/-- The conservation laws of a hierarchy.  After any traces, refused or not, what is
counted twice agrees, main memory served what the last level missed, and the cycles are
those of the lookups and of main memory.  If no trace was refused, the first level was
asked for every line of the traces, every other level for what the level before it
missed and wrote back, and main memory took what the last level wrote back. -/
theorem conservation_of_traces {c : HierarchyConfig} {h₀ h : Hierarchy} {traces : List Trace}
    {answers : List (Except TraceFailure Unit)} (hbuilt : (ofConfig c).result = .ok h₀)
    (hrun : attemptAll traces h₀ = .ok (answers, h)) :
    h.levels.length = c.caches.length ∧
    (∀ l ∈ h.levels, l.tally.evictions = l.store.stats.evictions ∧
      l.tally.writebacks = l.store.stats.writebacks) ∧
    (∀ l, h.levels.head? = some l → l.tally.hits = l.store.stats.hits ∧
      l.tally.misses = l.store.stats.misses) ∧
    (∀ l, h.levels.getLast? = some l → h.memoryAccesses = l.tally.misses) ∧
    h.cycles = (List.zipWith (fun config l => config.hitLatency.toNat *
      (l.tally.hits + l.tally.misses)) c.caches h.levels).sum +
        c.memoryLatency.toNat * h.memoryAccesses ∧
    ((∀ answer ∈ answers, answer = .ok ()) →
      ∃ demands, demandsOf h₀.lineSize traces = .ok demands ∧
        (∀ l, h.levels.head? = some l → l.tally.hits + l.tally.misses = demands.length) ∧
        (∀ level upper lower, h.levels[level]? = some upper →
          h.levels[level + 1]? = some lower →
          lower.tally.hits + lower.tally.misses = upper.tally.misses ∧
          lower.store.stats.hits + lower.store.stats.misses =
            upper.tally.misses + upper.tally.writebacks) ∧
        ∀ l, h.levels.getLast? = some l → h.memoryWritebacks = l.tally.writebacks) := by
  have hstart := ledger_of_ofConfig hbuilt
  obtain ⟨lines, asked, pending, hasked, hledger⟩ :=
    (hstart.balanced List.not_mem_nil).attemptAll hrun
  obtain ⟨hlength, hlatency, hgeometry⟩ := geometry_of_layout hbuilt hledger.layout_eq
  refine ⟨hlength, ?_, ?_, fun l hl => hledger.memoryAccesses_eq hasked hl, ?_, fun hanswers => ?_⟩
  · intro l hl
    obtain ⟨level, hlevel⟩ := List.getElem?_of_mem hl
    have hevictions := hledger.evictions level
    have hwritebacks := hledger.writebacks level
    rw [tallyAt_eq hlevel, storeTallyAt_eq hlevel] at hevictions hwritebacks
    exact ⟨hevictions, hwritebacks⟩
  · intro l hl
    rw [List.head?_eq_getElem?] at hl
    have hhits := hledger.first_hits
    have hmisses := hledger.first_misses
    rw [tallyAt_eq hl, storeTallyAt_eq hl] at hhits hmisses
    exact ⟨hhits, hmisses⟩
  · have hlookups : h.levels.map Level.cycles = List.zipWith (fun config l =>
        config.hitLatency.toNat * (l.tally.hits + l.tally.misses)) c.caches h.levels := by
      refine List.ext_getElem (by simp [hlength]) fun level hleft hright => ?_
      rw [List.length_map] at hleft
      have hlt : level < c.caches.length := hlength ▸ hleft
      rw [List.getElem_map, List.getElem_zipWith, Level.cycles, Config.hitLatency_of_geometry
        (hgeometry (List.getElem?_eq_getElem hlt) (List.getElem?_eq_getElem hleft))]
    have hmemory : h₀.layout.memoryLatency = c.memoryLatency.toNat := by
      rw [← hlatency, ← hledger.layout_eq]
      rfl
    rw [hledger.cycles, lookupCycles, hlookups, hmemory]
  · have hrun' := simulateAll_of_attemptAll hrun hanswers
    obtain ⟨demands, journal, hdemands, hserve⟩ :=
      ((wellFormed_of_ofConfig hbuilt).simulateAll_eq_ok_iff traces).1 hrun'
    have hledger' := hstart.serve hserve
    refine ⟨demands, hdemands, fun l hl => ?_, fun level upper lower => hledger'.lower_eq,
      fun l => hledger'.memoryWritebacks_eq⟩
    rw [List.head?_eq_getElem?] at hl
    have hasked := hledger'.start
    rw [demandsAt, if_pos (List.getElem?_eq_some_iff.1 hl).1, tallyAt_eq hl, List.count_nil] at hasked
    omega

/-- One line of 64 bytes above two lines of 128 bytes, with fewer address bits below.  The
third access is refused by the lower level, and the fourth is served.  The first two alone
make a trace that is not refused. -/
theorem conservation_of_refused_trace :
    ∃ h₀ h h' answers,
      (ofConfig ⟨100, [.ofShape .lru 64 64 1,
        { Config.ofShape .lru 256 128 1 with addressBits := 32 }]⟩).result = .ok h₀ ∧
      attemptAll [.text "W 0\nW 40\nR 100000000\n".toList, .text "R 80\n".toList] h₀ =
        .ok ([.error (.store (.refused (.addressOutOfRange 4294967296 32))), .ok ()], h) ∧
      (∀ l, h.levels.getLast? = some l → h.memoryAccesses = l.tally.misses) ∧
      attemptAll [.text "W 0\nW 40\n".toList] h₀ = .ok (answers, h') ∧
      ∀ l, h'.levels.head? = some l → l.tally.hits + l.tally.misses = 2 := by
  have hcheck : (match (ofConfig ⟨100, [.ofShape .lru 64 64 1,
        { Config.ofShape .lru 256 128 1 with addressBits := 32 }]⟩).result with
      | .ok h₀ => h₀.lineSize == 64 &&
        (match attemptAll [.text "W 0\nW 40\nR 100000000\n".toList, .text "R 80\n".toList] h₀ with
          | .ok (answers, _) => decide (answers =
            [.error (.store (.refused (.addressOutOfRange 4294967296 32))), .ok ()])
          | .error _ => false) &&
        (match attemptAll [.text "W 0\nW 40\n".toList] h₀ with
          | .ok (answers, _) => decide (answers = [.ok ()])
          | .error _ => false)
      | .error _ => false) = true := by
    decide +kernel
  have hdemands : demandsOf 64 [.text "W 0\nW 40\n".toList] =
      .ok [⟨0, .write⟩, ⟨64, .write⟩] := rfl
  split at hcheck
  · rename_i h₀ hbuilt
    simp only [Bool.and_eq_true, beq_iff_eq] at hcheck
    obtain ⟨⟨hline, hrefused⟩, hserved⟩ := hcheck
    split at hrefused
    · rename_i answers h hrun
      split at hserved
      · rename_i answers' h' hrun'
        obtain ⟨-, -, -, hmemory, -⟩ := conservation_of_traces hbuilt hrun
        obtain ⟨-, -, -, -, -, hlaws⟩ := conservation_of_traces hbuilt hrun'
        rw [of_decide_eq_true hrefused] at hrun
        rw [of_decide_eq_true hserved] at hrun' hlaws
        obtain ⟨demands, hasked, hfirst, -⟩ := hlaws (by simp)
        rw [hline, hdemands] at hasked
        cases hasked
        exact ⟨h₀, h, h', _, hbuilt, hrun, hmemory, hrun', hfirst⟩
      · cases hserved
    · cases hrefused
  · cases hcheck

end Hierarchy

end AssocCache
