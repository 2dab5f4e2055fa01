import AssocCache.Proofs.Hierarchy.Ledger
import AssocCache.Proofs.Hierarchy.Run

/-!
# Traces as loops over lines

Once traces are read, a run is a single loop over the lines that they ask for, and it
ends as the loop ends, be it in success or in failure (`step_simulateAll`).  This rests
on the layout of the hierarchy, which no access changes (`layout_of_serveDemand`), since
the size of a line decides how records are cut into lines.
-/

namespace AssocCache

open Success

/-! ## Loops -/

/-- A failure is seen as another type's in each round or after the loop. -/
theorem Action.step_forEach_mapError {ε ε' σ α : Type} (f : α → Action ε σ Unit) (g : ε → ε')
    (as : List α) (s : σ) :
    (Action.forEach as fun a => (f a).mapError g).step s =
      ((Action.forEach as f).mapError g).step s := by
  induction as generalizing s with
  | nil => rfl
  | cons a as ih =>
    rw [Action.step_mapError, Action.step_forEach_cons, Action.step_forEach_cons,
      Action.step_mapError]
    rcases (f a).step s with ⟨e | u, t⟩
    · rfl
    · show (Action.forEach as fun a => (f a).mapError g).step t = _
      rw [ih, Action.step_mapError]

/-- The members of the list are computed before the loop or in it. -/
theorem Action.step_forEach_map {ε σ α β : Type} (f : β → Action ε σ Unit) (g : α → β)
    (as : List α) (s : σ) :
    (Action.forEach (as.map g) f).step s = (Action.forEach as fun a => f (g a)).step s := by
  induction as generalizing s with
  | nil => rfl
  | cons a as ih =>
    rw [List.map_cons, Action.step_forEach_cons, Action.step_forEach_cons]
    rcases (f (g a)).step s with ⟨e | u, t⟩
    · rfl
    · exact ih t

namespace Hierarchy

variable {h h' : Hierarchy} {records : List TraceRecord} {traces : List Trace}
  {demands : List Demand}

/-- Serves a line. -/
def serveDemand (demand : Demand) : Run Unit := do
  let _ ← accessLine demand.address demand.kind

/-! ## The layout -/

theorem steady_layout (layout : Layout) : Steady 0 fun h => h.layout = layout where
  visit _ hold hstep := (counted_of_visit hstep).layout.trans hold
  deposit _ hold hstep := (counted_of_deposit hstep).layout.trans hold
  memoryAccess hold hstep := by
    obtain ⟨accesses, cycles, -, -, rfl⟩ := countMemoryAccess_eq_ok_iff.1 hstep
    exact hold
  memoryWriteback hold hstep := by
    obtain ⟨writebacks, -, rfl⟩ := countMemoryWriteback_eq_ok_iff.1 hstep
    exact hold

theorem serveDemand_eq_ok_iff {demand : Demand} :
    (serveDemand demand).step h = (.ok (), h') ↔
      ∃ flushed, (accessLine demand.address demand.kind).step h = (.ok flushed, h') := by
  unfold serveDemand
  simp only [Action.step_bind_eq_ok_iff, Action.step_pure_eq_ok_iff, true_and, exists_eq_right]

/-- What the steps of an access keep, a loop over lines keeps. -/
theorem Steady.serveDemands {P : Hierarchy → Prop} (hsteady : Steady 0 P) (hP : P h)
    (hstep : (Action.forEach demands serveDemand).step h = (.ok (), h')) : P h' := by
  induction demands generalizing h with
  | nil =>
    cases hstep
    exact hP
  | cons demand demands ih =>
    obtain ⟨h₁, hfirst, hrest⟩ := Action.step_forEach_cons_eq_ok_iff.1 hstep
    obtain ⟨flushed, haccess⟩ := serveDemand_eq_ok_iff.1 hfirst
    exact ih (hsteady.accessLine hP haccess) hrest

theorem lineSize_of_layout (hlayout : h'.layout = h.layout) : h'.lineSize = h.lineSize := by
  have hsizes : ∀ h : Hierarchy, h.lineSize = (h.layout.shapes.map (·.blockSize)).headD 1 := by
    intro h
    rw [lineSize_eq_headD, stores, layout, List.map_map, List.map_map]
    rfl
  rw [hsizes, hsizes, hlayout]

/-! ## Records and traces -/

theorem step_access (record : TraceRecord) (h : Hierarchy) :
    (access record).step h = (Action.forEach (record.demands h.lineSize) serveDemand).step h := by
  unfold access TraceRecord.demands
  rw [Action.step_bind, Action.step_get, Action.step_forEach_map]
  rfl

theorem step_forEach_access (records : List TraceRecord) (h : Hierarchy) :
    (Action.forEach records access).step h =
      (Action.forEach (records.flatMap (·.demands h.lineSize)) serveDemand).step h := by
  induction records generalizing h with
  | nil => rfl
  | cons record records ih =>
    rw [List.flatMap_cons, Action.step_forEach_append, Action.step_forEach_cons, step_access]
    rcases hfirst : (Action.forEach (record.demands h.lineSize) serveDemand).step h with
      ⟨failure | _, h₁⟩
    · rfl
    · have hlayout := (steady_layout h.layout).serveDemands rfl hfirst
      show (Action.forEach records access).step h₁ = _
      rw [ih, lineSize_of_layout hlayout]

theorem step_accessTextLine {number : Nat} {line : List Char} {record? : Option TraceRecord}
    (hline : TextForm.parseLine number line = .ok record?) (h : Hierarchy) :
    (accessTextLine number line).step h =
      ((Action.forEach record?.toList access).mapError TraceFailure.store).step h := by
  unfold accessTextLine
  rw [hline]
  cases record? with
  | none => rfl
  | some record =>
    rw [Action.step_mapError, Action.step_mapError, Option.toList_some, Action.step_forEach_cons]
    rcases (access record).step h with ⟨failure | _, h₁⟩
    · rfl
    · rfl

/-- Loops one after the other are one loop, by induction on the lines of text. -/
theorem step_forEach_accessTextLine {lines : List (List Char × Nat)}
    {read : List (Option TraceRecord)}
    (hread : lines.mapM (fun (line, number) => TextForm.parseLine number line) = .ok read)
    (h : Hierarchy) :
    (Action.forEach lines fun (line, number) => accessTextLine number line).step h =
      ((Action.forEach (read.filterMap id) access).mapError TraceFailure.store).step h := by
  induction lines generalizing read h with
  | nil =>
    cases hread
    rfl
  | cons numbered lines ih =>
    rw [List.mapM_cons] at hread
    obtain ⟨record?, hline, hread⟩ := bind_eq_ok_iff.1 hread
    obtain ⟨later, hlater, hall⟩ := bind_eq_ok_iff.1 hread
    rw [pure_eq_ok_iff] at hall
    subst hall
    have hsplit : (record? :: later).filterMap id = record?.toList ++ later.filterMap id := by
      cases record? <;> rfl
    rw [hsplit, Action.step_mapError, Action.step_forEach_append, Action.step_forEach_cons,
      step_accessTextLine hline, Action.step_mapError]
    rcases (Action.forEach record?.toList access).step h with ⟨failure | _, h₁⟩
    · rfl
    · show (Action.forEach lines fun (line, number) => accessTextLine number line).step h₁ = _
      rw [ih hlater, Action.step_mapError]

theorem step_simulate {trace : Trace} (hrecords : trace.records = .ok records) (h : Hierarchy) :
    (simulate trace).step h =
      ((Action.forEach records access).mapError TraceFailure.store).step h := by
  cases trace with
  | fixed bytes =>
    have hparse : FixedForm.parse bytes = .ok records := hrecords
    show (simulateFixed bytes).step h = _
    unfold simulateFixed
    rw [hparse]
    exact Action.step_forEach_mapError access TraceFailure.store records h
  | text characters =>
    obtain ⟨read, hread, hall⟩ := bind_eq_ok_iff.1 hrecords
    rw [pure_eq_ok_iff] at hall
    subst hall
    exact step_forEach_accessTextLine hread h

/-- A run of traces that can be read is a loop over the lines that they ask for. -/
theorem step_simulateAll (hdemands : demandsOf h.lineSize traces = .ok demands) :
    (simulateAll traces).step h =
      ((Action.forEach demands serveDemand).mapError TraceFailure.store).step h := by
  unfold simulateAll
  induction traces generalizing h demands with
  | nil =>
    cases hdemands
    rfl
  | cons trace traces ih =>
    obtain ⟨records, hrecords, hdemands⟩ := bind_eq_ok_iff.1 hdemands
    obtain ⟨later, hlater, hall⟩ := bind_eq_ok_iff.1 hdemands
    rw [pure_eq_ok_iff] at hall
    subst hall
    rw [Action.step_mapError, Action.step_forEach_append, Action.step_forEach_cons,
      step_simulate hrecords, Action.step_mapError, step_forEach_access]
    rcases hfirst : (Action.forEach (records.flatMap (·.demands h.lineSize)) serveDemand).step h with
      ⟨failure | _, h₁⟩
    · rw [hfirst]
      rfl
    · have hlayout := (steady_layout h.layout).serveDemands rfl hfirst
      rw [← lineSize_of_layout hlayout] at hlater
      rw [hfirst]
      show (Action.forEach traces simulate).step h₁ = _
      rw [ih hlater, Action.step_mapError]

end Hierarchy

end AssocCache
