import AssocCache.Proofs.Hierarchy.Demands
import AssocCache.Proofs.Trace.Written

/-!
# Running a trace in pieces

A trace that is cut where one of its records ends can be run piece by piece.  From any
state, the pieces end as the whole does and reach the same state, whether an access
succeeds, is refused or faults, and also if a line of text is no record.  A piece that
fails has kept what it did before, so nothing of the pieces after it is missing.
-/

namespace AssocCache

open AssocCache.Action

/-- Rounds that do the same make loops that do the same. -/
theorem Action.step_forEach_congr {ε σ α : Type} {f g : α → Action ε σ Unit} {as : List α}
    (hround : ∀ a ∈ as, ∀ s, (f a).step s = (g a).step s) (s : σ) :
    (forEach as f).step s = (forEach as g).step s := by
  induction as generalizing s with
  | nil => rfl
  | cons a as ih =>
    rw [step_forEach_cons, step_forEach_cons, hround a List.mem_cons_self]
    rcases (g a).step s with ⟨e | _, t⟩
    · rfl
    · exact ih (fun b hb => hround b (List.mem_cons_of_mem a hb)) t

/-- A loop over two lists is two loops, one after the other. -/
theorem Action.step_forEach_append_eq_bind {ε σ α : Type} (f : α → Action ε σ Unit)
    (as bs : List α) (s : σ) :
    (forEach (as ++ bs) f).step s = (forEach as f >>= fun _ => forEach bs f).step s := by
  rw [step_forEach_append, step_bind]
  rcases (forEach as f).step s with ⟨e | _, t⟩
  · rfl
  · rfl

/-- The same failure in a text that has `count` more lines before it. -/
def TraceFailure.later (count : Nat) : TraceFailure → TraceFailure
  | .store failure => .store failure
  | .trace error => .trace (error.later count)

namespace Hierarchy

/-! ## The text form -/

/-- A line further down does the same, and fails with the same failure further down. -/
theorem step_accessTextLine_add (number count : Nat) (line : List Char) (h : Hierarchy) :
    (accessTextLine (number + count) line).step h =
      ((accessTextLine number line).mapError (TraceFailure.later count)).step h := by
  unfold accessTextLine
  rw [TextForm.parseLine_add]
  rcases TextForm.parseLine number line with error | record?
  · rfl
  · cases record? with
    | none => rfl
    | some record =>
      show ((access record).mapError TraceFailure.store).step h = _
      rw [step_mapError, step_mapError, step_mapError]
      rcases (access record).step h with ⟨failure | _, h'⟩
      · rfl
      · rfl

theorem step_forEach_accessTextLine_add (lines : List (List Char)) (count : Nat)
    (h : Hierarchy) :
    (Action.forEach (lines.zipIdx (1 + count)) fun (line, number) =>
        accessTextLine number line).step h =
      ((Action.forEach (lines.zipIdx 1) fun (line, number) =>
        accessTextLine number line).mapError (TraceFailure.later count)).step h := by
  rw [Nat.add_comm 1 count, ← List.map_snd_add_zipIdx_eq_zipIdx, step_forEach_map,
    ← step_forEach_mapError]
  refine step_forEach_congr (fun numbered _ h => ?_) h
  exact step_accessTextLine_add numbered.2 count numbered.1 h

/-- A piece of text up to a newline is run before what follows it. -/
theorem step_simulateText_append {text : List Char}
    (hclosed : text = [] ∨ text.getLast? = some '\n') (rest : List Char) (h : Hierarchy) :
    (simulateText (text ++ rest)).step h =
      (simulateText text >>= fun _ =>
        (simulateText rest).mapError (TraceFailure.later (text.count '\n'))).step h := by
  unfold simulateText
  rw [Text.lines_append hclosed, List.zipIdx_append, Text.length_lines hclosed,
    step_forEach_append_eq_bind, step_bind, step_bind]
  rcases (Action.forEach ((Text.lines text).zipIdx 1) fun (line, number) =>
    accessTextLine number line).step h with ⟨failure | _, h'⟩
  · rfl
  · exact step_forEach_accessTextLine_add (Text.lines rest) (text.count '\n') h'

/-! ## The fixed form -/

theorem simulateFixed_of_dvd {bytes : List UInt8} (hbytes : FixedForm.recordSize ∣ bytes.length) :
    simulateFixed bytes = Action.forEach (FixedForm.recordsFrom [] bytes) fun record =>
      (access record).mapError .store := by
  unfold simulateFixed
  rw [FixedForm.parse_of_dvd hbytes]

/-- Whole records are run before what follows them. -/
theorem step_simulateFixed_append {bytes rest : List UInt8}
    (hbytes : FixedForm.recordSize ∣ bytes.length) (hrest : FixedForm.recordSize ∣ rest.length)
    (h : Hierarchy) :
    (simulateFixed (bytes ++ rest)).step h =
      (simulateFixed bytes >>= fun _ => simulateFixed rest).step h := by
  have hboth : FixedForm.recordSize ∣ (bytes ++ rest).length := by
    rw [List.length_append]
    exact Nat.dvd_add hbytes hrest
  rw [simulateFixed_of_dvd hboth, simulateFixed_of_dvd hbytes, simulateFixed_of_dvd hrest,
    FixedForm.recordsFrom_nil_append hbytes, step_forEach_append_eq_bind]

theorem step_simulateFixed_of_not_dvd {bytes : List UInt8}
    (hbytes : ¬ FixedForm.recordSize ∣ bytes.length) (h : Hierarchy) :
    (simulateFixed bytes).step h = (.error (.trace (.partialRecord bytes.length)), h) := by
  unfold simulateFixed
  rw [FixedForm.parse_of_not_dvd hbytes]
  rfl

/-! ## Both forms -/

/-- Running a trace in two pieces is running it as a whole.  A text may be cut after a
newline, and bytes after a record.  If the first piece succeeds, the whole ends as the
second piece does from the state in between, but for the number of a line that is no
record.  If the first piece fails, the whole has failed with it.  Bytes that leave a
record incomplete change nothing. -/
theorem runs_in_pieces (h : Hierarchy) :
    (∀ text rest : List Char, text = [] ∨ text.getLast? = some '\n' →
      (∀ h', (simulateText text).step h = (.ok (), h') →
        (simulateText (text ++ rest)).step h =
          (((simulateText rest).step h').1.mapError (TraceFailure.later (text.count '\n')),
            ((simulateText rest).step h').2)) ∧
      ∀ failure h', (simulateText text).step h = (.error failure, h') →
        (simulateText (text ++ rest)).step h = (.error failure, h')) ∧
    (∀ bytes rest : List UInt8, 40 ∣ bytes.length → 40 ∣ rest.length →
      (∀ h', (simulateFixed bytes).step h = (.ok (), h') →
        (simulateFixed (bytes ++ rest)).step h = (simulateFixed rest).step h') ∧
      ∀ failure h', (simulateFixed bytes).step h = (.error failure, h') →
        (simulateFixed (bytes ++ rest)).step h = (.error failure, h')) ∧
    ∀ bytes : List UInt8, ¬ 40 ∣ bytes.length →
      (simulateFixed bytes).step h = (.error (.trace (.partialRecord bytes.length)), h) := by
  refine ⟨fun text rest hclosed => ?_, fun bytes rest hbytes hrest => ?_, fun bytes hbytes => ?_⟩
  · rw [step_simulateText_append hclosed, step_bind]
    constructor
    · intro h' hfirst
      rw [hfirst]
      exact step_mapError _ _ h'
    · intro failure h' hfirst
      rw [hfirst]
  · rw [step_simulateFixed_append hbytes hrest, step_bind]
    constructor
    · intro h' hfirst
      rw [hfirst]
    · intro failure h' hfirst
      rw [hfirst]
  · exact step_simulateFixed_of_not_dvd hbytes h

/-- One level with an address space of 32 bits.  The second piece of the first text goes
wrong in its second line, which is the third line of the whole.  The other text is refused
in its first piece.  The bytes are two records, and then less than two. -/
theorem runs_in_pieces_of_small_level :
    ∃ h, (ofConfig ⟨100, [{ Config.ofShape .lru 128 64 2 with addressBits := 32 }]⟩).result =
        .ok h ∧
      (∃ h₁ h₂, (simulateText "W 0\r\n".toList).step h = (.ok (), h₁) ∧
        (simulateText "R 40\nX 1".toList).step h₁ = (.error (.trace (.malformed 2 "X 1")), h₂) ∧
        (simulateText ("W 0\r\n".toList ++ "R 40\nX 1".toList)).step h =
          (.error (.trace (.malformed 3 "X 1")), h₂)) ∧
      (∃ h₁, (simulateText "R 100000000\n".toList).step h =
          (.error (.store (.refused (.addressOutOfRange 4294967296 32))), h₁) ∧
        (simulateText ("R 100000000\n".toList ++ "R 40\n".toList)).step h =
          (.error (.store (.refused (.addressOutOfRange 4294967296 32))), h₁)) ∧
      (∃ h₁, (simulateFixed (List.replicate 40 48)).step h = (.ok (), h₁) ∧
        (simulateFixed (List.replicate 40 48 ++ List.replicate 40 70)).step h =
          (simulateFixed (List.replicate 40 70)).step h₁) ∧
      (simulateFixed (List.replicate 79 48)).step h = (.error (.trace (.partialRecord 79)), h) := by
  have hcheck : (match (ofConfig ⟨100,
        [{ Config.ofShape .lru 128 64 2 with addressBits := 32 }]⟩).result with
      | .ok h =>
        let first := (simulateText "W 0\r\n".toList).step h
        decide (first.1 = .ok () ∧
          ((simulateText "R 40\nX 1".toList).step first.2).1 =
            .error (.trace (.malformed 2 "X 1")) ∧
          ((simulateText "R 100000000\n".toList).step h).1 =
            .error (.store (.refused (.addressOutOfRange 4294967296 32))) ∧
          ((simulateFixed (List.replicate 40 48)).step h).1 = .ok ())
      | .error _ => false) = true := by
    decide +kernel
  split at hcheck
  · rename_i h hbuilt
    obtain ⟨hfirst, hsecond, hrefused, hbytes⟩ := of_decide_eq_true hcheck
    obtain ⟨htext, hfixed, hpartial⟩ := runs_in_pieces h
    have hwhole := (htext "W 0\r\n".toList "R 40\nX 1".toList (by decide)).1 _
      (Prod.ext hfirst rfl)
    refine ⟨h, hbuilt, ⟨_, _, Prod.ext hfirst rfl, Prod.ext hsecond rfl, ?_⟩,
      ⟨_, Prod.ext hrefused rfl, ?_⟩, ⟨_, Prod.ext hbytes rfl, ?_⟩, ?_⟩
    · rw [hwhole, hsecond]
      rfl
    · exact (htext "R 100000000\n".toList "R 40\n".toList (by decide)).2 _ _
        (Prod.ext hrefused rfl)
    · exact (hfixed (List.replicate 40 48) (List.replicate 40 70) (by decide) (by decide)).1 _
        (Prod.ext hbytes rfl)
    · exact hpartial (List.replicate 79 48) (by decide)
  · cases hcheck

end Hierarchy

end AssocCache
