import AssocCache.Proofs.Hierarchy.Ready
import AssocCache.Proofs.Trace.Written

/-!
# Accesses written in either form

The two forms of a trace are two ways to write down the same accesses.  A hierarchy does
the same for both: it makes the accesses one after the other, ends in the same way and
reaches the same state, also when an access fails halfway.

What has been written can be read, so no such trace is malformed.  The only refusal that
is left is that of an address outside an address space (`Failure.OutOfSpace`), and a new
hierarchy faults on long or expensive traces only.
-/

namespace AssocCache

open AssocCache.Action Success

/-! ## Refusals -/

/-- If the failure is a refusal, an address is outside the address space of a store. -/
def Failure.OutOfSpace : Failure → Prop
  | .refused (.addressOutOfRange address addressBits) => 2 ^ addressBits ≤ address
  | .refused (.alreadyResident _) => False
  | .aborted _ => True

theorem Geometry.outOfSpace_of_locate {g : Geometry} {address : Nat} {failure : Failure}
    (h : g.locate address = .error failure) : failure.OutOfSpace := by
  unfold locate at h
  by_cases hadmits : g.admits address = true
  · simp only [hadmits, Bool.not_true, Bool.false_eq_true, if_false] at h
    split at h
    · cases h
      trivial
    · split at h
      · cases h
        trivial
      · split at h
        · cases h
          trivial
        · cases h
  · rw [if_pos (by simpa using hadmits)] at h
    cases h
    rw [admits_iff] at hadmits
    exact Nat.le_of_not_lt hadmits

namespace Store

variable {π : Type} [Policy π] {s t : Store π} {address : Nat} {kind : AccessKind}
  {failure : Failure}

/-- A probe is refused for its address only. -/
theorem outOfSpace_of_probe {refusal : Refusal}
    (h : (Store.probe address kind).outcome s = .error (.refused refusal)) :
    Failure.OutOfSpace (.refused refusal) := by
  cases hlocate : s.geometry.locate address with
  | error failure =>
    rw [probe_of_outside hlocate] at h
    cases h
    exact Geometry.outOfSpace_of_locate hlocate
  | ok line =>
    cases hset : s.setAt line.set with
    | ok set => exact absurd h (probe_ne_refused ⟨hlocate, setAt_eq_ok_iff.1 hset⟩ refusal)
    | error fault =>
      simp [probe, outcome_bind, locate, wayOf, outcome_read, hlocate, hset, Except.map,
        Except.bind] at h

/-- The line that a probe misses is not refused room, so an access is refused for its
address only. -/
theorem outOfSpace_of_access (hstep : (Store.access address kind).step s = (.error failure, t)) :
    failure.OutOfSpace := by
  cases failure with
  | aborted fault => trivial
  | refused refusal => exact outOfSpace_of_probe (probe_of_access_refused hstep)

end Store

namespace Hierarchy

variable {level address : Nat} {kind : AccessKind} {α : Type}

/-- The action is refused for an address outside an address space only. -/
def Confined (x : Run α) : Prop :=
  ∀ h, Ends x h (fun _ _ => True) fun failure _ => failure.OutOfSpace

namespace Confined

variable {x : Run α}

theorem pure (a : α) : Confined (pure a : Run α) := fun _ => trivial

theorem bind {β : Type} {f : α → Run β} (hx : Confined x) (hf : ∀ a, Confined (f a)) :
    Confined (x >>= f) :=
  fun h => (hx h).bind fun a t _ => hf a t

/-- Where nothing is refused at all. -/
theorem of_spares (h : ∀ h, Ends x h (fun _ _ => True) (Failure.Spares fun _ => False)) :
    Confined x := by
  intro h₀
  refine (h h₀).weaken (fun _ _ _ => trivial) fun failure _ hspares => ?_
  cases failure with
  | aborted fault => trivial
  | refused refusal => exact hspares.elim

theorem charge (cycles : Nat) : Confined (Hierarchy.charge cycles) :=
  of_spares fun _ => ends_charge fun _ _ _ => trivial

theorem count (level : Nat) (update : Tally → Except Fault Tally) :
    Confined (Hierarchy.count level update) :=
  of_spares fun _ => ends_count fun _ _ _ => trivial

theorem countEviction (level : Nat) (gone : Option Eviction) :
    Confined (Hierarchy.countEviction level gone) :=
  of_spares fun _ => ends_countEviction fun _ _ _ => trivial

theorem countMemoryAccess : Confined Hierarchy.countMemoryAccess :=
  of_spares fun _ => ends_countMemoryAccess fun _ _ _ => trivial

theorem countMemoryWriteback : Confined Hierarchy.countMemoryWriteback :=
  of_spares fun _ => ends_countMemoryWriteback fun _ _ _ => trivial

theorem onStore_access (level address : Nat) (kind : AccessKind) :
    Confined (onStore level (Store.access address kind)) := by
  intro h
  refine ends_iff.2 ⟨fun _ _ _ => trivial, fun failure h' hstep => ?_⟩
  cases hl : h.levels[level]? with
  | none =>
    rw [step_onStore_none hl] at hstep
    cases hstep
    trivial
  | some l =>
    rw [step_onStore hl] at hstep
    rcases haccess : (Store.access address kind).step l.store with ⟨refused | outcome, store⟩
    · rw [haccess] at hstep
      cases hstep
      exact Store.outOfSpace_of_access haccess
    · rw [haccess] at hstep
      cases hstep

theorem visit (address level : Nat) (kind : AccessKind) :
    Confined (Hierarchy.visit address level kind) := by
  refine (onStore_access level address kind).bind fun outcome => ?_
  refine (charge _).bind fun _ => ?_
  split
  · exact (count _ _).bind fun _ => pure _
  · exact (count _ _).bind fun _ => (countEviction _ _).bind fun _ => pure _

theorem deposit (address level : Nat) : Confined (Hierarchy.deposit address level) := by
  refine (onStore_access level address .writeback).bind fun outcome => ?_
  split
  · exact pure _
  · exact (countEviction _ _).bind fun _ => pure _

theorem descend (address : Nat) (levels : List Nat) (kind : AccessKind) :
    Confined (Hierarchy.descend address levels kind) := by
  induction levels generalizing kind with
  | nil => exact pure _
  | cons level below ih =>
    intro h
    refine Ends.of_step_eq ?_ (step_descend_cons h)
    refine (visit address level kind).bind (fun outcome => ?_) h
    split
    · exact pure _
    · exact (ih .read).bind fun _ => pure _

theorem writeBack (levels : List Nat) (address : Nat) :
    Confined (Hierarchy.writeBack levels address) := by
  induction levels generalizing address with
  | nil => exact countMemoryWriteback.bind fun _ => pure _
  | cons level below ih =>
    intro h
    refine Ends.of_step_eq ?_ (step_writeBack_cons h)
    refine (deposit address level).bind (fun outcome => ?_) h
    split
    · exact pure _
    · exact ih _

theorem writeBackAll (victims : List Victim) : Confined (Hierarchy.writeBackAll victims) := by
  induction victims with
  | nil => exact pure _
  | cons victim victims ih =>
    exact (writeBack victim.below victim.address).bind fun _ => ih.bind fun _ => pure _

theorem accessLine (address : Nat) (kind : AccessKind) :
    Confined (Hierarchy.accessLine address kind) := by
  intro h
  refine ends_bind.2 ?_
  refine (descend address (List.range h.levels.length) kind).bind (fun descent => ?_) h
  split
  · exact countMemoryAccess.bind fun _ => writeBackAll _
  · exact writeBackAll _

theorem forEach {β : Type} {f : β → Run Unit} (hf : ∀ b, Confined (f b)) (bs : List β) :
    Confined (Action.forEach bs f) := fun _ =>
  Ends.forEach (fun b _ h _ => hf b h) trivial

theorem access (record : TraceRecord) : Confined (Hierarchy.access record) := by
  intro h
  refine ends_bind.2 ?_
  exact forEach (fun line => (accessLine line record.kind).bind fun _ => pure _) _ h

end Confined

/-! ## The two forms -/

/-- Accesses written as records of a fixed width and written as lines of text are the
same trace.  From any state of a hierarchy, both make the accesses one after the other,
with the same end and the same state after it.  The end is a success, or the refusal of
an address outside an address space, unless a fault cuts the run short.  A hierarchy that is
new faults only if its accesses may take more steps than 32 bits can count, or charge more
cycles than 64 bits can hold. -/
theorem written_forms_agree (h : Hierarchy) {accesses : List (UInt64 × TraceRecord)}
    (haccesses : ∀ access ∈ accesses, access.2.size.toNat ≤ 999 ∧
      (access.2.kind = .read ∨ access.2.kind = .write)) :
    let fixed := simulateFixed (accesses.flatMap fun (counter, record) =>
      Text.Utf8.encode (FixedForm.format counter record.address record.kind record.size))
    let text := simulateText (accesses.flatMap fun (_, record) => TextForm.format record ++ ['\n'])
    let steps := h.stepBound (accesses.map Prod.snd)
    fixed.step h = text.step h ∧
      text.step h =
        ((Action.forEach (accesses.map Prod.snd) access).mapError TraceFailure.store).step h ∧
      ((text.step h).1 = .ok () ∨
        (∃ address addressBits, 2 ^ addressBits ≤ address ∧
          (text.step h).1 = .error (.store (.refused (.addressOutOfRange address addressBits)))) ∨
        ∃ fault, (text.step h).1 = .error (.store (.aborted fault)) ∧
          ∀ c toll, (ofConfig c).result = .ok h →
            (∀ latency ∈ h.memoryLatency :: h.levels.map (·.store.geometry.hitLatency),
              latency ≤ toll) →
            2 ^ 32 ≤ steps ∨ 2 ^ 64 ≤ steps * toll) := by
  intro fixed text steps
  have hfixed := step_simulate (Trace.records_fixed haccesses) h
  have hkinds : ∀ record ∈ accesses.map Prod.snd, record.kind = .read ∨ record.kind = .write := by
    intro record hrecord
    obtain ⟨access, haccess, rfl⟩ := List.mem_map.1 hrecord
    exact (haccesses access haccess).2
  have htext := step_simulate (Trace.records_text hkinds) h
  rw [List.flatMap_map] at htext
  refine ⟨hfixed.trans htext.symm, htext, ?_⟩
  have hends := Confined.forEach Confined.access (accesses.map Prod.snd) h
  have hstep : text.step h = _ := htext
  rw [hstep, step_mapError]
  rcases hrun : (Action.forEach (accesses.map Prod.snd) access).step h with ⟨failure | _, h'⟩
  · have hfailure := hends.of_error hrun
    cases failure with
    | aborted fault =>
      refine .inr (.inr ⟨fault, rfl, fun c toll hbuilt htoll => ?_⟩)
      -- With room for all steps the failure would be a refusal.
      by_contra hfits
      obtain ⟨hsteps, hcycles⟩ := not_or.1 hfits
      have hready := ready_of_ofConfig hbuilt (Nat.lt_of_not_le hsteps) htoll
        (Nat.lt_of_not_le hcycles)
      obtain ⟨refusal, hrefused⟩ := hready.forEach_access.of_error hrun
      cases hrefused
    | refused refusal =>
      cases refusal with
      | addressOutOfRange address addressBits =>
        exact .inr (.inl ⟨address, addressBits, hfailure, rfl⟩)
      | alreadyResident address => exact hfailure.elim
  · exact .inl rfl

/-- One level with an address space of 32 bits.  The second access crosses into a second
line, and the third one is outside the address space. -/
theorem written_forms_agree_of_three_accesses :
    ∃ h, (ofConfig ⟨100, [{ Config.ofShape .lru 128 64 2 with addressBits := 32 }]⟩).result =
        .ok h ∧
      (simulateFixed (Text.Utf8.encode ("0000000000000010 0000000000000000 W 008\n" ++
          "0000000000000014 000000000000003C R 008\n" ++
          "0000000000000018 0000000100000000 R 001\n").toList)).step h =
        (simulateText "W 0x0 8\nR 0x3c 8\nR 0x100000000 1\n".toList).step h ∧
      ((simulateText "W 0x0 8\nR 0x3c 8\nR 0x100000000 1\n".toList).step h).1 =
        .error (.store (.refused (.addressOutOfRange 4294967296 32))) := by
  have hcheck : (match (ofConfig ⟨100,
        [{ Config.ofShape .lru 128 64 2 with addressBits := 32 }]⟩).result with
      | .ok h =>
        (match ((simulateText "W 0x0 8\nR 0x3c 8\nR 0x100000000 1\n".toList).step h).1 with
          | .ok _ => false
          | .error failure =>
            decide (failure = .store (.refused (.addressOutOfRange 4294967296 32))))
      | .error _ => false) = true := by
    decide +kernel
  have hfixed : ("0000000000000010 0000000000000000 W 008\n" ++
      "0000000000000014 000000000000003C R 008\n" ++
      "0000000000000018 0000000100000000 R 001\n").toList =
        FixedForm.format 0x10 0 .write 8 ++ FixedForm.format 0x14 0x3c .read 8 ++
          FixedForm.format 0x18 0x100000000 .read 1 := by
    decide +kernel
  have htext : "W 0x0 8\nR 0x3c 8\nR 0x100000000 1\n".toList =
      TextForm.format ⟨0, 8, .write⟩ ++ ['\n'] ++ (TextForm.format ⟨0x3c, 8, .read⟩ ++ ['\n']) ++
        (TextForm.format ⟨0x100000000, 1, .read⟩ ++ ['\n']) := by
    decide +kernel
  split at hcheck
  · rename_i h hbuilt
    split at hcheck
    · cases hcheck
    · rename_i failure hend
      refine ⟨h, hbuilt, ?_, hend.trans (congrArg _ (of_decide_eq_true hcheck))⟩
      have haccesses : ∀ access ∈ ([(0x10, ⟨0, 8, .write⟩), (0x14, ⟨0x3c, 8, .read⟩),
          (0x18, ⟨0x100000000, 1, .read⟩)] : List (UInt64 × TraceRecord)),
          access.2.size.toNat ≤ 999 ∧ (access.2.kind = .read ∨ access.2.kind = .write) := by
        decide
      have hagree := (written_forms_agree h haccesses).1
      simp only [List.flatMap_cons, List.flatMap_nil, List.append_nil, ← Text.Utf8.encode_append,
        ← List.append_assoc] at hagree
      rw [hfixed, htext]
      simpa only [← List.append_assoc] using hagree
  · cases hcheck

end Hierarchy

end AssocCache
