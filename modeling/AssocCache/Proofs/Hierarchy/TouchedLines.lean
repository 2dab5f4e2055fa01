import AssocCache.Proofs.Hierarchy.Conservation
import AssocCache.Proofs.Hierarchy.Demands
import AssocCache.Proofs.Trace

/-!
# The lines that an access touches

A record asks for every line of the first level that holds one of its bytes, once and in
ascending order.  The size of these lines is that of the first configuration, whatever
the hierarchy has done before.

There is one exception.  The last byte of the address space does not count, and it
matters where it is a line of its own: a record that accesses no other byte then touches
nothing (`TraceRecord.lines_eq_nil_iff`).
-/

namespace AssocCache

open AssocCache.Action Success

theorem Config.exists_blockSize_eq {c : Config} {g : Geometry} (h : c.geometry = .ok g) :
    ∃ k, c.blockSize.toNat = 2 ^ k := by
  obtain ⟨n, hn, -⟩ := geometry_eq_ok_iff.1 h
  exact hn.blockSize_power

namespace Hierarchy

variable {c : HierarchyConfig} {h₀ h : Hierarchy}

/-- The lines of the first level have the size that its configuration says, which is a
power of two. -/
theorem lineSize_of_ofConfig (hbuilt : (ofConfig c).result = .ok h₀) :
    ∃ first, c.caches.head? = some first ∧ h₀.lineSize = first.blockSize.toNat ∧
      ∃ k, first.blockSize.toNat = 2 ^ k := by
  obtain ⟨hlength, hstores⟩ := stores_of_ofConfig hbuilt
  have hsizes := map_blockSize_of_ofConfig hbuilt
  obtain ⟨hcaches, -⟩ := ofConfig_eq_ok_iff.1 hbuilt
  obtain ⟨first, rest, hfirst⟩ := List.exists_cons_of_ne_nil hcaches
  rw [hfirst] at hlength hstores hsizes
  obtain ⟨s, later, hstore⟩ := List.exists_cons_of_length_eq_add_one hlength
  have hconfig : (first :: rest)[0]? = some first := rfl
  have hs : h₀.stores[0]? = some s := by
    rw [hstore]
    rfl
  have hgeometry := (Store.wellFormed_of_ofConfig (hstores hconfig hs)).1
  refine ⟨first, by rw [hfirst]; rfl, ?_, Config.exists_blockSize_eq hgeometry⟩
  rw [lineSize_eq_headD, hsizes]
  rfl

/-- Traces leave the layout of a hierarchy as it is, refused or not. -/
theorem layout_of_attemptAll {traces : List Trace} {answers : List (Except TraceFailure Unit)}
    (hbuilt : (ofConfig c).result = .ok h₀) (hrun : attemptAll traces h₀ = .ok (answers, h)) :
    h.layout = h₀.layout := by
  obtain ⟨lines, asked, pending, -, hledger⟩ :=
    ((ledger_of_ofConfig hbuilt).balanced List.not_mem_nil).attemptAll hrun
  exact hledger.layout_eq

/-- An access touches exactly the lines that hold its bytes, in ascending order.  They are
the lines of a walk that masks the offset out of the address, goes on by the size of a
line, and ends where the end of the record is reached or the next line is no word.  The
last byte of the address space is out of reach for lines of a single byte, and only a
record that accesses nothing else touches no line. -/
theorem touched_lines {traces : List Trace} {answers : List (Except TraceFailure Unit)}
    (hbuilt : (ofConfig c).result = .ok h₀) (hrun : attemptAll traces h₀ = .ok (answers, h))
    (record : TraceRecord) :
    ∃ first, c.caches.head? = some first ∧ (∃ k, first.blockSize.toNat = 2 ^ k) ∧
      ∃ lines,
        (access record).step h = (Action.forEach lines fun line => do
          let _ ← accessLine line record.kind).step h ∧
        Walk first.blockSize.toNat record.past
          (record.address &&& ~~~(first.blockSize - 1)).toNat lines ∧
        lines.Pairwise (· < ·) ∧
        (∀ line, line ∈ lines ↔ first.blockSize.toNat ∣ line ∧
          (∃ byte, record.Holds byte ∧ line ≤ byte ∧ byte < line + first.blockSize.toNat) ∧
          ¬ (first.blockSize.toNat = 1 ∧ line = 2 ^ 64 - 1)) ∧
        (lines = [] ↔ first.blockSize.toNat = 1 ∧ record.address.toNat = 2 ^ 64 - 1) := by
  obtain ⟨first, hfirst, hsize, k, hpower⟩ := lineSize_of_ofConfig hbuilt
  have hlayout := lineSize_of_layout (layout_of_attemptAll hbuilt hrun)
  have hpos : 0 < first.blockSize.toNat := hpower ▸ Nat.two_pow_pos k
  refine ⟨first, hfirst, ⟨k, hpower⟩, record.lines first.blockSize.toNat, ?_, ?_,
    TraceRecord.pairwise_lines hpos, fun line => TraceRecord.mem_lines_iff hpower,
    TraceRecord.lines_eq_nil_iff hpower⟩
  · rw [← hsize, ← hlayout, access, step_bind, step_get]
  · rw [toNat_and_not_sub_one hpower]
    exact (TraceRecord.walk_lines_iff hpos).2 rfl

/-- Lines of 64 bytes, after a trace that was no record.  An access of 200 bytes that
begins right before the last line of the address space touches two lines, since nothing
comes after that line. -/
theorem touched_lines_of_last_two_lines :
    ∃ h₀ h, (ofConfig ⟨100, [.ofShape .lru 128 64 2]⟩).result = .ok h₀ ∧
      attemptAll [.text "X\n".toList] h₀ = .ok ([.error (.trace (.malformed 1 "X"))], h) ∧
      ∃ lines,
        (access ⟨0xffffffffffffffbe, 200, .write⟩).step h = (Action.forEach lines fun line => do
          let _ ← accessLine line .write).step h ∧
        lines.Pairwise (· < ·) ∧
        ∀ line, line ∈ lines ↔ line = 0xffffffffffffff80 ∨ line = 0xffffffffffffffc0 := by
  have hcheck : (match (ofConfig ⟨100, [.ofShape .lru 128 64 2]⟩).result with
      | .ok h₀ =>
        (match attemptAll [.text "X\n".toList] h₀ with
          | .ok (answers, _) => decide (answers = [.error (.trace (.malformed 1 "X"))])
          | .error _ => false)
      | .error _ => false) = true := by
    decide +kernel
  split at hcheck
  · rename_i h₀ hbuilt
    split at hcheck
    · rename_i answers h hrun
      obtain ⟨first, hfirst, -, lines, haccess, -, hascending, hmem, -⟩ :=
        touched_lines hbuilt hrun ⟨0xffffffffffffffbe, 200, .write⟩
      rw [of_decide_eq_true hcheck] at hrun
      cases hfirst
      refine ⟨h₀, h, hbuilt, hrun, lines, haccess, hascending, fun line => (hmem line).trans ?_⟩
      have haddress : (0xffffffffffffffbe : UInt64).toNat = 0xffffffffffffffbe := rfl
      have hsize : (200 : UInt16).toNat = 200 := rfl
      have hline : (Config.ofShape .lru 128 64 2).blockSize.toNat = 64 := rfl
      simp only [TraceRecord.Holds, haddress, hsize, hline]
      constructor
      · rintro ⟨hdvd, ⟨byte, hbyte, hheld⟩, -⟩
        omega
      · intro heq
        exact ⟨by omega, ⟨line + 63, by omega, by omega⟩, by omega⟩
    · cases hcheck
  · cases hcheck

/-- A line of one byte.  The record accesses the last byte of the address space, and the
hierarchy does not look for it, though it could. -/
theorem last_byte_untouched :
    ∃ h, (ofConfig ⟨0, [.ofShape .lru 1 1 1]⟩).result = .ok h ∧
      (⟨0xffffffffffffffff, 1, .read⟩ : TraceRecord).Holds (2 ^ 64 - 1) ∧
      h.lineSize = 1 ∧
      (access ⟨0xffffffffffffffff, 1, .read⟩).step h = (.ok (), h) ∧
      h.memoryAccesses = 0 ∧
      ((accessLine (2 ^ 64 - 1) .read).step h).2.memoryAccesses = 1 := by
  have hlines : (⟨0xffffffffffffffff, 1, .read⟩ : TraceRecord).lines 1 = [] := by decide
  have hcheck : (match (ofConfig ⟨0, [.ofShape .lru 1 1 1]⟩).result with
      | .ok h => decide (h.lineSize = 1 ∧ h.memoryAccesses = 0 ∧
          ((accessLine (2 ^ 64 - 1) .read).step h).2.memoryAccesses = 1)
      | .error _ => false) = true := by
    decide +kernel
  split at hcheck
  · rename_i h hbuilt
    obtain ⟨hsize, hbefore, hafter⟩ := of_decide_eq_true hcheck
    refine ⟨h, hbuilt, ⟨by decide, by decide⟩, hsize, ?_, hbefore, hafter⟩
    rw [access, step_bind, step_get]
    show (Action.forEach (TraceRecord.lines _ h.lineSize) _).step h = _
    rw [hsize, hlines, step_forEach_nil]
  · cases hcheck

end Hierarchy

end AssocCache
