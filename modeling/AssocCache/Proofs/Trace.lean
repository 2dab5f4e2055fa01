import AssocCache.Hierarchy
import Mathlib.Data.Nat.Bitwise

/-!
# What traces ask for

A trace in either of its forms asks for lines of the first level, one after the
other.  `Trace.records` reads a trace, and `demandsOf` lists the lines that traces
ask for.

The two forms know reads and writes only (`kind_of_records`), and they ask for
whole lines (`of_mem_demandsOf`).
-/

namespace AssocCache

open Success

/-- A trace in one of its written forms. -/
inductive Trace where
  | fixed (bytes : List UInt8)
  | text (characters : List Char)
  deriving DecidableEq, Repr

/-- A line of the first level that is asked for. -/
structure Demand where
  address : Nat
  kind : AccessKind
  deriving DecidableEq, Repr

/-- The accesses of a trace. -/
def Trace.records : Trace → Except TraceError (List TraceRecord)
  | .fixed bytes => FixedForm.parse bytes
  | .text characters => do
    let read ← ((Text.lines characters).zipIdx 1).mapM fun (line, number) =>
      TextForm.parseLine number line
    pure (read.filterMap id)

/-- The lines that an access asks for. -/
def TraceRecord.demands (lineSize : Nat) (record : TraceRecord) : List Demand :=
  (record.lines lineSize).map fun line => ⟨line, record.kind⟩

/-- The lines that traces ask for. -/
def demandsOf (lineSize : Nat) : List Trace → Except TraceError (List Demand)
  | [] => .ok []
  | trace :: traces => do
    let records ← trace.records
    let later ← demandsOf lineSize traces
    pure (records.flatMap (·.demands lineSize) ++ later)

/-! ## Kinds of accesses -/

namespace FixedForm

theorem kind_parseRecord (bytes : List UInt8) :
    (parseRecord bytes).kind = .read ∨ (parseRecord bytes).kind = .write := by
  unfold parseRecord
  dsimp only
  split
  · exact Or.inr rfl
  · exact Or.inl rfl

/-- A record that was read is a piece of the trace. -/
theorem mem_recordsFrom {done : List TraceRecord} {bytes : List UInt8} {record : TraceRecord}
    (hmem : record ∈ recordsFrom done bytes) :
    record ∈ done ∨ ∃ piece, record = parseRecord piece := by
  induction done, bytes using recordsFrom.induct with
  | case1 done =>
    rw [recordsFrom] at hmem
    exact Or.inl (List.mem_reverse.1 hmem)
  | case2 done byte rest ih =>
    rw [recordsFrom] at hmem
    rcases ih hmem with hdone | hpiece
    · rcases List.mem_cons.1 hdone with hfirst | hdone
      · exact Or.inr ⟨_, hfirst⟩
      · exact Or.inl hdone
    · exact Or.inr hpiece

end FixedForm

namespace TextForm

theorem kindOf?_eq_some {c : Char} {kind : AccessKind} (h : kindOf? c = some kind) :
    kind = .read ∨ kind = .write := by
  unfold kindOf? at h
  split at h
  · exact Or.inl (Option.some.inj h).symm
  · split at h
    · exact Or.inr (Option.some.inj h).symm
    · cases h

theorem kind_of_parseLine {number : Nat} {line : List Char} {record : TraceRecord}
    (h : parseLine number line = .ok (some record)) :
    record.kind = .read ∨ record.kind = .write := by
  unfold parseLine at h
  split at h
  · cases h
  · split at h
    · rename_i found hfound
      cases h
      unfold record? at hfound
      split at hfound
      · cases hfound
      · simp only [bind, pure, Option.bind_eq_some_iff, Option.some.injEq] at hfound
        obtain ⟨kind, hkind, text, -, ⟨address, rest⟩, -, size, -, rfl⟩ := hfound
        exact kindOf?_eq_some hkind
    · cases h

end TextForm

/-- A record that was read stands in one of the lines. -/
theorem TextForm.exists_parseLine {lines : List (List Char × Nat)}
    {read : List (Option TraceRecord)}
    (h : lines.mapM (fun (line, number) => parseLine number line) = .ok read)
    {record : TraceRecord} (hmem : some record ∈ read) :
    ∃ line number, parseLine number line = .ok (some record) := by
  induction lines generalizing read with
  | nil =>
    cases h
    cases hmem
  | cons numbered lines ih =>
    simp only [List.mapM_cons, bind_eq_ok_iff, pure_eq_ok_iff] at h
    obtain ⟨first, hfirst, rest, hrest, rfl⟩ := h
    rcases List.mem_cons.1 hmem with hhead | htail
    · exact ⟨numbered.1, numbered.2, hhead ▸ hfirst⟩
    · exact ih hrest htail

/-- A trace consists of reads and writes. -/
theorem Trace.kind_of_records {trace : Trace} {records : List TraceRecord}
    (h : trace.records = .ok records) {record : TraceRecord} (hmem : record ∈ records) :
    record.kind = .read ∨ record.kind = .write := by
  cases trace with
  | fixed bytes =>
    replace h : FixedForm.parse bytes = .ok records := h
    unfold FixedForm.parse at h
    split at h
    · cases h
      rcases FixedForm.mem_recordsFrom hmem with hnil | ⟨piece, rfl⟩
      · cases hnil
      · exact FixedForm.kind_parseRecord piece
    · cases h
  | text characters =>
    simp only [Trace.records, bind_eq_ok_iff, pure_eq_ok_iff] at h
    obtain ⟨read, hread, rfl⟩ := h
    obtain ⟨record?, hfound, hsome⟩ := List.mem_filterMap.1 hmem
    have hrecord : record? = some record := hsome
    obtain ⟨line, number, hline⟩ := TextForm.exists_parseLine hread (hrecord ▸ hfound)
    exact TextForm.kind_of_parseLine hline

/-! ## Lines -/

theorem TraceRecord.mod_of_mem_lines {record : TraceRecord} {lineSize line : Nat}
    (hmem : line ∈ record.lines lineSize) : line % lineSize = 0 := by
  unfold TraceRecord.lines at hmem
  obtain ⟨i, -, rfl⟩ := List.mem_range'.1 hmem
  rw [Nat.add_mul_mod_self_left]
  exact Nat.mod_eq_zero_of_dvd (Nat.dvd_sub_mod _)

/-- What traces ask for are reads and writes of aligned lines. -/
theorem of_mem_demandsOf {lineSize : Nat} {traces : List Trace} {demands : List Demand}
    (h : demandsOf lineSize traces = .ok demands) {demand : Demand} (hmem : demand ∈ demands) :
    (demand.kind = .read ∨ demand.kind = .write) ∧ demand.address % lineSize = 0 := by
  induction traces generalizing demands with
  | nil =>
    cases h
    cases hmem
  | cons trace traces ih =>
    simp only [demandsOf, bind_eq_ok_iff, pure_eq_ok_iff] at h
    obtain ⟨records, hrecords, later, hlater, rfl⟩ := h
    rcases List.mem_append.1 hmem with hfirst | hrest
    · obtain ⟨record, hrecord, hdemand⟩ := List.mem_flatMap.1 hfirst
      obtain ⟨line, hline, rfl⟩ := List.mem_map.1 hdemand
      exact ⟨trace.kind_of_records hrecords hrecord, TraceRecord.mod_of_mem_lines hline⟩
    · exact ih hlater hrest

end AssocCache

/-!
## The lines that hold the bytes of a record

The lines of a record can be found by walking over them: the offset is masked out of the
address of the record, and the size of a line is added as long as the end of the record
is not reached and the sum is a word.  `Walk` is that walk, and it comes to the lines of
`TraceRecord.lines` and to no others (`TraceRecord.walk_lines_iff`).

A line is among them if it holds a byte of the record (`TraceRecord.mem_lines_iff`).  The
end of a record is a word as well, so the last byte of the address space always lies
behind it.  A line of more than one byte is found by its other bytes.  A line of one
byte is not, and a record that has no other byte has no line at all
(`TraceRecord.lines_eq_nil_iff`).
-/

namespace AssocCache

variable {lineSize stop line : Nat} {lines : List Nat}

/-! ### A walk over lines -/

/-- A walk over lines, from one line on to the last one before an end.  The walk is over
where the end is reached, or where the next line does not fit into a word. -/
inductive Walk (lineSize stop : Nat) : Nat → List Nat → Prop
  | reached {line : Nat} (hend : stop ≤ line) : Walk lineSize stop line []
  | last {line : Nat} {fault : Fault} (hline : line < stop)
      (hnext : Word.add 64 line lineSize = .error fault) : Walk lineSize stop line [line]
  | next {line next : Nat} {lines : List Nat} (hline : line < stop)
      (hnext : Word.add 64 line lineSize = .ok next) (hrest : Walk lineSize stop next lines) :
      Walk lineSize stop line (line :: lines)

/-- The number of lines from one line on to the last one before an end. -/
def walkLength (lineSize stop line : Nat) : Nat := (stop - line + (lineSize - 1)) / lineSize

theorem walkLength_of_le (hsize : 0 < lineSize) (hend : stop ≤ line) :
    walkLength lineSize stop line = 0 := by
  rw [walkLength, Nat.sub_eq_zero_of_le hend]
  exact Nat.div_eq_of_lt (by omega)

theorem walkLength_of_lt (hsize : 0 < lineSize) (hline : line < stop) :
    walkLength lineSize stop line = walkLength lineSize stop (line + lineSize) + 1 := by
  unfold walkLength
  rcases Nat.lt_or_ge stop (line + lineSize) with hover | hroom
  · have hnone : 0 + (lineSize - 1) < lineSize := by omega
    rw [Nat.sub_eq_zero_of_le hover.le, Nat.div_eq_of_lt hnone]
    exact Nat.div_eq_of_lt_le (by omega) (by omega)
  · rw [← Nat.add_div_right _ hsize]
    congr 1
    omega

theorem lt_walkLength_iff (hsize : 0 < lineSize) {i : Nat} :
    i < walkLength lineSize stop line ↔ line + lineSize * i < stop := by
  have hmul : (i + 1) * lineSize = lineSize * i + lineSize := by
    rw [Nat.succ_mul, Nat.mul_comm]
  rw [walkLength, ← Nat.succ_le_iff, Nat.le_div_iff_mul_le hsize, Nat.succ_eq_add_one, hmul]
  omega

/-- A walk visits every line up to the end, and ends. -/
theorem walk_range' (hsize : 0 < lineSize) (hstop : stop < 2 ^ 64) (line : Nat) :
    Walk lineSize stop line (List.range' line (walkLength lineSize stop line) lineSize) := by
  induction hcount : walkLength lineSize stop line generalizing line with
  | zero =>
    refine .reached (Nat.le_of_not_lt fun hline => ?_)
    rw [walkLength_of_lt hsize hline] at hcount
    cases hcount
  | succ count ih =>
    have hline : line < stop := by
      by_contra hend
      rw [walkLength_of_le hsize (Nat.le_of_not_lt hend)] at hcount
      cases hcount
    rw [walkLength_of_lt hsize hline, Nat.succ_inj] at hcount
    rw [List.range'_succ]
    cases hnext : Word.add 64 line lineSize with
    | ok next =>
      obtain ⟨-, rfl⟩ := Word.add_eq_ok_iff.1 hnext
      exact .next hline hnext (ih (line + lineSize) hcount)
    | error fault =>
      -- The next line is no word, so it is past the end too, and nothing is left to visit.
      have hfull : stop ≤ line + lineSize := by
        by_contra hroom
        rw [Word.add, if_pos (by omega)] at hnext
        cases hnext
      rw [walkLength_of_le hsize hfull] at hcount
      subst hcount
      exact .last hline hnext

/-- There is only one walk, by induction on it. -/
theorem Walk.eq {other : List Nat} (hwalk : Walk lineSize stop line lines)
    (hother : Walk lineSize stop line other) : lines = other := by
  induction hwalk generalizing other with
  | reached hend =>
    cases hother with
    | reached => rfl
    | last hline => omega
    | next hline => omega
  | last hline hnext =>
    cases hother with
    | reached hend => omega
    | last => rfl
    | next _ hnext' =>
      rw [hnext] at hnext'
      cases hnext'
  | next hline hnext hrest ih =>
    cases hother with
    | reached hend => omega
    | last _ hnext' =>
      rw [hnext] at hnext'
      cases hnext'
    | next _ hnext' hrest' =>
      rw [hnext] at hnext'
      cases hnext'
      rw [ih hrest']

/-- Masking out the low bits of a word is rounding it down. -/
theorem toNat_and_not_sub_one {address size : UInt64} {k : Nat} (hsize : size.toNat = 2 ^ k) :
    (address &&& ~~~(size - 1)).toNat = address.toNat - address.toNat % size.toNat := by
  have hone : (1 : UInt64) ≤ size := by
    rw [UInt64.le_iff_toNat_le, hsize]
    exact Nat.one_le_two_pow
  have hmask : (~~~(size - 1)).toNat = 2 ^ 64 - ((2 ^ k - 1) + 1) := by
    rw [UInt64.toNat_not, UInt64.toNat_sub_of_le _ _ hone, hsize]
    show 2 ^ 64 - 1 - (2 ^ k - 1) = _
    omega
  have hlow : 2 ^ k - 1 < 2 ^ 64 := by
    have hlt := size.toNat_lt
    omega
  have hround : address.toNat - address.toNat % 2 ^ k = 2 ^ k * (address.toNat / 2 ^ k) := by
    have hdiv := Nat.div_add_mod address.toNat (2 ^ k)
    omega
  rw [UInt64.toNat_and, hmask, hsize, hround]
  refine Nat.eq_of_testBit_eq fun i => ?_
  rw [Nat.testBit_and, Nat.testBit_two_pow_sub_succ hlow, Nat.testBit_two_pow_sub_one,
    Nat.testBit_two_pow_mul, Nat.testBit_div_two_pow]
  -- A bit of the address is at `k` or above, or it is masked out.
  by_cases hi : i < k
  · simp [hi]
  · rw [Nat.sub_add_cancel (Nat.le_of_not_lt hi)]
    rcases Nat.lt_or_ge i 64 with hword | hbeyond
    · simp [hi, hword, Nat.le_of_not_lt hi]
    · have hnone : address.toNat.testBit i = false :=
        Nat.testBit_eq_false_of_lt (Nat.lt_of_lt_of_le address.toNat_lt
          (Nat.pow_le_pow_right (by decide) hbeyond))
      simp [hnone]

namespace TraceRecord

variable {record : TraceRecord}

/-! ### The lines of a record -/

/-- Where a record ends, as a word. -/
def past (record : TraceRecord) : Nat :=
  min (record.address.toNat + max record.size.toNat 1) (2 ^ 64 - 1)

/-- A byte that the record accesses, which is inside the address space. -/
def Holds (record : TraceRecord) (byte : Nat) : Prop :=
  record.address.toNat ≤ byte ∧
    byte < min (record.address.toNat + max record.size.toNat 1) (2 ^ 64)

/-- The line a record begins in. -/
def firstLine (record : TraceRecord) (lineSize : Nat) : Nat :=
  record.address.toNat - record.address.toNat % lineSize

theorem lines_eq (record : TraceRecord) (lineSize : Nat) :
    record.lines lineSize = List.range' (record.firstLine lineSize)
      (walkLength lineSize record.past (record.firstLine lineSize)) lineSize := rfl

/-- The lines of a record are those of the walk over it. -/
theorem walk_lines_iff (hsize : 0 < lineSize) :
    Walk lineSize record.past (record.firstLine lineSize) lines ↔
      lines = record.lines lineSize := by
  have hwalk := walk_range' hsize (show record.past < 2 ^ 64 by unfold past; omega)
    (record.firstLine lineSize)
  rw [lines_eq]
  constructor
  · intro h
    exact h.eq hwalk
  · rintro rfl
    exact hwalk

theorem lineSize_eq_one_of_dvd {k : Nat} (hsize : lineSize = 2 ^ k)
    (hdvd : lineSize ∣ 2 ^ 64 - 1) : lineSize = 1 := by
  cases k with
  | zero => exact hsize
  | succ k =>
    rw [hsize, Nat.pow_succ] at hdvd
    have heven : 2 ∣ 2 ^ 64 - 1 := Nat.dvd_trans (Nat.dvd_mul_left _ _) hdvd
    omega

theorem pairwise_lines (hsize : 0 < lineSize) : (record.lines lineSize).Pairwise (· < ·) :=
  List.pairwise_lt_range' lineSize hsize

theorem mem_lines_iff_lt (hsize : 0 < lineSize) :
    line ∈ record.lines lineSize ↔
      lineSize ∣ line ∧ record.address.toNat < line + lineSize ∧ line < record.past := by
  have hmod := Nat.mod_lt record.address.toNat hsize
  have hfirst : lineSize ∣ record.firstLine lineSize := Nat.dvd_sub_mod _
  have hle : record.firstLine lineSize ≤ record.address.toNat := Nat.sub_le _ _
  have hlt : record.address.toNat < record.firstLine lineSize + lineSize := by
    unfold firstLine
    omega
  rw [lines_eq, List.mem_range']
  constructor
  · rintro ⟨i, hi, rfl⟩
    refine ⟨Nat.dvd_add hfirst (Nat.dvd_mul_right _ _), by omega, ?_⟩
    exact (lt_walkLength_iff hsize).1 hi
  · rintro ⟨hdvd, hreach, hpast⟩
    -- Two multiples of the line size that are less than it apart are the same.
    have hge : record.firstLine lineSize ≤ line := by
      obtain ⟨m, hm⟩ := hfirst
      obtain ⟨n, hn⟩ := hdvd
      rw [hm, hn]
      refine Nat.mul_le_mul_left _ (Nat.le_of_lt_succ ?_)
      refine Nat.lt_of_mul_lt_mul_left (a := lineSize) ?_
      rw [Nat.mul_succ, ← hm, ← hn]
      omega
    obtain ⟨i, hi⟩ := Nat.dvd_sub hdvd hfirst
    have hline : line = record.firstLine lineSize + lineSize * i := by omega
    exact ⟨i, (lt_walkLength_iff hsize).2 (hline ▸ hpast), hline⟩

/-- The lines of a record are those that hold one of its bytes, but for a line that holds
the last byte of the address space only. -/
theorem mem_lines_iff {k : Nat} (hsize : lineSize = 2 ^ k) :
    line ∈ record.lines lineSize ↔
      lineSize ∣ line ∧ (∃ byte, record.Holds byte ∧ line ≤ byte ∧ byte < line + lineSize) ∧
        ¬ (lineSize = 1 ∧ line = 2 ^ 64 - 1) := by
  have hpos : 0 < lineSize := hsize ▸ Nat.two_pow_pos k
  have haddress : record.address.toNat < 2 ^ 64 := record.address.toNat_lt
  have hholds : (∃ byte, record.Holds byte ∧ line ≤ byte ∧ byte < line + lineSize) ↔
      record.address.toNat < line + lineSize ∧
        line < min (record.address.toNat + max record.size.toNat 1) (2 ^ 64) := by
    unfold Holds
    constructor
    · rintro ⟨byte, hbyte, hline⟩
      omega
    · intro h
      exact ⟨max record.address.toNat line, by omega, by omega⟩
  rw [mem_lines_iff_lt hpos, hholds, past]
  constructor
  · intro ⟨hdvd, hreach, hpast⟩
    exact ⟨hdvd, ⟨hreach, by omega⟩, by omega⟩
  · intro ⟨hdvd, ⟨hreach, hend⟩, hlast⟩
    refine ⟨hdvd, hreach, ?_⟩
    have hne : line ≠ 2 ^ 64 - 1 := by
      rintro rfl
      exact hlast ⟨lineSize_eq_one_of_dvd hsize hdvd, rfl⟩
    omega

/-- A record has no line only if it accesses nothing but the last byte of the address
space, and a line is one byte. -/
theorem lines_eq_nil_iff {k : Nat} (hsize : lineSize = 2 ^ k) :
    record.lines lineSize = [] ↔ lineSize = 1 ∧ record.address.toNat = 2 ^ 64 - 1 := by
  have hpos : 0 < lineSize := hsize ▸ Nat.two_pow_pos k
  have haddress : record.address.toNat < 2 ^ 64 := record.address.toNat_lt
  constructor
  · intro hnil
    by_contra hother
    have hmod := Nat.mod_lt record.address.toNat hpos
    have hnone : record.firstLine lineSize ∉ record.lines lineSize := by
      rw [hnil]
      exact List.not_mem_nil
    refine hnone ((mem_lines_iff hsize).2 ⟨Nat.dvd_sub_mod _, ⟨record.address.toNat, ?_, ?_⟩, ?_⟩)
    · exact ⟨Nat.le_refl _, by omega⟩
    · unfold firstLine
      omega
    · rintro ⟨rfl, hfirst⟩
      rw [firstLine, Nat.mod_one] at hfirst
      exact hother ⟨rfl, hfirst⟩
  · rintro ⟨hone, hlast⟩
    refine List.eq_nil_iff_forall_not_mem.2 fun line hline => ?_
    obtain ⟨-, ⟨byte, hbyte, hheld⟩, hnot⟩ := (mem_lines_iff hsize).1 hline
    unfold Holds at hbyte
    exact hnot ⟨hone, by omega⟩

end TraceRecord

end AssocCache
