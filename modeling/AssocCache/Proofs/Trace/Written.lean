import AssocCache.Proofs.Trace
import AssocCache.Text
import Mathlib.Data.List.Basic
import Mathlib.Data.List.TakeWhile

/-!
# Reading traces that were written

Both forms of a trace give back the records they were written from.

* A record of a fixed width takes 40 bytes, and each field is found where it was put
  (`FixedForm.parseRecord_write`), so the bytes of many records are cut between two of
  them (`FixedForm.recordsFrom_flatMap`).
* A line of text holds no newline of its own (`Text.lines_flatMap`), and each part of it
  ends where the next one begins (`TextForm.parseLine_format`).

`Trace.records_fixed` and `Trace.records_text` put the two together.  Program counters
are written in the fixed form only, and no reader looks at them.
-/

namespace AssocCache

/-! ## Digits -/

namespace Numeral

/-- A numeral consists of digits of its base. -/
theorem exists_digitChar {base n : Nat} (h1 : 1 < base) {c : Char} (hc : c ∈ digits base n) :
    ∃ d < base, c = d.digitChar := by
  unfold digits at hc
  induction n using Nat.base_induction base h1 with
  | single m hm =>
    rw [Nat.toDigits_of_lt_base hm, List.mem_singleton] at hc
    exact ⟨m, hm, hc⟩
  | digit m k hk hm ih =>
    rw [← Nat.toDigits_append_toDigits h1 hm hk, List.mem_append, Nat.toDigits_of_lt_base hk,
      List.mem_singleton] at hc
    rcases hc with hc | hc
    · exact ih hc
    · exact ⟨k, hk, hc⟩

theorem exists_digitChar_padded {base width n : Nat} (h1 : 1 < base) {c : Char}
    (hc : c ∈ padded base width n) : ∃ d < base, c = d.digitChar := by
  rw [padded, List.leftpad, List.mem_append] at hc
  rcases hc with hc | hc
  · exact ⟨0, by omega, List.eq_of_mem_replicate hc⟩
  · exact exists_digitChar h1 hc

theorem exists_digitChar_hexCapital {width n : Nat} {c : Char} (hc : c ∈ hexCapital width n) :
    ∃ d < 16, c = d.digitChar.toUpper := by
  obtain ⟨digit, hdigit, rfl⟩ := List.mem_map.1 hc
  obtain ⟨d, hd, rfl⟩ := exists_digitChar_padded (by omega) hdigit
  exact ⟨d, hd, rfl⟩

theorem length_digits_le {base n width : Nat} (h1 : 1 < base) (hwidth : 0 < width)
    (h : n < base ^ width) : (digits base n).length ≤ width :=
  (Nat.length_toDigits_le_iff h1 hwidth).2 h

theorem digits_ne_nil (base n : Nat) : digits base n ≠ [] := Nat.toDigits_ne_nil

theorem isHexDigit_digitChar {d : Nat} (hd : d < 16) : isHexDigit d.digitChar = true := by
  have h : ∀ d : Fin 16, isHexDigit (d : Nat).digitChar = true := by decide
  exact h ⟨d, hd⟩

theorem isDigit_digitChar {d : Nat} (hd : d < 10) : d.digitChar.isDigit = true := by
  have h : ∀ d : Fin 10, (d : Nat).digitChar.isDigit = true := by decide
  exact h ⟨d, hd⟩

end Numeral

/-! ## The fixed form -/

namespace Text.Utf8

/-- The bytes of a text. -/
def encode (text : List Char) : List UInt8 := text.flatMap String.utf8EncodeChar

theorem encode_append (text more : List Char) :
    encode (text ++ more) = encode text ++ encode more :=
  List.flatMap_append

/-- A character below 128 is a single byte. -/
theorem encode_of_ascii {text : List Char} (h : ∀ c ∈ text, c.toNat < 128) :
    encode text = text.map fun c => UInt8.ofNat c.toNat := by
  induction text with
  | nil => rfl
  | cons c text ih =>
    have hc : c.val.toNat ≤ 127 := Nat.le_of_lt_succ (h c List.mem_cons_self)
    have hbyte : String.utf8EncodeChar c = [UInt8.ofNat c.toNat] := by
      simp only [String.utf8EncodeChar, hc, if_true]
      rfl
    rw [encode, List.flatMap_cons, hbyte, List.map_cons,
      ← ih fun other hother => h other (List.mem_cons_of_mem c hother)]
    rfl

theorem length_encode {text : List Char} (h : ∀ c ∈ text, c.toNat < 128) :
    (encode text).length = text.length := by
  rw [encode_of_ascii h, List.length_map]

theorem toNat_ofNat_of_ascii {c : Char} (h : c.toNat < 128) :
    (UInt8.ofNat c.toNat).toNat = c.toNat := by
  rw [UInt8.toNat_ofNat']
  omega

/-- The characters below 128 that were encoded as bytes. -/
theorem map_ofNat_encode {text : List Char} (h : ∀ c ∈ text, c.toNat < 128) :
    (encode text).map (fun byte => Char.ofNat byte.toNat) = text := by
  rw [encode_of_ascii h, List.map_map]
  refine (List.map_congr_left fun c hc => ?_).trans (List.map_id text)
  rw [Function.comp_apply, toNat_ofNat_of_ascii (h c hc), Char.ofNat_toNat, id]

end Text.Utf8

namespace FixedForm

open Text Numeral

/-! ### One record -/

theorem digitChar_ascii {d : Nat} (hd : d < 16) :
    d.digitChar.toNat < 128 ∧ d.digitChar.toUpper.toNat < 128 := by
  have h : ∀ d : Fin 16, (d : Nat).digitChar.toNat < 128 ∧
      (d : Nat).digitChar.toUpper.toNat < 128 := by decide
  exact h ⟨d, hd⟩

theorem hexCapital_ascii (width n : Nat) : ∀ c ∈ hexCapital width n, c.toNat < 128 := by
  intro c hc
  obtain ⟨d, hd, rfl⟩ := exists_digitChar_hexCapital hc
  exact (digitChar_ascii hd).2

theorem padded_ascii (width n : Nat) : ∀ c ∈ padded 10 width n, c.toNat < 128 := by
  intro c hc
  obtain ⟨d, hd, rfl⟩ := exists_digitChar_padded (by omega) hc
  exact (digitChar_ascii (by omega)).1

theorem length_hexCapital_word (word : UInt64) : (hexCapital 16 word.toNat).length = 16 := by
  have hle := length_digits_le (show 1 < 16 by decide) (show 0 < 16 by decide)
    (show word.toNat < 16 ^ 16 from word.toNat_lt)
  rw [length_hexCapital]
  omega

theorem length_padded_size {size : Nat} (h : size ≤ 999) : (padded 10 3 size).length = 3 := by
  have hle := length_digits_le (show 1 < 10 by decide) (show 0 < 3 by decide)
    (show size < 10 ^ 3 by omega)
  rw [length_padded]
  omega

/-- The digits of an address are read as they were written. -/
theorem parseAddress_encode (address : UInt64) :
    parseAddress (Utf8.encode (hexCapital 16 address.toNat)) = address.toNat := by
  rw [parseAddress_eq_value, Utf8.map_ofNat_encode (hexCapital_ascii _ _), value_hexCapital]

theorem decimalDigit_digitChar {d : Nat} (hd : d < 10) :
    decimalDigit (UInt8.ofNat d.digitChar.toNat) = digitValue d.digitChar := by
  have h : ∀ d : Fin 10, decimalDigit (UInt8.ofNat (d : Nat).digitChar.toNat) =
      digitValue (d : Nat).digitChar := by decide
  exact h ⟨d, hd⟩

/-- The digits of a size are read as they were written, if there is room for them. -/
theorem parseSize_encode {size : Nat} (h : size ≤ 999) :
    parseSize (Utf8.encode (padded 10 3 size)) = size := by
  have hvalue := value_padded (show 1 < 10 by decide) (show 10 ≤ 16 by decide) 3 size
  have hdigit : ∀ c ∈ padded 10 3 size, decimalDigit (UInt8.ofNat c.toNat) = digitValue c := by
    intro c hc
    obtain ⟨d, hd, rfl⟩ := exists_digitChar_padded (by omega) hc
    exact decimalDigit_digitChar hd
  rw [Utf8.encode_of_ascii (padded_ascii _ _)]
  obtain ⟨hundreds, tens, units, hthree⟩ := List.length_eq_three.1 (length_padded_size h)
  rw [hthree] at hvalue hdigit ⊢
  simp only [List.map_cons, List.map_nil, parseSize, hdigit hundreds (by simp),
    hdigit tens (by simp), hdigit units (by simp)]
  simp only [value, valueFrom, List.foldl_cons, List.foldl_nil] at hvalue
  omega

/-- The bytes of a record. -/
def write (programCounter : UInt64) (record : TraceRecord) : List UInt8 :=
  Utf8.encode (format programCounter record.address record.kind record.size)

/-- The fields of a record and what stands between them. -/
theorem write_eq (programCounter : UInt64) (record : TraceRecord) :
    write programCounter record =
      (Utf8.encode (hexCapital 16 programCounter.toNat) ++ [32]) ++
        (Utf8.encode (hexCapital 16 record.address.toNat) ++
          ([32, if record.kind.isWrite then 87 else 82, 32] ++
            (Utf8.encode (padded 10 3 record.size.toNat) ++ [10]))) := by
  rw [write, format]
  cases record.kind.isWrite <;>
    simp only [Utf8.encode_append, List.append_assoc] <;> rfl

theorem length_write {record : TraceRecord} (hsize : record.size.toNat ≤ 999)
    (programCounter : UInt64) : (write programCounter record).length = recordSize := by
  simp only [write_eq, List.length_append, Utf8.length_encode (hexCapital_ascii _ _),
    Utf8.length_encode (padded_ascii _ _), length_hexCapital_word, length_padded_size hsize]
  rfl

/-- A field is found between what is written before and after it. -/
theorem field_append {before middle after : List UInt8} {first past : Nat}
    (hfirst : before.length = first) (hpast : first + middle.length = past) :
    field (before ++ (middle ++ after)) first past = middle := by
  rw [field, List.drop_left' hfirst, List.take_left' (by omega)]

/-- A record is read as it was written. -/
theorem parseRecord_write {record : TraceRecord} (hsize : record.size.toNat ≤ 999)
    (hkind : record.kind = .read ∨ record.kind = .write) (programCounter : UInt64) :
    parseRecord (write programCounter record) = record := by
  obtain ⟨address, size, kind⟩ := record
  have hcounter := length_hexCapital_word programCounter
  have hword := length_hexCapital_word address
  have hdigits := length_padded_size hsize
  rw [← Utf8.length_encode (hexCapital_ascii _ _)] at hcounter hword
  rw [← Utf8.length_encode (padded_ascii _ _)] at hdigits
  have haddress : field (write programCounter ⟨address, size, kind⟩) 17 33 =
      Utf8.encode (hexCapital 16 address.toNat) := by
    rw [write_eq]
    exact field_append (by simp [hcounter]) (by rw [hword])
  have hfield : field (write programCounter ⟨address, size, kind⟩) 36 39 =
      Utf8.encode (padded 10 3 size.toNat) := by
    rw [write_eq, ← List.append_assoc, ← List.append_assoc]
    exact field_append (by simp [hcounter, hword]) (by rw [hdigits])
  have hletter : (write programCounter ⟨address, size, kind⟩)[34]? =
      some (if kind.isWrite then 87 else 82) := by
    rw [write_eq, ← List.append_assoc, List.getElem?_append_right (by simp [hcounter, hword])]
    simp [hcounter, hword]
  unfold parseRecord
  rw [haddress, hfield, hletter, parseAddress_encode, parseSize_encode hsize]
  rcases hkind with hkind | hkind <;> dsimp only at hkind <;> subst hkind <;>
    simp [AccessKind.isWrite]

/-! ### Many records -/

theorem recordsFrom_append {piece rest : List UInt8} (hpiece : piece.length = recordSize)
    (done : List TraceRecord) :
    recordsFrom done (piece ++ rest) = recordsFrom (parseRecord piece :: done) rest := by
  cases piece with
  | nil => cases hpiece
  | cons byte piece =>
    rw [List.cons_append, recordsFrom, ← List.cons_append, List.take_left' hpiece,
      List.drop_left' hpiece]

/-- Pieces of the right size are read one by one, by induction on them. -/
theorem recordsFrom_flatMap {α : Type} {as : List α} {piece : α → List UInt8}
    (hpiece : ∀ a ∈ as, (piece a).length = recordSize) (done : List TraceRecord) :
    recordsFrom done (as.flatMap piece) =
      done.reverse ++ as.map fun a => parseRecord (piece a) := by
  induction as generalizing done with
  | nil => simp [recordsFrom]
  | cons a as ih =>
    rw [List.flatMap_cons, recordsFrom_append (hpiece a List.mem_cons_self),
      ih fun b hb => hpiece b (List.mem_cons_of_mem a hb)]
    simp

theorem length_flatMap {α : Type} {as : List α} {piece : α → List UInt8}
    (hpiece : ∀ a ∈ as, (piece a).length = recordSize) :
    (as.flatMap piece).length = recordSize * as.length := by
  induction as with
  | nil => rfl
  | cons a as ih =>
    rw [List.flatMap_cons, List.length_append, hpiece a List.mem_cons_self,
      ih fun b hb => hpiece b (List.mem_cons_of_mem a hb), List.length_cons, Nat.mul_succ,
      Nat.add_comm]

theorem parse_flatMap {α : Type} {as : List α} {piece : α → List UInt8}
    (hpiece : ∀ a ∈ as, (piece a).length = recordSize) :
    parse (as.flatMap piece) = .ok (as.map fun a => parseRecord (piece a)) := by
  rw [parse, length_flatMap hpiece, Nat.mul_mod_right, if_pos rfl, recordsFrom_flatMap hpiece]
  rfl

end FixedForm

/-! ## The text form -/

namespace Text

/-- A line ends at its newline, by induction on what is left of it. -/
theorem linesFrom_newline {line : List Char} (hline : '\n' ∉ line) (done : List (List Char))
    (current rest : List Char) :
    linesFrom done current (line ++ '\n' :: rest) =
      linesFrom (closeLine (line.reverse ++ current) :: done) [] rest := by
  induction line generalizing current with
  | nil => rw [List.nil_append, linesFrom]; rfl
  | cons c line ih =>
    rw [List.mem_cons, not_or] at hline
    rw [List.cons_append, linesFrom, ih hline.2, List.reverse_cons, List.append_assoc]
    · rfl
    · exact fun h => hline.1 h.symm

theorem closeLine_reverse {line : List Char} (hline : '\r' ∉ line) :
    closeLine line.reverse = line := by
  unfold closeLine
  split
  · rename_i reversed hreversed
    refine absurd ?_ hline
    rw [← List.mem_reverse, hreversed]
    exact List.mem_cons_self
  · exact List.reverse_reverse line

/-- Lines that are written with a newline each are read one by one. -/
theorem lines_flatMap {lines : List (List Char)}
    (hlines : ∀ line ∈ lines, '\n' ∉ line ∧ '\r' ∉ line) :
    Text.lines (lines.flatMap (· ++ ['\n'])) = lines := by
  induction lines with
  | nil => rfl
  | cons line lines ih =>
    obtain ⟨hnewline, hreturn⟩ := hlines line List.mem_cons_self
    rw [List.flatMap_cons, List.append_assoc, Text.lines, List.cons_append, List.nil_append,
      linesFrom_newline hnewline, List.append_nil, closeLine_reverse hreturn,
      linesFrom_eq_append]
    exact congrArg (line :: ·)
      (ih fun other hother => hlines other (List.mem_cons_of_mem line hother))

end Text

namespace TextForm

open Text Numeral

/-- A digit is none of the characters that structure a text. -/
theorem digitChar_plain {d : Nat} (hd : d < 16) :
    isBlank d.digitChar = false ∧ d.digitChar ≠ '#' ∧ d.digitChar ≠ '\n' ∧ d.digitChar ≠ '\r' := by
  have h : ∀ d : Fin 16, isBlank (d : Nat).digitChar = false ∧ (d : Nat).digitChar ≠ '#' ∧
      (d : Nat).digitChar ≠ '\n' ∧ (d : Nat).digitChar ≠ '\r' := by decide
  exact h ⟨d, hd⟩

theorem digits_plain {base n : Nat} (h1 : 1 < base) (h16 : base ≤ 16) {c : Char}
    (hc : c ∈ digits base n) : isBlank c = false ∧ c ≠ '#' ∧ c ≠ '\n' ∧ c ≠ '\r' := by
  obtain ⟨d, hd, rfl⟩ := exists_digitChar h1 hc
  exact digitChar_plain (by omega)

/-- A record has no comment and is no more than one line. -/
theorem not_mem_format (record : TraceRecord) :
    '#' ∉ format record ∧ '\n' ∉ format record ∧ '\r' ∉ format record := by
  have hplain : ∀ c ∈ format record, c ≠ '#' ∧ c ≠ '\n' ∧ c ≠ '\r' := by
    intro c hc
    simp only [format, List.cons_append, List.nil_append, List.mem_cons, List.mem_append] at hc
    rcases hc with rfl | rfl | rfl | rfl | hhex | rfl | hdecimal
    · cases record.kind.isWrite <;> decide
    · decide
    · decide
    · decide
    · exact (digits_plain (by omega) (by omega) hhex).2
    · decide
    · exact (digits_plain (by omega) (by omega) hdecimal).2
  exact ⟨fun h => (hplain _ h).1 rfl, fun h => (hplain _ h).2.1 rfl, fun h => (hplain _ h).2.2 rfl⟩

theorem takeWhile_digits {base n : Nat} {p : Char → Bool} {rest : List Char}
    (hp : ∀ c ∈ digits base n, p c = true) (hrest : rest.head?.all (!p ·) = true) :
    (digits base n ++ rest).takeWhile p = digits base n ∧
      (digits base n ++ rest).dropWhile p = rest := by
  rw [List.takeWhile_append_of_pos hp, List.dropWhile_append_of_pos hp]
  cases rest with
  | nil => simp
  | cons c rest =>
    have hc : p c = false := by simpa using hrest
    simp [hc]

/-- The blanks before digits end where the digits begin. -/
theorem afterBlanks?_digits {base n : Nat} (h1 : 1 < base) (h16 : base ≤ 16) (rest : List Char) :
    afterBlanks? (' ' :: (digits base n ++ rest)) = some (digits base n ++ rest) := by
  obtain ⟨c, cs, hcons⟩ := List.exists_cons_of_ne_nil (digits_ne_nil base n)
  have hc : isBlank c = false := by
    refine (digits_plain (n := n) h1 h16 ?_).1
    rw [hcons]
    exact List.mem_cons_self
  have hspace : isBlank ' ' = true := by decide
  rw [hcons, afterBlanks?, if_pos hspace, List.cons_append,
    List.dropWhile_cons_of_neg (by simp [hc])]

/-- An address is read as it was written. -/
theorem address?_digits (address : UInt64) (rest : List Char) :
    address? ('0' :: 'x' :: (digits 16 address.toNat ++ ' ' :: rest)) =
      some (address, ' ' :: rest) := by
  have hhex : ∀ c ∈ digits 16 address.toNat, isHexDigit c = true := by
    intro c hc
    obtain ⟨d, hd, rfl⟩ := exists_digitChar (by omega) hc
    exact isHexDigit_digitChar hd
  obtain ⟨htake, hdrop⟩ := takeWhile_digits hhex
    (show (' ' :: rest).head?.all (!isHexDigit ·) = true by
      show (!isHexDigit ' ') = true
      decide)
  have hlength := length_digits_le (show 1 < 16 by decide) (show 0 < 16 by decide)
    (show address.toNat < 16 ^ 16 from address.toNat_lt)
  rw [address?]
  simp only [dropMark, htake, hdrop, value_digits (show 1 < 16 by decide) (show 16 ≤ 16 by decide)]
  rw [if_pos ⟨digits_ne_nil _ _, hlength⟩, UInt64.ofNat_toNat]

/-- A size is read as it was written. -/
theorem size?_digits (size : UInt16) : size? (' ' :: digits 10 size.toNat) = some size := by
  have hdecimal : ∀ c ∈ digits 10 size.toNat, c.isDigit = true := by
    intro c hc
    obtain ⟨d, hd, rfl⟩ := exists_digitChar (by omega) hc
    exact isDigit_digitChar hd
  obtain ⟨htake, hdrop⟩ := takeWhile_digits hdecimal
    (show ([] : List Char).head?.all (!·.isDigit) = true from rfl)
  have hblanks : afterBlanks? (' ' :: (digits 10 size.toNat ++ [])) =
      some (digits 10 size.toNat ++ []) :=
    afterBlanks?_digits (by omega) (by omega) []
  rw [List.append_nil] at htake hdrop hblanks
  have hsome : (' ' :: digits 10 size.toNat).all isBlank = false := by
    obtain ⟨c, hc⟩ := List.exists_mem_of_ne_nil _ (digits_ne_nil 10 size.toNat)
    refine List.all_eq_false.2 ⟨c, List.mem_cons_of_mem _ hc, ?_⟩
    rw [(digits_plain (by omega) (by omega) hc).1]
    exact Bool.false_ne_true
  have hlt : size.toNat < 2 ^ 16 := size.toNat_lt
  have hlength := length_digits_le (show 1 < 10 by decide) (show 0 < 5 by decide)
    (show size.toNat < 10 ^ 5 by omega)
  rw [size?, hsome, if_neg Bool.false_ne_true, hblanks]
  simp only [Option.bind_eq_bind, Option.bind_some, htake, hdrop,
    value_digits (show 1 < 10 by decide) (show 10 ≤ 16 by decide)]
  rw [if_pos ⟨digits_ne_nil _ _, hlength, hlt, rfl⟩, UInt16.ofNat_toNat]

/-- A record is read as it was written. -/
theorem record?_format {record : TraceRecord} (hkind : record.kind = .read ∨ record.kind = .write) :
    record? (format record) = some record := by
  obtain ⟨address, size, kind⟩ := record
  dsimp only at hkind
  have hletter : ∃ letter, (if kind.isWrite then 'W' else 'R') = letter ∧
      isBlank letter = false ∧ kindOf? letter = some kind := by
    rcases hkind with rfl | rfl
    · exact ⟨'R', rfl, by decide, by decide⟩
    · exact ⟨'W', rfl, by decide, by decide⟩
  obtain ⟨letter, hformat, hblank, hread⟩ := hletter
  have hzero : afterBlanks? (' ' :: '0' :: 'x' ::
      (digits 16 address.toNat ++ ' ' :: digits 10 size.toNat)) =
        some ('0' :: 'x' :: (digits 16 address.toNat ++ ' ' :: digits 10 size.toNat)) := by
    rw [afterBlanks?, if_pos (by decide), List.dropWhile_cons_of_neg (by decide)]
  rw [format, hformat, record?]
  simp only [List.cons_append, List.nil_append]
  rw [List.dropWhile_cons_of_neg (by simp [hblank])]
  simp only [Option.bind_eq_bind, hread, Option.bind_some, hzero, address?_digits, size?_digits]
  rfl

theorem parseLine_format {record : TraceRecord}
    (hkind : record.kind = .read ∨ record.kind = .write) (number : Nat) :
    parseLine number (format record) = .ok (some record) := by
  have hcontent : content (format record) = format record := by
    rw [content, List.takeWhile_eq_self_iff]
    intro c hc
    have hne : c ≠ '#' := fun h => (not_mem_format record).1 (h ▸ hc)
    simpa using hne
  have hletter : (format record).all isBlank = false := by
    refine List.all_eq_false.2 ⟨if record.kind.isWrite then 'W' else 'R', List.mem_cons_self, ?_⟩
    cases record.kind.isWrite <;> decide
  rw [parseLine, hcontent, hletter, if_neg Bool.false_ne_true, record?_format hkind]

end TextForm

/-! ## Traces -/

/-- The records of a trace in the fixed form are read back. -/
theorem Trace.records_fixed {accesses : List (UInt64 × TraceRecord)}
    (haccesses : ∀ access ∈ accesses, access.2.size.toNat ≤ 999 ∧
      (access.2.kind = .read ∨ access.2.kind = .write)) :
    (Trace.fixed
        (accesses.flatMap fun (counter, record) => FixedForm.write counter record)).records =
      .ok (accesses.map Prod.snd) := by
  have hlength : ∀ access ∈ accesses,
      (FixedForm.write access.1 access.2).length = FixedForm.recordSize :=
    fun access haccess => FixedForm.length_write (haccesses access haccess).1 access.1
  have hparse := FixedForm.parse_flatMap hlength
  refine hparse.trans (congrArg Except.ok (List.map_congr_left fun access haccess => ?_))
  obtain ⟨hsize, hkind⟩ := haccesses access haccess
  exact FixedForm.parseRecord_write hsize hkind access.1

/-- The records of a trace in the text form are read back. -/
theorem Trace.records_text {records : List TraceRecord}
    (hkinds : ∀ record ∈ records, record.kind = .read ∨ record.kind = .write) :
    (Trace.text (records.flatMap fun record => TextForm.format record ++ ['\n'])).records =
      .ok records := by
  have hplain : ∀ line ∈ records.map TextForm.format, '\n' ∉ line ∧ '\r' ∉ line := by
    intro line hline
    obtain ⟨record, -, rfl⟩ := List.mem_map.1 hline
    exact (TextForm.not_mem_format record).2
  have hlines := Text.lines_flatMap hplain
  rw [List.flatMap_map] at hlines
  have hread : ∀ first, ((records.map TextForm.format).zipIdx first).mapM
      (fun x => TextForm.parseLine x.2 x.1) =
        (.ok (records.map some) : Except TraceError (List (Option TraceRecord))) := by
    clear hlines hplain
    induction records with
    | nil => intro first; rfl
    | cons record records ih =>
      intro first
      have hrest := ih (fun other hother => hkinds other (List.mem_cons_of_mem record hother))
      simp only [List.map_cons, List.zipIdx_cons, List.mapM_cons,
        TextForm.parseLine_format (hkinds record List.mem_cons_self), hrest]
      rfl
  rw [Trace.records, hlines, hread 1]
  show Except.ok ((records.map some).filterMap id) = _
  rw [List.filterMap_map]
  simp

/-!
## Traces in pieces

A trace may be cut where one of its records ends: after any newline in the text form
(`Text.lines_append`), and after any 40 bytes in the fixed form
(`FixedForm.recordsFrom_nil_append`).  The pieces are then read one by one, with the
same records as the whole.

Only the numbers of the lines change.  The lines of a second piece are counted from one
again, so an error in it names a line that stands further down in the whole
(`TraceError.later`), by as many lines as the first piece has newlines
(`Text.length_lines`).
-/

/-- The same error in a text that has `count` more lines before it. -/
def TraceError.later (count : Nat) : TraceError → TraceError
  | .malformed line text => .malformed (line + count) text
  | .partialRecord length => .partialRecord length

/-! ### The text form -/

namespace Text

theorem linesFrom_cons_of_ne {c : Char} (hc : c ≠ '\n') (done : List (List Char))
    (current rest : List Char) :
    linesFrom done current (c :: rest) = linesFrom done (c :: current) rest := by
  rw [linesFrom]
  exact hc

/-- After a newline nothing is left of the line before, so what follows is read as if it
stood alone.  The induction is on the text up to that newline, its last character. -/
theorem linesFrom_append {text : List Char} (hclosed : text.getLast? = some '\n')
    (done : List (List Char)) (current rest : List Char) :
    linesFrom done current (text ++ rest) = linesFrom done current text ++ lines rest := by
  induction text generalizing done current with
  | nil => cases hclosed
  | cons c text ih =>
    cases text with
    | nil =>
      obtain rfl : c = '\n' := by simpa using hclosed
      rw [List.cons_append, List.nil_append, linesFrom, linesFrom, linesFrom,
        linesFrom_eq_append]
      rfl
    | cons d text =>
      rw [List.getLast?_cons_cons] at hclosed
      rw [List.cons_append]
      by_cases hc : c = '\n'
      · subst hc
        rw [linesFrom, linesFrom, ih hclosed]
      · rw [linesFrom_cons_of_ne hc, linesFrom_cons_of_ne hc, ih hclosed]

theorem length_linesFrom {text : List Char} (hclosed : text.getLast? = some '\n')
    (done : List (List Char)) (current : List Char) :
    (linesFrom done current text).length = done.length + text.count '\n' := by
  induction text generalizing done current with
  | nil => cases hclosed
  | cons c text ih =>
    cases text with
    | nil =>
      obtain rfl : c = '\n' := by simpa using hclosed
      rw [linesFrom, linesFrom, List.length_reverse, List.length_cons]
      rfl
    | cons d text =>
      rw [List.getLast?_cons_cons] at hclosed
      by_cases hc : c = '\n'
      · subst hc
        rw [linesFrom, ih hclosed, List.count_cons_self, List.length_cons]
        omega
      · rw [linesFrom_cons_of_ne hc, ih hclosed, List.count_cons_of_ne hc]

/-- A text may be cut after a newline. -/
theorem lines_append {text : List Char} (hclosed : text = [] ∨ text.getLast? = some '\n')
    (rest : List Char) : lines (text ++ rest) = lines text ++ lines rest := by
  rcases hclosed with rfl | hclosed
  · rfl
  · exact linesFrom_append hclosed [] [] rest

/-- A text that ends where a line ends has one line for each newline. -/
theorem length_lines {text : List Char} (hclosed : text = [] ∨ text.getLast? = some '\n') :
    (lines text).length = text.count '\n' := by
  rcases hclosed with rfl | hclosed
  · rfl
  · exact (length_linesFrom hclosed [] []).trans (Nat.zero_add _)

end Text

/-- The number of a line is told by an error and has no other effect. -/
theorem TextForm.parseLine_add (number count : Nat) (line : List Char) :
    parseLine (number + count) line =
      (parseLine number line).mapError (TraceError.later count) := by
  unfold parseLine
  split
  · rfl
  · split
    · rfl
    · rfl

/-! ### The fixed form -/

namespace FixedForm

/-- The records that were read before stay before the others. -/
theorem recordsFrom_append_done (before done : List TraceRecord) (bytes : List UInt8) :
    recordsFrom (done ++ before) bytes = before.reverse ++ recordsFrom done bytes := by
  induction done, bytes using recordsFrom.induct with
  | case1 done => rw [recordsFrom, recordsFrom, List.reverse_append]
  | case2 done byte rest ih =>
    rw [recordsFrom, recordsFrom]
    exact ih

/-- Whole records are read before what follows them, one record after the other. -/
theorem recordsFrom_append_of_dvd {bytes : List UInt8} (hwhole : recordSize ∣ bytes.length)
    (done : List TraceRecord) (rest : List UInt8) :
    recordsFrom done (bytes ++ rest) = recordsFrom (recordsFrom done bytes).reverse rest := by
  induction done, bytes using recordsFrom.induct with
  | case1 done => rw [List.nil_append, recordsFrom, List.reverse_reverse]
  | case2 done byte tail ih =>
    have hlength : recordSize ≤ (byte :: tail).length :=
      Nat.le_of_dvd (Nat.succ_pos _) hwhole
    have hpiece : ((byte :: tail).take recordSize).length = recordSize :=
      List.length_take_of_le hlength
    have hdrop : recordSize ∣ ((byte :: tail).drop recordSize).length := by
      rw [List.length_drop]
      exact Nat.dvd_sub hwhole (Nat.dvd_refl _)
    rw [recordsFrom, ← ih hdrop, ← recordsFrom_append hpiece, ← List.append_assoc,
      List.take_append_drop]

/-- A trace may be cut between two records. -/
theorem recordsFrom_nil_append {bytes : List UInt8} (hwhole : recordSize ∣ bytes.length)
    (rest : List UInt8) :
    recordsFrom [] (bytes ++ rest) = recordsFrom [] bytes ++ recordsFrom [] rest := by
  have hdone := recordsFrom_append_done (recordsFrom [] bytes).reverse [] rest
  rw [List.nil_append, List.reverse_reverse] at hdone
  rw [recordsFrom_append_of_dvd hwhole, hdone]

theorem parse_of_dvd {bytes : List UInt8} (hwhole : recordSize ∣ bytes.length) :
    parse bytes = .ok (recordsFrom [] bytes) :=
  if_pos (Nat.mod_eq_zero_of_dvd hwhole)

/-- Bytes that leave a record incomplete are not read at all. -/
theorem parse_of_not_dvd {bytes : List UInt8} (hbytes : ¬ recordSize ∣ bytes.length) :
    parse bytes = .error (.partialRecord bytes.length) :=
  if_neg fun h => hbytes (Nat.dvd_of_mod_eq_zero h)

end FixedForm

end AssocCache
