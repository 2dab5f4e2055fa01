import AssocCache.Proofs.Numeral
import AssocCache.Proofs.Trace.Written

/-!
# Reading records two digits at a time

A reader of fixed-width records that is fast takes the digits of an address in pairs, from
a table of all pairs of bytes, and shifts them into a word of 64 bits; sizes it adds up in
words of 16 bits.  As a check it parses the address once more, as a numeral, and compares.
Here is this reader with everything that could end it (`FixedForm.readRecord`): a shift or
a sum that leaves its word, an index past the end, an address on which the two ways to
read it disagree.

None of this comes about, whatever the bytes are.  The table has an entry for every pair
(`pairAt_eq`), eight pairs fit a word (`readPairs_eq`), and a text that parses has no
characters but digits and a sign, so that its bytes are these very characters
(`Utf8.eq_map_of_decode`) and a sign counts as zero among them.
-/

namespace AssocCache

/-! ## Plain characters in UTF-8 -/

namespace Text.Utf8

open Success

/-- A character of a single byte. -/
def Plain (c : Char) : Prop := 0 < c.toNat ∧ c.toNat < 128

/-- A character that has begun, and that needs more bytes than one. -/
def Partial.Wide (c : Partial) : Prop :=
  128 ≤ c.low ∧ (2 ≤ c.bits ∨ 2 ≤ c.needs ∧ (1 ≤ c.bits ∨ 130 ≤ c.low))

variable {r r' : Reader} {c : Partial} {byte : UInt8} {bytes : List UInt8} {text : List Char}

theorem not_plain_ofNat {n : Nat} (h : 128 ≤ n) : ¬ Plain (Char.ofNat n) := by
  rintro ⟨hpos, hlt⟩
  by_cases hvalid : n.isValidChar
  · rw [Char.ofNat, dif_pos hvalid] at hlt
    exact absurd hlt (Nat.not_lt.2 h)
  · -- A number that no character has stands for the character zero.
    rw [Char.ofNat, dif_neg hvalid] at hpos
    exact absurd hpos (by decide)

theorem wide_of_begin? (h : begin? byte.toNat = some c) : c.Wide := by
  unfold begin? at h
  grind [Partial.Wide]

/-- A character that has begun either goes on, or ends and is not plain. -/
theorem read_wide (hc : r.current = some c) (hwide : c.Wide) (h : r.read byte = .ok r') :
    (∃ c', r'.current = some c' ∧ c'.Wide) ∨
      ∃ char, ¬ Plain char ∧ r'.current = none ∧ r'.done = char :: r.done := by
  unfold Reader.read at h
  rw [hc] at h
  obtain ⟨hlow, hbits⟩ := hwide
  dsimp only at h
  split at h
  · rename_i hrange
    have hmore : 2 ≤ c.needs ∨ 2 ≤ c.bits := by omega
    have hbig : 2 ≤ c.bits * 64 + (byte.toNat - 128) := by omega
    split at h
    · rename_i hlast
      cases h
      exact .inr ⟨_, not_plain_ofNat (by omega), rfl, rfl⟩
    · cases h
      exact .inl ⟨_, rfl, Nat.le_refl _, .inl hbig⟩
  · cases h

/-- Between characters a byte is a plain character, or it begins a wide one. -/
theorem read_between (hc : r.current = none) (h : r.read byte = .ok r') :
    (∃ c', r'.current = some c' ∧ c'.Wide) ∨
      r'.current = none ∧ r'.done = Char.ofNat byte.toNat :: r.done := by
  unfold Reader.read at h
  rw [hc] at h
  dsimp only at h
  split at h
  · cases h
    exact .inr ⟨rfl, rfl⟩
  · split at h
    · rename_i begun hbegin
      cases h
      exact .inl ⟨begun, rfl, wide_of_begin? hbegin⟩
    · cases h

/-- What was read as plain characters only has a byte for each of them, by induction on
the bytes. -/
theorem done_of_foldlM (h : bytes.foldlM Reader.read r = .ok r') (hdone : r'.current = none)
    (hwide : ∀ c ∈ r.current, c.Wide) (hplain : ∀ c ∈ r'.done, Plain c) :
    r.current = none ∧
      r'.done = (bytes.map fun byte => Char.ofNat byte.toNat).reverse ++ r.done := by
  induction bytes generalizing r with
  | nil =>
    cases h
    exact ⟨hdone, rfl⟩
  | cons byte bytes ih =>
    rw [List.foldlM_cons] at h
    obtain ⟨r₁, hread, hrest⟩ := bind_eq_ok_iff.1 h
    cases hcurrent : r.current with
    | some c =>
      rcases read_wide hcurrent (hwide c hcurrent) hread with
        ⟨c', hc', hwide'⟩ | ⟨char, hchar, hnone, hdone₁⟩
      · rw [(ih hrest (by simpa [hc'] using hwide')).1] at hc'
        cases hc'
      · obtain ⟨-, hdone'⟩ := ih hrest (by simp [hnone])
        refine absurd (hplain char ?_) hchar
        rw [hdone', hdone₁]
        simp
    | none =>
      rcases read_between hcurrent hread with ⟨c', hc', hwide'⟩ | ⟨hnone, hdone₁⟩
      · rw [(ih hrest (by simpa [hc'] using hwide')).1] at hc'
        cases hc'
      · obtain ⟨-, hdone'⟩ := ih hrest (by simp [hnone])
        rw [hdone', hdone₁]
        simp

/-- Bytes that are plain characters are these characters. -/
theorem eq_map_of_decode (h : decode bytes = .ok text) (hplain : ∀ c ∈ text, Plain c) :
    text = bytes.map fun byte => Char.ofNat byte.toNat := by
  obtain ⟨r, hread, hr⟩ := bind_eq_ok_iff.1 h
  split at hr
  · rename_i hdone
    cases hr
    have hplain' : ∀ c ∈ r.done, Plain c := fun c hc => hplain c (List.mem_reverse.2 hc)
    rw [(done_of_foldlM hread hdone (by simp) hplain').2]
    simp
  · cases hr

end Text.Utf8

namespace FixedForm

open Text Numeral Success

variable {buffer record : List UInt8} {high low : UInt8} {n : Nat}

/-! ## The table of pairs -/

/-- The value of a digit, in eight bits. -/
def digitByte (byte : UInt8) : UInt8 :=
  if 48 ≤ byte ∧ byte ≤ 57 then byte - 48
  else if 65 ≤ byte ∧ byte ≤ 70 then byte - 65 + 10
  else if 97 ≤ byte ∧ byte ≤ 102 then byte - 97 + 10
  else 0

/-- The values of the pairs with a high digit. -/
def pairRow (high : UInt8) : List UInt8 :=
  (List.range 256).map fun low => digitByte high <<< 4 ||| digitByte (UInt8.ofNat low)

/-- The values of all pairs of digits, by the high digit first. -/
def pairTable : List (List UInt8) :=
  (List.range 256).map fun high => pairRow (UInt8.ofNat high)

theorem toNat_digitByte (byte : UInt8) : (digitByte byte).toNat = hexDigit byte := by
  have hall : ∀ n : Fin 256, (digitByte (UInt8.ofNat n)).toNat = hexDigit (UInt8.ofNat n) := by
    decide +kernel
  have hbyte := hall ⟨byte.toNat, byte.toNat_lt⟩
  rwa [UInt8.ofNat_toNat] at hbyte

theorem hexDigit_lt (byte : UInt8) : hexDigit byte < 16 := digitValue_lt _

/-- The entry of the table for a pair of digits. -/
def pairAt (high low : UInt8) : Except Fault UInt8 := do
  entryAt (← entryAt pairTable high.toNat) low.toNat

/-- Any two bytes have an entry. -/
theorem pairAt_eq (high low : UInt8) :
    ∃ pair, pairAt high low = .ok pair ∧ pair.toNat = 16 * hexDigit high + hexDigit low := by
  refine ⟨digitByte high <<< 4 ||| digitByte low, ?_, ?_⟩
  · have hrow : pairTable[high.toNat]? = some (pairRow high) := by
      rw [pairTable, List.getElem?_map, List.getElem?_range high.toNat_lt, Option.map_some,
        UInt8.ofNat_toNat]
    have hentry : (pairRow high)[low.toNat]? = some (digitByte high <<< 4 ||| digitByte low) := by
      rw [pairRow, List.getElem?_map, List.getElem?_range low.toNat_lt, Option.map_some,
        UInt8.ofNat_toNat]
    exact bind_eq_ok_iff.2 ⟨_, entryAt_eq_ok_iff.2 hrow, entryAt_eq_ok_iff.2 hentry⟩
  · have hhigh := hexDigit_lt high
    have hlow : hexDigit low < 2 ^ 4 := hexDigit_lt low
    have hshift : (hexDigit high) <<< 4 = 16 * hexDigit high := by
      rw [Nat.shiftLeft_eq, Nat.mul_comm]
    rw [UInt8.toNat_or, UInt8.toNat_shiftLeft, toNat_digitByte, toNat_digitByte]
    show hexDigit high <<< 4 % 256 ||| hexDigit low = _
    rw [Nat.mod_eq_of_lt (by omega), ← Nat.shiftLeft_add_eq_or_of_lt hlow, hshift]

/-! ## Addresses -/

/-- Why a reading ends without a record. -/
inductive Halt where
  | fault (fault : Fault)
  /-- An address that parses as one number and is read as another. -/
  | disagreement (expected found : UInt64)
  deriving DecidableEq, Repr

instance : MonadLift (Except Fault) (Except Halt) := ⟨Except.mapError .fault⟩

theorem liftM_ok {α : Type} (a : α) :
    (liftM (Except.ok a : Except Fault α) : Except Halt α) = .ok a := rfl

/-- Shifts the pairs of some bytes into a word.  A byte that is left over does not count. -/
def readPairs (word : UInt64) : List UInt8 → Except Fault UInt64
  | high :: low :: rest => do
    let pair ← pairAt high low
    readPairs (word <<< 8 ||| pair.toUInt64) rest
  | _ => pure word

/-- The number that the bytes of an address parse as. -/
def parsedAddress? (buffer : List UInt8) : Option Nat := do
  let text ← (Utf8.decode buffer).toOption
  Numeral.parse? 16 (2 ^ 64) text

/-- Reads an address and parses it as a check. -/
def readAddress (buffer : List UInt8) : Except Halt UInt64 := do
  let word ← (readPairs 0 buffer : Except Fault UInt64)
  match parsedAddress? buffer with
  | some expected =>
    if UInt64.ofNat expected = word then pure word
    else throw (.disagreement (UInt64.ofNat expected) word)
  | none => pure word

/-- A word with room takes in a pair of digits. -/
theorem toNat_shift_or {word : UInt64} {pair : UInt8} (h : (word.toNat + 1) * 256 ≤ 2 ^ 64) :
    (word <<< 8 ||| pair.toUInt64).toNat = 256 * word.toNat + pair.toNat := by
  have hpair : pair.toNat < 2 ^ 8 := pair.toNat_lt
  have hshift : word.toNat <<< 8 = 256 * word.toNat := by rw [Nat.shiftLeft_eq, Nat.mul_comm]
  rw [UInt64.toNat_or, UInt64.toNat_shiftLeft, UInt8.toNat_toUInt64]
  show word.toNat <<< 8 % 2 ^ 64 ||| pair.toNat = _
  rw [Nat.mod_eq_of_lt (by omega), ← Nat.shiftLeft_add_eq_or_of_lt hpair, hshift]

/-- Pairs are read as the digits one by one, as long as there is room for all of them, by
induction on the pairs. -/
theorem readPairs_eq (word : UInt64) (bytes : List UInt8) (heven : bytes.length % 2 = 0)
    (hroom : (word.toNat + 1) * 16 ^ bytes.length ≤ 2 ^ 64) :
    ∃ w, readPairs word bytes = .ok w ∧
      w.toNat = bytes.foldl (fun value byte => 16 * value + hexDigit byte) word.toNat := by
  match bytes with
  | [] => exact ⟨word, rfl, rfl⟩
  | [_] => cases heven
  | high :: low :: rest =>
    obtain ⟨pair, hpair, hvalue⟩ := pairAt_eq high low
    have hhigh := hexDigit_lt high
    have hlow := hexDigit_lt low
    have hroom' : (word.toNat + 1) * 256 * 16 ^ rest.length ≤ 2 ^ 64 := by
      rw [Nat.mul_assoc, show 256 * 16 ^ rest.length = 16 ^ (rest.length + 2) by ring]
      exact hroom
    have hpow : 1 ≤ 16 ^ rest.length := Nat.one_le_pow _ _ (by decide)
    have hword : (word <<< 8 ||| pair.toUInt64).toNat =
        16 * (16 * word.toNat + hexDigit high) + hexDigit low := by
      rw [toNat_shift_or (Nat.le_trans (Nat.le_mul_of_pos_right _ hpow) hroom'), hvalue]
      omega
    have hnext : ((word <<< 8 ||| pair.toUInt64).toNat + 1) * 16 ^ rest.length ≤ 2 ^ 64 := by
      refine Nat.le_trans (Nat.mul_le_mul_right _ ?_) hroom'
      rw [hword]
      omega
    have heven' : rest.length % 2 = 0 := by
      rw [List.length_cons, List.length_cons] at heven
      omega
    obtain ⟨w, hw, hfold⟩ := readPairs_eq _ rest heven' hnext
    refine ⟨w, bind_eq_ok_iff.2 ⟨pair, hpair, hw⟩, ?_⟩
    rw [hfold, hword]
    rfl

theorem parseAddress_eq_ofDigits (bytes : List UInt8) :
    parseAddress bytes = Nat.ofDigits 16 (bytes.map hexDigit).reverse := by
  rw [parseAddress_eq_value, value_eq_ofDigits, List.map_map]
  rfl

theorem plain_of_isHexDigit {c : Char} (h : isHexDigit c = true) : Utf8.Plain c := by
  obtain ⟨hleast, hmost⟩ := bounds_of_isHexDigit h
  exact ⟨by omega, by omega⟩

/-- An address that parses is read as what it parses as. -/
theorem eq_parseAddress_of_parsed (h : parsedAddress? buffer = some n) :
    n = parseAddress buffer := by
  obtain ⟨text, htext, hparse⟩ := Option.bind_eq_some_iff.1 h
  obtain ⟨digits, hsign, -, hdigits, rfl, -⟩ := parse?_eq_some_iff.1 hparse
  have hplain : ∀ c ∈ digits, Utf8.Plain c := fun c hc =>
    plain_of_isHexDigit (allDigits_sixteen_iff.1 hdigits c hc)
  have hdecode : Utf8.decode buffer = .ok text := by
    cases hbuffer : Utf8.decode buffer with
    | ok decoded =>
      rw [hbuffer] at htext
      rw [Option.some.inj htext]
    | error e =>
      rw [hbuffer] at htext
      cases htext
  have hbytes : text = buffer.map fun byte => Char.ofNat byte.toNat := by
    refine Utf8.eq_map_of_decode hdecode fun c hc => ?_
    rcases hsign with rfl | rfl
    · exact hplain c hc
    · rcases List.mem_cons.1 hc with rfl | hc
      · exact ⟨by decide, by decide⟩
      · exact hplain c hc
  rw [parseAddress_eq_value, ← hbytes]
  rcases hsign with rfl | rfl
  · rfl
  · rw [value, value, valueFrom_cons, show 16 * 0 + digitValue '+' = 0 by decide]

/-- An address of sixteen bytes is read, and the check holds. -/
theorem readAddress_eq (hbuffer : buffer.length = 16) :
    readAddress buffer = .ok (UInt64.ofNat (parseAddress buffer)) := by
  obtain ⟨word, hword, hvalue⟩ :=
    readPairs_eq 0 buffer (by rw [hbuffer]) (by rw [hbuffer]; decide)
  have heq : UInt64.ofNat (parseAddress buffer) = word := by
    rw [parseAddress, ← UInt64.toNat_zero, ← hvalue, UInt64.ofNat_toNat]
  rw [readAddress, hword, liftM_ok, heq]
  refine bind_eq_ok_iff.2 ⟨word, rfl, ?_⟩
  split
  · rename_i n hparsed
    rw [eq_parseAddress_of_parsed hparsed, if_pos heq]
    rfl
  · rfl

/-! ## Records -/

/-- The bytes of a record from one place up to another, if it has them. -/
def sliceAt (record : List UInt8) (first past : Nat) : Except Fault (List UInt8) :=
  if past ≤ record.length then .ok (field record first past)
  else .error (.outOfBounds record.length past)

/-- Reads the three digits of a size in a word of 16 bits. -/
def readSize (buffer : List UInt8) : Except Fault Nat := do
  let units ← entryAt buffer 2
  let tens ← entryAt buffer 1
  let size ← Word.add 16 (decimalDigit units) (← Word.mul 16 10 (decimalDigit tens))
  let hundreds ← entryAt buffer 0
  Word.add 16 size (← Word.mul 16 100 (decimalDigit hundreds))

/-- Reads a record, with everything that could end the reading. -/
def readRecord (record : List UInt8) : Except Halt TraceRecord := do
  let address ← (sliceAt record 17 33 : Except Fault (List UInt8))
  let size ← (sliceAt record 36 39 : Except Fault (List UInt8))
  let address ← readAddress address
  let size ← (readSize size : Except Fault Nat)
  let letter ← (entryAt record 34 : Except Fault UInt8)
  pure { address, size := UInt16.ofNat size, kind := if letter = 87 then .write else .read }

/-- Three bytes fit a word of 16 bits, whatever they are. -/
theorem readSize_eq (hbuffer : buffer.length = 3) :
    readSize buffer = .ok (parseSize buffer) := by
  obtain ⟨hundreds, tens, units, rfl⟩ := List.length_eq_three.1 hbuffer
  have hbyte : ∀ byte, decimalDigit byte < 256 := fun byte => (byte - 48).toNat_lt
  have hhundreds := hbyte hundreds
  have htens := hbyte tens
  have hunits := hbyte units
  have hmul : Word.mul 16 10 (decimalDigit tens) = .ok (10 * decimalDigit tens) :=
    Word.mul_eq_ok_iff.2 ⟨by omega, rfl⟩
  have hadd : Word.add 16 (decimalDigit units) (10 * decimalDigit tens) =
      .ok (decimalDigit units + 10 * decimalDigit tens) :=
    Word.add_eq_ok_iff.2 ⟨by omega, rfl⟩
  have hmul' : Word.mul 16 100 (decimalDigit hundreds) = .ok (100 * decimalDigit hundreds) :=
    Word.mul_eq_ok_iff.2 ⟨by omega, rfl⟩
  have hadd' : Word.add 16 (decimalDigit units + 10 * decimalDigit tens)
      (100 * decimalDigit hundreds) = .ok (parseSize [hundreds, tens, units]) :=
    Word.add_eq_ok_iff.2 ⟨by omega, by rw [parseSize]; omega⟩
  simp only [readSize, entryAt, List.getElem?_cons_zero, List.getElem?_cons_succ, bind,
    Except.bind, hmul, hadd, hmul', hadd']

theorem sliceAt_eq (record : List UInt8) (first past : Nat) (hpast : past ≤ record.length) :
    sliceAt record first past = .ok (field record first past) ∧
      (field record first past).length = past - first := by
  refine ⟨if_pos hpast, ?_⟩
  rw [field, List.length_take, List.length_drop]
  omega

/-- A record of forty bytes is read, whatever they are. -/
theorem readRecord_eq (hrecord : record.length = 40) :
    readRecord record = .ok (parseRecord record) := by
  obtain ⟨haddress, hlength⟩ := sliceAt_eq record 17 33 (by omega)
  obtain ⟨hsize, hlength'⟩ := sliceAt_eq record 36 39 (by omega)
  obtain ⟨letter, hletter⟩ : ∃ letter, record[34]? = some letter :=
    ⟨_, List.getElem?_eq_getElem (by omega)⟩
  simp only [readRecord, haddress, hsize, liftM_ok, bind, Except.bind, readAddress_eq hlength,
    readSize_eq hlength', entryAt_eq_ok_iff.2 hletter, parseRecord, hletter, Option.some.injEq]
  rfl

/-! ## Reading what was written -/

/-- All that is written of the kind of an access is whether it writes. -/
theorem format_demand (programCounter address : UInt64) (kind : AccessKind) (size : UInt16) :
    format programCounter address (.demand kind.isWrite) size =
      format programCounter address kind size := by
  rw [format, format, AccessKind.isWrite_demand]

theorem format_ascii (programCounter address : UInt64) (kind : AccessKind) (size : UInt16) :
    ∀ c ∈ format programCounter address kind size, c.toNat < 128 := by
  have hrest : ∀ c ∈ [' ', if kind.isWrite then 'W' else 'R', ' '], c.toNat < 128 := by
    cases kind <;> simp [AccessKind.isWrite]
  intro c hc
  simp only [format, List.mem_append] at hc
  rcases hc with ((((hc | hc) | hc) | hc) | hc) | hc
  · exact hexCapital_ascii _ _ c hc
  · rw [List.mem_singleton.1 hc]
    decide
  · exact hexCapital_ascii _ _ c hc
  · exact hrest c hc
  · exact padded_ascii _ _ c hc
  · rw [List.mem_singleton.1 hc]
    decide

theorem readRecord_format {size : UInt16} (hsize : size.toNat ≤ 999)
    (programCounter address : UInt64) (kind : AccessKind) :
    (Utf8.encode (format programCounter address kind size)).length = 40 ∧
      readRecord (Utf8.encode (format programCounter address kind size)) =
        .ok { address, size, kind := if kind.isWrite then .write else .read } := by
  have hkind : AccessKind.demand kind.isWrite = .read ∨
      AccessKind.demand kind.isWrite = .write := by
    cases kind <;> simp [AccessKind.demand, AccessKind.isWrite]
  let written : TraceRecord := ⟨address, size, .demand kind.isWrite⟩
  have hlength : (write programCounter written).length = 40 := length_write hsize programCounter
  have hparse : parseRecord (write programCounter written) = written :=
    parseRecord_write hsize hkind programCounter
  rw [write, format_demand] at hlength hparse
  exact ⟨hlength, by rw [readRecord_eq hlength, hparse]; rfl⟩

/-- A record that is written has forty bytes, all of them plain, and is read as it was
written, but for the kind of write.  And reading forty bytes never ends without a record,
whatever they are: an address is read as the number whose digits its bytes are, where a byte
that is no digit counts as zero, and this is what the address parses as, if it does. -/
theorem fixed_records_are_read (programCounter address : UInt64) (kind : AccessKind)
    {size : UInt16} (hsize : size.toNat ≤ 999) {record buffer : List UInt8}
    (hrecord : record.length = 40) (hbuffer : buffer.length = 16) :
    ((∀ c ∈ format programCounter address kind size, c.toNat < 128) ∧
      (Utf8.encode (format programCounter address kind size)).length = 40 ∧
      readRecord (Utf8.encode (format programCounter address kind size)) =
        .ok { address, size, kind := if kind.isWrite then .write else .read }) ∧
    readRecord record = .ok (parseRecord record) ∧
    (∃ word, readAddress buffer = .ok word ∧
      word.toNat = Nat.ofDigits 16 (buffer.map hexDigit).reverse ∧
      ∀ n, parsedAddress? buffer = some n → n = word.toNat) := by
  have hlt : parseAddress buffer < 2 ^ 64 := by
    have hdigits : ∀ d ∈ (buffer.map hexDigit).reverse, d < 16 := by
      intro d hd
      obtain ⟨byte, -, rfl⟩ := List.mem_map.1 (List.mem_reverse.1 hd)
      exact hexDigit_lt byte
    have hbound := Nat.ofDigits_lt_base_pow_length (by decide) hdigits
    rw [List.length_reverse, List.length_map, hbuffer] at hbound
    rw [parseAddress_eq_ofDigits]
    exact hbound
  have hword : (UInt64.ofNat (parseAddress buffer)).toNat = parseAddress buffer :=
    UInt64.toNat_ofNat_of_lt' hlt
  refine ⟨⟨format_ascii _ _ _ _, readRecord_format hsize _ _ _⟩, readRecord_eq hrecord,
    _, readAddress_eq hbuffer, ?_, fun n hn => ?_⟩
  · rw [hword, parseAddress_eq_ofDigits]
  · rw [hword, eq_parseAddress_of_parsed hn]

/-- A record as it is written, forty bytes that are no record, and an address with a sign. -/
theorem fixed_records_are_read_signed :
    (8 : UInt16).toNat ≤ 999 ∧ (List.replicate 40 (255 : UInt8)).length = 40 ∧
      (43 :: List.replicate 15 (65 : UInt8)).length = 16 ∧
      readRecord (Utf8.encode "0000000000400500 00007FFC0000A010 W 008\n".toList) =
        .ok ⟨0x7FFC0000A010, 8, .write⟩ ∧
      readRecord (List.replicate 40 255) = .ok ⟨0, 22977, .read⟩ ∧
      parsedAddress? (43 :: List.replicate 15 65) = some 0xAAAAAAAAAAAAAAA ∧
      readAddress (43 :: List.replicate 15 65) = .ok 0xAAAAAAAAAAAAAAA := by
  obtain ⟨⟨-, -, hwritten⟩, hrecord, word, hword, hvalue, -⟩ :=
    fixed_records_are_read 0x400500 0x7FFC0000A010 .write (show (8 : UInt16).toNat ≤ 999 by decide)
      (show (List.replicate 40 (255 : UInt8)).length = 40 by decide)
      (show (43 :: List.replicate 15 (65 : UInt8)).length = 16 by decide)
  refine ⟨by decide, by decide, by decide, ?_, hrecord.trans (by decide), by decide, ?_⟩
  · have htext : format 0x400500 0x7FFC0000A010 .write 8 =
        "0000000000400500 00007FFC0000A010 W 008\n".toList := by decide
    rw [← htext]
    exact hwritten
  · have hten : word.toNat = (0xAAAAAAAAAAAAAAA : UInt64).toNat := hvalue.trans (by decide)
    rw [hword, UInt64.toNat_inj.1 hten]

end FixedForm

end AssocCache
