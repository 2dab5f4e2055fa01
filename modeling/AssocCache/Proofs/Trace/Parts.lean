import AssocCache.Proofs.Numeral
import AssocCache.Proofs.Text
import AssocCache.Trace

/-!
# The parts of a record

A text with the form of a record has a letter, an address, which may be marked, and perhaps
a size, with blanks between them (`TextForm.Parts`).  The parts are the words of the text,
but for the mark (`Parts.words_eq`, `parts_of_words_eq`), and so a text has them in one
place only (`Parts.unique`).  The scanner, which reads a text from the front and never goes
back, finds them (`record?_eq_some_iff`).
-/

namespace AssocCache

/-- A digit is no blank. -/
theorem Numeral.isBlank_of_isHexDigit {c : Char} (h : isHexDigit c = true) :
    Text.isBlank c = false := by
  obtain ⟨hleast, hmost⟩ := bounds_of_isHexDigit h
  simp only [Text.isBlank, Text.blankRanges, List.any_cons, List.any_nil, Bool.or_false,
    Bool.or_eq_false_iff, Bool.and_eq_false_iff, decide_eq_false_iff_not]
  omega

namespace TextForm

open Text Numeral

variable {body text rest tail digits word : List Char} {letter : Char}
  {size : Option (List Char)} {record : TraceRecord} {number : Nat}

/-! ## The parts of a record -/

/-- What may mark a hexadecimal number. -/
def marks : List (List Char) := [[], ['0', 'x'], ['0', 'X']]

/-- The digits of an address. -/
structure AddressDigits (digits : List Char) : Prop where
  ne_nil : digits ≠ []
  length_le : digits.length ≤ 16
  digits : ∀ c ∈ digits, isHexDigit c = true

/-- The digits of a size. -/
structure SizeDigits (digits : List Char) : Prop where
  ne_nil : digits ≠ []
  length_le : digits.length ≤ 5
  digits : ∀ c ∈ digits, c.isDigit = true

/-- What follows an address: blanks, which may have the digits of a size among them. -/
inductive Tail : List Char → Option (List Char) → Prop
  | unsized {blanks : List Char} (hblanks : ∀ c ∈ blanks, isBlank c = true) : Tail blanks none
  | sized {blanks digits after : List Char} (hne : blanks ≠ [])
      (hblanks : ∀ c ∈ blanks, isBlank c = true) (hdigits : SizeDigits digits)
      (hafter : ∀ c ∈ after, isBlank c = true) : Tail (blanks ++ (digits ++ after)) (some digits)

/-- The parts of a text that has the form of a record. -/
inductive Parts : List Char → Char → List Char → Option (List Char) → Prop
  | mk {before between mark digits tail : List Char} {letter : Char} {size : Option (List Char)}
      (hbefore : ∀ c ∈ before, isBlank c = true) (hletter : (kindOf? letter).isSome = true)
      (hne : between ≠ []) (hbetween : ∀ c ∈ between, isBlank c = true) (hmark : mark ∈ marks)
      (hdigits : AddressDigits digits) (htail : Tail tail size) :
      Parts (before ++ letter :: (between ++ (mark ++ (digits ++ tail)))) letter digits size

/-- The record that the parts of a text stand for. -/
structure Reads (letter : Char) (digits : List Char) (size : Option (List Char))
    (record : TraceRecord) : Prop where
  kind : kindOf? letter = some record.kind
  address : record.address = UInt64.ofNat (value 16 digits)
  unsized : size = none → record.size = 1
  sized : ∀ digits ∈ size, value 10 digits < 2 ^ 16 ∧ record.size = UInt16.ofNat (value 10 digits)

theorem kindOf?_eq_some_iff {kind : AccessKind} :
    kindOf? letter = some kind ↔ (letter = 'R' ∨ letter = 'r') ∧ kind = .read ∨
      (letter = 'W' ∨ letter = 'w') ∧ kind = .write := by
  unfold kindOf?
  split
  · rename_i h
    rcases h with rfl | rfl <;> simp [eq_comm]
  · split
    · rename_i h
      rcases h with rfl | rfl <;> simp [eq_comm]
    · simp_all

/-- A letter is no blank. -/
theorem isBlank_of_kindOf? (h : (kindOf? letter).isSome = true) : isBlank letter = false := by
  obtain ⟨kind, hkind⟩ := Option.isSome_iff_exists.1 h
  rcases kindOf?_eq_some_iff.1 hkind with ⟨rfl | rfl, -⟩ | ⟨rfl | rfl, -⟩ <;> decide

theorem AddressDigits.isWord (h : AddressDigits digits) {mark : List Char} (hmark : mark ∈ marks) :
    IsWord (mark ++ digits) := by
  refine ⟨List.append_ne_nil_of_right_ne_nil _ h.ne_nil, fun c hc => ?_⟩
  rcases List.mem_append.1 hc with hc | hc
  · have hall : ∀ mark ∈ marks, (mark.all fun c => !isBlank c) = true := by decide
    simpa using List.all_eq_true.1 (hall mark hmark) c hc
  · exact isBlank_of_isHexDigit (h.digits c hc)

theorem SizeDigits.isWord (h : SizeDigits digits) : IsWord digits :=
  ⟨h.ne_nil, fun c hc => isBlank_of_isHexDigit (isHexDigit_of_isDigit (h.digits c hc))⟩

/-! ## Parts and words -/

theorem Tail.endsWord (h : Tail tail size) : EndsWord tail := by
  cases h with
  | unsized hblanks => exact endsWord_of_blanks hblanks
  | sized hne hblanks _ _ => exact endsWord_append hne hblanks _

/-- The size is the only word after the address. -/
theorem Tail.words_eq (h : Tail tail size) : words tail = size.toList := by
  cases h with
  | unsized hblanks => exact words_eq_nil_iff.2 hblanks
  | sized hne hblanks hdigits hafter =>
    rw [words_blanks_append hblanks, words_word_append hdigits.isWord (endsWord_of_blanks hafter),
      words_eq_nil_iff.2 hafter]
    rfl

theorem tail_of_words_eq (htail : EndsWord tail) (hwords : words tail = size.toList)
    (hsize : ∀ digits ∈ size, SizeDigits digits) : Tail tail size := by
  cases size with
  | none => exact .unsized (words_eq_nil_iff.1 hwords)
  | some digits =>
    obtain ⟨blanks, after, rfl, hblanks, hword, -, hafter⟩ := exists_of_words_eq_cons hwords
    refine .sized ?_ hblanks (hsize digits rfl) (words_eq_nil_iff.1 hafter)
    -- Without a blank the size would go on where the address ends.
    rintro rfl
    obtain ⟨c, digits, rfl⟩ := List.exists_cons_of_ne_nil hword.1
    have hblank : isBlank c = true := htail c rfl
    rw [hword.2 c List.mem_cons_self] at hblank
    cases hblank

/-- The words of a text with the form of a record. -/
theorem Parts.words_eq (h : Parts body letter digits size) :
    (kindOf? letter).isSome = true ∧ AddressDigits digits ∧ (∀ digits ∈ size, SizeDigits digits) ∧
      ∃ mark ∈ marks, words body = [letter] :: (mark ++ digits) :: size.toList := by
  obtain ⟨hbefore, hletter, hne, hbetween, hmark, hdigits, htail⟩ := h
  rename_i mark tail
  have hsize : ∀ digits ∈ size, SizeDigits digits := by
    cases htail with
    | unsized _ => simp
    | sized _ _ hdigits _ => simpa using hdigits
  refine ⟨hletter, hdigits, hsize, mark, hmark, ?_⟩
  have hword : IsWord [letter] := ⟨by simp, by simpa using isBlank_of_kindOf? hletter⟩
  rw [words_blanks_append hbefore, ← List.singleton_append,
    words_word_append hword (endsWord_append hne hbetween _), words_blanks_append hbetween,
    ← List.append_assoc, words_word_append (hdigits.isWord hmark) htail.endsWord, htail.words_eq]

theorem parts_of_words_eq (hletter : (kindOf? letter).isSome = true)
    (hdigits : AddressDigits digits) (hsize : ∀ digits ∈ size, SizeDigits digits)
    {mark : List Char} (hmark : mark ∈ marks)
    (hwords : words body = [letter] :: (mark ++ digits) :: size.toList) :
    Parts body letter digits size := by
  obtain ⟨before, rest, rfl, hbefore, -, hrest, hwords⟩ := exists_of_words_eq_cons hwords
  obtain ⟨between, tail, rfl, hbetween, hword, htail, hwords⟩ := exists_of_words_eq_cons hwords
  rw [List.append_assoc]
  refine .mk hbefore hletter ?_ hbetween hmark hdigits (tail_of_words_eq htail hwords hsize)
  -- Without a blank the letter and the address would be one word.
  rintro rfl
  obtain ⟨c, digits, hcons⟩ := List.exists_cons_of_ne_nil hword.1
  rw [List.nil_append, hcons] at hrest
  have hblank : isBlank c = true := hrest c rfl
  rw [hword.2 c (by rw [hcons]; exact List.mem_cons_self)] at hblank
  cases hblank

/-! ## Parts and the scanner -/

theorem afterBlanks?_eq_some_iff :
    afterBlanks? text = some rest ↔ ∃ blanks, blanks ≠ [] ∧ (∀ c ∈ blanks, isBlank c = true) ∧
      text = blanks ++ rest ∧ ∀ c ∈ rest.head?, isBlank c = false := by
  cases text with
  | nil => simp [afterBlanks?]
  | cons c text =>
    rw [afterBlanks?]
    constructor
    · intro h
      split at h
      · rename_i hc
        cases h
        refine ⟨c :: text.takeWhile isBlank, by simp, fun d hd => ?_, by simp, fun d hd => ?_⟩
        · rcases List.mem_cons.1 hd with rfl | hd
          · exact hc
          · exact List.mem_takeWhile_imp hd
        · have hhead := List.head?_dropWhile_not isBlank text
          rw [Option.mem_def.1 hd] at hhead
          simpa using hhead
      · cases h
    · rintro ⟨blanks, hne, hblanks, htext, hrest⟩
      obtain ⟨d, blanks, rfl⟩ := List.exists_cons_of_ne_nil hne
      rw [List.cons_append, List.cons.injEq] at htext
      obtain ⟨rfl, rfl⟩ := htext
      rw [if_pos (hblanks c List.mem_cons_self),
        List.dropWhile_append_of_pos fun d hd => hblanks d (List.mem_cons_of_mem c hd)]
      cases rest with
      | nil => rfl
      | cons d rest => rw [List.dropWhile_cons_of_neg (by simpa using hrest d rfl)]

theorem exists_mark (text : List Char) : ∃ mark ∈ marks, text = mark ++ dropMark text := by
  unfold dropMark
  split
  · exact ⟨['0', 'x'], by decide, rfl⟩
  · exact ⟨['0', 'X'], by decide, rfl⟩
  · exact ⟨[], by decide, rfl⟩

theorem dropMark_eq_self (h : ∀ c ∈ text[1]?, c ≠ 'x' ∧ c ≠ 'X') : dropMark text = text := by
  unfold dropMark
  split
  · exact absurd rfl (h 'x' rfl).1
  · exact absurd rfl (h 'X' rfl).2
  · rfl

/-- An address has no mark but the one before its digits. -/
theorem dropMark_append {mark : List Char} (hmark : mark ∈ marks) (hdigits : AddressDigits digits)
    (hrest : EndsWord rest) : dropMark (mark ++ (digits ++ rest)) = digits ++ rest := by
  have hhex : ∀ c, isHexDigit c = true → c ≠ 'x' ∧ c ≠ 'X' := by
    rintro c hc
    constructor <;> rintro rfl <;> exact absurd hc (by decide)
  have hblank : ∀ c, isBlank c = true → c ≠ 'x' ∧ c ≠ 'X' := by
    rintro c hc
    constructor <;> rintro rfl <;> exact absurd hc (by decide)
  have hself : dropMark (digits ++ rest) = digits ++ rest := by
    refine dropMark_eq_self fun c hc => ?_
    obtain ⟨first, digits, rfl⟩ := List.exists_cons_of_ne_nil hdigits.ne_nil
    cases digits with
    | cons second digits =>
      obtain rfl : second = c := by simpa using hc
      exact hhex second (hdigits.digits second (by simp))
    | nil => exact hblank c (hrest c (by simpa [List.head?_eq_getElem?] using hc))
  rcases List.mem_cons.1 hmark with rfl | hmark
  · exact hself
  · rcases List.mem_cons.1 hmark with rfl | hmark
    · rfl
    · obtain rfl := List.mem_singleton.1 hmark
      rfl

/-- What follows a word that ends is not part of its digits. -/
theorem takeWhile_append_of_endsWord {p : Char → Bool} (hp : ∀ c, p c = true → isBlank c = false)
    (hword : ∀ c ∈ word, p c = true) (hrest : EndsWord rest) :
    (word ++ rest).takeWhile p = word ∧ (word ++ rest).dropWhile p = rest := by
  rw [List.takeWhile_append_of_pos hword, List.dropWhile_append_of_pos hword]
  cases rest with
  | nil => simp
  | cons c rest =>
    have hc : p c = false := by
      by_contra hpc
      have hblank : isBlank c = true := hrest c rfl
      rw [hp c (Bool.eq_true_of_not_eq_false hpc)] at hblank
      cases hblank
    simp [hc]

theorem address?_append {mark : List Char} (hmark : mark ∈ marks) (hdigits : AddressDigits digits)
    (hrest : EndsWord rest) :
    address? (mark ++ (digits ++ rest)) = some (UInt64.ofNat (value 16 digits), rest) := by
  obtain ⟨htake, hdrop⟩ :=
    takeWhile_append_of_endsWord (fun _ => isBlank_of_isHexDigit) hdigits.digits hrest
  rw [address?]
  simp only [dropMark_append hmark hdigits hrest, htake, hdrop]
  rw [if_pos ⟨hdigits.ne_nil, hdigits.length_le⟩]

theorem exists_of_address?_eq_some {address : UInt64} (h : address? text = some (address, rest)) :
    ∃ mark ∈ marks, ∃ digits, text = mark ++ (digits ++ rest) ∧ AddressDigits digits ∧
      address = UInt64.ofNat (value 16 digits) := by
  obtain ⟨mark, hmark, htext⟩ := exists_mark text
  unfold address? at h
  dsimp only at h
  split at h
  · rename_i hdigits
    cases h
    refine ⟨mark, hmark, _, ?_, ⟨hdigits.1, hdigits.2, fun c hc => List.mem_takeWhile_imp hc⟩, rfl⟩
    rw [List.takeWhile_append_dropWhile]
    exact htext
  · cases h

/-- A word is found behind the blanks before it. -/
theorem afterBlanks?_append {blanks : List Char} (hne : blanks ≠ [])
    (hblanks : ∀ c ∈ blanks, isBlank c = true) (hword : IsWord word) (rest : List Char) :
    afterBlanks? (blanks ++ (word ++ rest)) = some (word ++ rest) := by
  refine afterBlanks?_eq_some_iff.2 ⟨blanks, hne, hblanks, rfl, fun c hc => ?_⟩
  obtain ⟨d, word, rfl⟩ := List.exists_cons_of_ne_nil hword.1
  obtain rfl : d = c := by simpa using hc
  exact hword.2 d List.mem_cons_self

/-- The size that the tail of a record stands for. -/
theorem size?_eq_some_iff {n : UInt16} :
    size? tail = some n ↔ ∃ size, Tail tail size ∧ (size = none → n = 1) ∧
      ∀ digits ∈ size, value 10 digits < 2 ^ 16 ∧ n = UInt16.ofNat (value 10 digits) := by
  constructor
  · intro h
    unfold size? at h
    split at h
    · rename_i hblanks
      cases h
      exact ⟨none, .unsized (List.all_eq_true.1 hblanks), fun _ => rfl, by simp⟩
    · obtain ⟨text, htext, hread⟩ := Option.bind_eq_some_iff.1 h
      obtain ⟨blanks, hne, hblanks, rfl, -⟩ := afterBlanks?_eq_some_iff.1 htext
      dsimp only at hread
      split at hread
      · rename_i hsize
        obtain ⟨hdigits, hlength, hlt, hafter⟩ := hsize
        cases hread
        refine ⟨some (text.takeWhile Char.isDigit), ?_, by simp, by simpa using hlt⟩
        have htail := Tail.sized hne hblanks
          ⟨hdigits, hlength, fun c hc => List.mem_takeWhile_imp hc⟩ (List.all_eq_true.1 hafter)
        rwa [List.takeWhile_append_dropWhile] at htail
      · cases hread
  · rintro ⟨size, htail, hunsized, hsized⟩
    cases htail with
    | unsized hblanks => rw [size?, if_pos (List.all_eq_true.2 hblanks), hunsized rfl]
    | sized hne hblanks hdigits hafter =>
      rename_i blanks digits after
      obtain ⟨hlt, rfl⟩ := hsized digits rfl
      have hword := hdigits.isWord
      have hsome : (blanks ++ (digits ++ after)).all isBlank = false := by
        obtain ⟨c, hc⟩ := List.exists_mem_of_ne_nil _ hword.1
        refine List.all_eq_false.2 ⟨c, by simp [hc], ?_⟩
        rw [hword.2 c hc]
        exact Bool.false_ne_true
      obtain ⟨htake, hdrop⟩ := takeWhile_append_of_endsWord
        (fun c hc => isBlank_of_isHexDigit (isHexDigit_of_isDigit hc)) hdigits.digits
        (endsWord_of_blanks hafter)
      rw [size?, hsome, if_neg Bool.false_ne_true, afterBlanks?_append hne hblanks hword]
      simp only [Option.bind_eq_bind, Option.bind_some, htake, hdrop]
      rw [if_pos ⟨hdigits.ne_nil, hdigits.length_le, hlt, List.all_eq_true.2 hafter⟩]

/-- A text has its parts in one place only. -/
theorem Parts.unique {letter' : Char} {digits' : List Char} {size' : Option (List Char)}
    (h : Parts body letter digits size) (h' : Parts body letter' digits' size') :
    letter = letter' ∧ digits = digits' ∧ size = size' := by
  obtain ⟨-, hdigits, -, mark, hmark, hwords⟩ := h.words_eq
  obtain ⟨-, hdigits', -, mark', hmark', hwords'⟩ := h'.words_eq
  simp only [hwords, List.cons.injEq, and_true] at hwords'
  obtain ⟨hletter, haddress, hsize⟩ := hwords'
  have hsize : size = size' := by cases size <;> cases size' <;> simp_all
  refine ⟨hletter, ?_, hsize⟩
  have hdrop := dropMark_append hmark hdigits endsWord_nil
  have hdrop' := dropMark_append hmark' hdigits' endsWord_nil
  simp only [List.append_nil] at hdrop hdrop'
  rw [← hdrop, ← hdrop', haddress]

/-- A record is read off a text that has the form of one. -/
theorem record?_eq_some_iff :
    record? body = some record ↔
      ∃ letter digits size, Parts body letter digits size ∧ Reads letter digits size record := by
  constructor
  · intro h
    unfold record? at h
    split at h
    · cases h
    · rename_i letter rest hcontent
      simp only [bind, pure, Option.bind_eq_some_iff, Option.some.injEq] at h
      obtain ⟨kind, hkind, text, htext, ⟨address, tail⟩, haddress, n, hsize, rfl⟩ := h
      obtain ⟨between, hne, hbetween, rfl, -⟩ := afterBlanks?_eq_some_iff.1 htext
      obtain ⟨mark, hmark, digits, rfl, hdigits, rfl⟩ := exists_of_address?_eq_some haddress
      obtain ⟨size, htail, hunsized, hsized⟩ := size?_eq_some_iff.1 hsize
      refine ⟨letter, digits, size, ?_, hkind, rfl, hunsized, hsized⟩
      rw [← List.takeWhile_append_dropWhile (p := isBlank) (l := body), hcontent]
      exact .mk (fun c hc => List.mem_takeWhile_imp hc) (by rw [hkind]; rfl) hne hbetween hmark
        hdigits htail
  · rintro ⟨letter, digits, size, ⟨hbefore, hletter, hne, hbetween, hmark, hdigits, htail⟩, hreads⟩
    rename_i before between mark tail
    have hword := hdigits.isWord hmark
    have hsize : size? tail = some record.size :=
      size?_eq_some_iff.2 ⟨size, htail, hreads.unsized, hreads.sized⟩
    have hafter := afterBlanks?_append hne hbetween hword tail
    rw [List.append_assoc] at hafter
    rw [record?, List.dropWhile_append_of_pos hbefore,
      List.dropWhile_cons_of_neg (by simp [isBlank_of_kindOf? hletter])]
    simp only [Option.bind_eq_bind, hreads.kind, hafter, Option.bind_some,
      address?_append hmark hdigits htail.endsWord, hsize, ← hreads.address]
    rfl

end TextForm

end AssocCache
