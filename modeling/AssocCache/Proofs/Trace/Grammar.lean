import AssocCache.Proofs.Text
import AssocCache.Proofs.Trace.Parts

/-!
# The grammar of records

What a line says can be told in three ways.  Its words say a record (`TextForm.Says`): a
letter, an address with or without a mark, and perhaps a size.  The scanner reads the record
from the front.  And an expression is matched against the line, and the record is read off
the groups of the match (`TextForm.parseByExpression`), where a first `0` may be tried as
the start of a mark and turn out to be the address.

All three come down to the parts of the line, which are where they are whatever a reader
tries first: the ways to match the line are its parts (`mem_ways_recordExpression`), and what
its words say they read (`record?_eq_some_iff_wordsSay`).  So they agree on every line
(`TextForm.parseLine_eq_grammar`).
-/

namespace AssocCache.TextForm

open Text Numeral

variable {body text rest tail digits : List Char} {letter : Char} {size : Option (List Char)}
  {record : TraceRecord} {number : Nat}

/-! ## Parts and the expression -/

open Expression

/-- What may follow the address of a record. -/
def tailExpression : Expression :=
  seq (maybe (seq (run isBlank 1 none) (group "size" (run Char.isDigit 1 (some 5)))))
    (seq (run isBlank 0 none) finish)

/-- The form of a record, from the start of a line on. -/
def recordExpression : Expression :=
  seq (run isBlank 0 none) (seq (group "mode" (one (· ∈ ['R', 'r', 'W', 'w'])))
    (seq (run isBlank 1 none) (seq (maybe (seq (one (· = '0')) (one (· ∈ ['x', 'X']))))
      (seq (group "address" (run isHexDigit 1 (some 16))) tailExpression))))

/-- What the groups keep of the parts of a record. -/
def groupsOf (letter : Char) (digits : List Char) (size : Option (List Char)) :
    List (String × List Char) :=
  ("mode", [letter]) :: ("address", digits) :: (size.map fun digits => ("size", digits)).toList

variable {front : List Char} {groups : List (String × List Char)} {m : Match}

theorem mem_ways_group_run {p : Char → Bool} {name : String} {least : Nat} {most : Option Nat} :
    ⟨front, groups, rest⟩ ∈ (group name (run p least most)).ways text ↔ text = front ++ rest ∧
      (∀ c ∈ front, p c = true) ∧ least ≤ front.length ∧ (∀ limit ∈ most, front.length ≤ limit) ∧
      groups = [(name, front)] := by
  rw [mem_ways_group]
  simp only [mem_ways_run]
  constructor
  · rintro ⟨inner, rfl, htext, hfront, hleast, hmost, rfl⟩
    exact ⟨htext, hfront, hleast, hmost, rfl⟩
  · rintro ⟨htext, hfront, hleast, hmost, rfl⟩
    exact ⟨[], rfl, htext, hfront, hleast, hmost, rfl⟩

theorem mem_ways_mark :
    ⟨front, groups, rest⟩ ∈ (maybe (seq (one (· = '0')) (one (· ∈ ['x', 'X'])))).ways text ↔
      front ∈ marks ∧ groups = [] ∧ text = front ++ rest := by
  rw [mem_ways_maybe]
  constructor
  · rintro (hseq | hm)
    · obtain ⟨⟨front₁, groups₁, rest₁⟩, h₁, ⟨front₂, groups₂, rest₂⟩, h₂, hm⟩ := mem_ways_seq.1 hseq
      obtain ⟨c, hc, rfl, rfl, rfl⟩ := mem_ways_one.1 h₁
      obtain ⟨d, hd, rfl, rfl, rfl⟩ := mem_ways_one.1 h₂
      cases hm
      obtain rfl : c = '0' := by simpa using hc
      obtain rfl | rfl : d = 'x' ∨ d = 'X' := by simpa using hd
      · exact ⟨by simp [marks], rfl, rfl⟩
      · exact ⟨by simp [marks], rfl, rfl⟩
    · cases hm
      exact ⟨by simp [marks], rfl, rfl⟩
  · rintro ⟨hfront, rfl, rfl⟩
    have hmark : ∀ c, c = 'x' ∨ c = 'X' → ⟨['0', c], [], rest⟩ ∈
        (seq (one (· = '0')) (one (· ∈ ['x', 'X']))).ways ('0' :: c :: rest) := fun c hc =>
      ways_seq_of (mem_ways_one.2 ⟨'0', rfl, rfl, rfl, rfl⟩)
        (mem_ways_one.2 ⟨c, by simpa using hc, rfl, rfl, rfl⟩)
    rcases List.mem_cons.1 hfront with rfl | hfront
    · exact .inr rfl
    · rcases List.mem_cons.1 hfront with rfl | hfront
      · exact .inl (hmark 'x' (.inl rfl))
      · obtain rfl := List.mem_singleton.1 hfront
        exact .inl (hmark 'X' (.inr rfl))

/-- The ways to match the tail of a record. -/
theorem mem_ways_tailExpression :
    m ∈ tailExpression.ways tail ↔ ∃ size, Tail tail size ∧
      m = ⟨tail, (size.map fun digits => ("size", digits)).toList, []⟩ := by
  have hend : ∀ {text : List Char} {m : Match}, m ∈ (seq (run isBlank 0 none) finish).ways text ↔
      (∀ c ∈ text, isBlank c = true) ∧ m = ⟨text, [], []⟩ := by
    intro text m
    rw [mem_ways_seq]
    constructor
    · rintro ⟨⟨front, groups, rest⟩, h₁, m₂, h₂, rfl⟩
      obtain ⟨rfl, hblanks, -, -, rfl⟩ := mem_ways_run.1 h₁
      obtain ⟨rfl, rfl⟩ := mem_ways_finish.1 h₂
      simpa using hblanks
    · rintro ⟨hblanks, rfl⟩
      exact ⟨⟨text, [], []⟩, mem_ways_run.2 ⟨by simp, hblanks, by simp, by simp, rfl⟩, ⟨[], [], []⟩,
        mem_ways_finish.2 ⟨rfl, rfl⟩, by simp⟩
  rw [tailExpression, mem_ways_seq]
  simp only [mem_ways_maybe, hend]
  constructor
  · rintro ⟨m₁, hseq | rfl, m₂, ⟨hafter, rfl⟩, rfl⟩
    · obtain ⟨⟨blanks, groups, rest⟩, hrun, ⟨digits, groups', rest'⟩, hgroup, rfl⟩ :=
        mem_ways_seq.1 hseq
      obtain ⟨rfl, hblanks, hleast, -, rfl⟩ := mem_ways_run.1 hrun
      obtain ⟨rfl, hdigits, hleast', hmost, rfl⟩ := mem_ways_group_run.1 hgroup
      refine ⟨some digits, .sized ?_ hblanks ⟨?_, hmost 5 rfl, hdigits⟩ hafter, by simp⟩
      · exact List.ne_nil_of_length_pos hleast
      · exact List.ne_nil_of_length_pos hleast'
    · exact ⟨none, .unsized hafter, by simp⟩
  · rintro ⟨size, htail, rfl⟩
    cases htail with
    | unsized hblanks => exact ⟨⟨[], [], tail⟩, .inr rfl, ⟨tail, [], []⟩, ⟨hblanks, rfl⟩, by simp⟩
    | sized hne hblanks hdigits hafter =>
      rename_i blanks digits after
      have hrun : ⟨blanks, [], digits ++ after⟩ ∈
          (run isBlank 1 none).ways (blanks ++ (digits ++ after)) :=
        mem_ways_run.2 ⟨rfl, hblanks, List.length_pos_iff.2 hne, by simp, rfl⟩
      have hgroup : ⟨digits, [("size", digits)], after⟩ ∈
          (group "size" (run Char.isDigit 1 (some 5))).ways (digits ++ after) :=
        mem_ways_group_run.2 ⟨rfl, hdigits.digits, List.length_pos_iff.2 hdigits.ne_nil,
          by simpa using hdigits.length_le, rfl⟩
      exact ⟨_, .inl (ways_seq_of hrun hgroup), _, ⟨hafter, rfl⟩, by simp⟩

theorem mem_ways_mode :
    ⟨front, groups, rest⟩ ∈ (group "mode" (one (· ∈ ['R', 'r', 'W', 'w']))).ways text ↔
      ∃ letter, (kindOf? letter).isSome = true ∧ text = letter :: rest ∧ front = [letter] ∧
        groups = [("mode", [letter])] := by
  have hletter : ∀ letter : Char, decide (letter ∈ ['R', 'r', 'W', 'w']) = true ↔
      (kindOf? letter).isSome = true := by
    intro letter
    simp only [Option.isSome_iff_exists, kindOf?_eq_some_iff]
    grind
  rw [mem_ways_group]
  simp only [mem_ways_one, hletter]
  constructor
  · rintro ⟨inner, rfl, letter, hkind, rfl, rfl, rfl⟩
    exact ⟨letter, hkind, rfl, rfl, rfl⟩
  · rintro ⟨letter, hkind, rfl, rfl, rfl⟩
    exact ⟨[], rfl, letter, hkind, rfl, rfl, rfl⟩

/-- The ways to match a text are its parts. -/
theorem mem_ways_recordExpression :
    m ∈ recordExpression.ways body ↔ ∃ letter digits size, Parts body letter digits size ∧
      m = ⟨body, groupsOf letter digits size, []⟩ := by
  constructor
  · intro hm
    obtain ⟨⟨before, groups₁, rest₁⟩, h₁, m₂, hm₂, rfl⟩ := mem_ways_seq.1 hm
    obtain ⟨⟨mode, groups₂, rest₂⟩, h₂, m₃, hm₃, rfl⟩ := mem_ways_seq.1 hm₂
    obtain ⟨⟨between, groups₃, rest₃⟩, h₃, m₄, hm₄, rfl⟩ := mem_ways_seq.1 hm₃
    obtain ⟨⟨mark, groups₄, rest₄⟩, h₄, m₅, hm₅, rfl⟩ := mem_ways_seq.1 hm₄
    obtain ⟨⟨digits, groups₅, tail⟩, h₅, m₆, h₆, rfl⟩ := mem_ways_seq.1 hm₅
    obtain ⟨rfl, hbefore, -, -, rfl⟩ := mem_ways_run.1 h₁
    obtain ⟨letter, hletter, rfl, rfl, rfl⟩ := mem_ways_mode.1 h₂
    obtain ⟨rfl, hbetween, hleast, -, rfl⟩ := mem_ways_run.1 h₃
    obtain ⟨hmark, rfl, rfl⟩ := mem_ways_mark.1 h₄
    obtain ⟨rfl, hdigits, hleast', hmost, rfl⟩ := mem_ways_group_run.1 h₅
    obtain ⟨size, htail, rfl⟩ := mem_ways_tailExpression.1 h₆
    have hparts := Parts.mk hbefore hletter (List.ne_nil_of_length_pos hleast) hbetween hmark
      ⟨List.ne_nil_of_length_pos hleast', hmost 16 rfl, hdigits⟩ htail
    exact ⟨letter, digits, size, hparts, by simp [groupsOf]⟩
  · rintro ⟨letter, digits, size, ⟨hbefore, hletter, hne, hbetween, hmark, hdigits, htail⟩, rfl⟩
    rename_i before between mark tail
    have h₁ : ∀ rest, ⟨before, [], rest⟩ ∈ (run isBlank 0 none).ways (before ++ rest) :=
      fun rest => mem_ways_run.2 ⟨rfl, hbefore, Nat.zero_le _, by simp, rfl⟩
    have h₂ := fun rest => mem_ways_mode.2 ⟨letter, hletter, Eq.refl (letter :: rest), rfl, rfl⟩
    have h₃ : ∀ rest, ⟨between, [], rest⟩ ∈ (run isBlank 1 none).ways (between ++ rest) :=
      fun rest => mem_ways_run.2 ⟨rfl, hbetween, List.length_pos_iff.2 hne, by simp, rfl⟩
    have h₄ := fun rest => mem_ways_mark.2 ⟨hmark, rfl, Eq.refl (mark ++ rest)⟩
    have h₅ : ⟨digits, [("address", digits)], tail⟩ ∈
        (group "address" (run isHexDigit 1 (some 16))).ways (digits ++ tail) :=
      mem_ways_group_run.2 ⟨rfl, hdigits.digits, List.length_pos_iff.2 hdigits.ne_nil,
        by simpa using hdigits.length_le, rfl⟩
    have h₆ := mem_ways_tailExpression.2 ⟨size, htail, rfl⟩
    have hways := ways_seq_of (h₁ _)
      (ways_seq_of (h₂ _) (ways_seq_of (h₃ _) (ways_seq_of (h₄ _) (ways_seq_of h₅ h₆))))
    exact hways

theorem groups?_eq_some_iff :
    recordExpression.groups? body = some groups ↔ ∃ letter digits size,
      Parts body letter digits size ∧ groups = groupsOf letter digits size := by
  constructor
  · intro h
    obtain ⟨m, hm, rfl⟩ := exists_of_groups?_eq_some h
    obtain ⟨letter, digits, size, hparts, rfl⟩ := mem_ways_recordExpression.1 hm
    exact ⟨letter, digits, size, hparts, rfl⟩
  · rintro ⟨letter, digits, size, hparts, rfl⟩
    refine groups?_eq_some_of_forall (mem_ways_recordExpression.2 ⟨_, _, _, hparts, rfl⟩) ?_
    intro m hm
    obtain ⟨letter', digits', size', hparts', rfl⟩ := mem_ways_recordExpression.1 hm
    obtain ⟨rfl, rfl, rfl⟩ := hparts.unique hparts'
    rfl

/-- The record that the groups of a match stand for. -/
def fromGroups? (groups : List (String × List Char)) : Option TraceRecord := do
  let mode ← groups.lookup "mode"
  let address ← (groups.lookup "address").bind (parse? 16 (2 ^ 64))
  let size ← match groups.lookup "size" with
    | some digits => parse? 10 (2 ^ 16) digits
    | none => some 1
  pure {
    address := UInt64.ofNat address
    size := UInt16.ofNat size
    kind := if mode = ['W'] ∨ mode = ['w'] then .write else .read }

/-- Reads the line with a number by matching it. -/
def parseByExpression (number : Nat) (line : List Char) : Except TraceError (Option TraceRecord) :=
  if (content line).all isBlank then .ok none
  else
    match (recordExpression.groups? (content line)).bind fromGroups? with
    | some record => .ok (some record)
    | none => .error (.malformed number (String.ofList line))

/-- The address of a record fits. -/
theorem AddressDigits.value_lt (h : AddressDigits digits) : value 16 digits < 2 ^ 64 :=
  calc value 16 digits < 16 ^ digits.length :=
        Numeral.value_lt (by decide) (allDigits_sixteen_iff.2 h.digits)
    _ ≤ 16 ^ 16 := Nat.pow_le_pow_right (by decide) h.length_le
    _ = 2 ^ 64 := by decide

theorem parse?_of_addressDigits (h : AddressDigits digits) :
    parse? 16 (2 ^ 64) digits = some (value 16 digits) :=
  parse?_eq_some_iff.2
    ⟨digits, .inl rfl, h.ne_nil, allDigits_sixteen_iff.2 h.digits, rfl, h.value_lt⟩

theorem parse?_of_sizeDigits (h : SizeDigits digits) {n : Nat} :
    parse? 10 (2 ^ 16) digits = some n ↔ value 10 digits < 2 ^ 16 ∧ n = value 10 digits := by
  rw [parse?_eq_some_iff]
  have hall := allDigits_ten_iff.2 h.digits
  constructor
  · rintro ⟨digits', rfl | rfl, -, -, rfl, hlt⟩
    · exact ⟨hlt, rfl⟩
    · exact absurd hall (not_allDigits_plus digits')
  · rintro ⟨hlt, rfl⟩
    exact ⟨digits, .inl rfl, h.ne_nil, hall, rfl, hlt⟩

theorem fromGroups?_groupsOf (hparts : Parts body letter digits size) :
    fromGroups? (groupsOf letter digits size) = some record ↔ Reads letter digits size record := by
  obtain ⟨hletter, hdigits, hsize, -⟩ := hparts.words_eq
  obtain ⟨kind, hkind⟩ := Option.isSome_iff_exists.1 hletter
  have hmode :
      (if [letter] = ['W'] ∨ [letter] = ['w'] then AccessKind.write else .read) = kind := by
    rcases kindOf?_eq_some_iff.1 hkind with ⟨rfl | rfl, rfl⟩ | ⟨rfl | rfl, rfl⟩ <;> decide
  cases size with
  | none =>
    have hgroups : fromGroups? (groupsOf letter digits none) =
        some { address := UInt64.ofNat (value 16 digits), size := 1, kind } := by
      have haddress : ((groupsOf letter digits none).lookup "address").bind (parse? 16 (2 ^ 64)) =
          some (value 16 digits) := parse?_of_addressDigits hdigits
      rw [← hmode, fromGroups?, haddress]
      rfl
    rw [hgroups, Option.some.injEq]
    constructor
    · rintro rfl
      exact ⟨hkind, rfl, fun _ => rfl, by simp⟩
    · rintro ⟨hkind', haddress, hunsized, -⟩
      rw [hkind, Option.some.injEq] at hkind'
      rw [hkind', ← haddress, ← hunsized rfl]
  | some sizeDigits =>
    have hgroups : fromGroups? (groupsOf letter digits (some sizeDigits)) =
        (parse? 10 (2 ^ 16) sizeDigits).map fun n =>
          { address := UInt64.ofNat (value 16 digits), size := UInt16.ofNat n, kind } := by
      have haddress : ((groupsOf letter digits (some sizeDigits)).lookup "address").bind
          (parse? 16 (2 ^ 64)) = some (value 16 digits) := parse?_of_addressDigits hdigits
      rw [← hmode, fromGroups?, haddress, Option.map_eq_bind]
      rfl
    rw [hgroups, Option.map_eq_some_iff]
    simp only [parse?_of_sizeDigits (hsize sizeDigits rfl)]
    constructor
    · rintro ⟨n, ⟨hlt, rfl⟩, rfl⟩
      exact ⟨hkind, rfl, by simp, by simpa using hlt⟩
    · rintro ⟨hkind', haddress, -, hsized⟩
      obtain ⟨hlt, hn⟩ := hsized sizeDigits rfl
      rw [hkind, Option.some.injEq] at hkind'
      exact ⟨_, ⟨hlt, rfl⟩, by rw [hkind', ← haddress, ← hn]⟩

/-- A match gives the same record as the scanner. -/
theorem bind_fromGroups? (body : List Char) :
    (recordExpression.groups? body).bind fromGroups? = record? body := by
  refine Option.ext fun record => ?_
  rw [record?_eq_some_iff, Option.bind_eq_some_iff]
  constructor
  · rintro ⟨groups, hgroups, hrecord⟩
    obtain ⟨letter, digits, size, hparts, rfl⟩ := groups?_eq_some_iff.1 hgroups
    exact ⟨letter, digits, size, hparts, (fromGroups?_groupsOf hparts).1 hrecord⟩
  · rintro ⟨letter, digits, size, hparts, hreads⟩
    exact ⟨_, groups?_eq_some_iff.2 ⟨letter, digits, size, hparts, rfl⟩,
      (fromGroups?_groupsOf hparts).2 hreads⟩

/-! ## What a line says -/

/-- The record that a letter, an address and perhaps a size say. -/
structure Says (letter address : List Char) (size : Option (List Char)) (record : TraceRecord) :
    Prop where
  kind : (letter = ['R'] ∨ letter = ['r']) ∧ record.kind = .read ∨
    (letter = ['W'] ∨ letter = ['w']) ∧ record.kind = .write
  address : ∃ mark ∈ marks, ∃ digits, address = mark ++ digits ∧ 1 ≤ digits.length ∧
    digits.length ≤ 16 ∧ Denotes 16 digits record.address.toNat
  unsized : size = none → record.size = 1
  sized : ∀ digits ∈ size, 1 ≤ digits.length ∧ digits.length ≤ 5 ∧
    Denotes 10 digits record.size.toNat

/-- The words of a content say a record. -/
def WordsSay (body : List Char) (record : TraceRecord) : Prop :=
  ∃ letter address size, words body = letter :: address :: size.toList ∧
    Says letter address size record

theorem denotes_address_iff (h : AddressDigits digits) :
    Denotes 16 digits record.address.toNat ↔ record.address = UInt64.ofNat (value 16 digits) := by
  rw [denotes_iff (by decide), and_iff_right (allDigits_sixteen_iff.2 h.digits), ← UInt64.toNat_inj,
    UInt64.toNat_ofNat_of_lt' h.value_lt]

theorem denotes_size_iff (h : SizeDigits digits) :
    Denotes 10 digits record.size.toNat ↔
      value 10 digits < 2 ^ 16 ∧ record.size = UInt16.ofNat (value 10 digits) := by
  rw [denotes_iff (by decide), and_iff_right (allDigits_ten_iff.2 h.digits), ← UInt16.toNat_inj]
  constructor
  · intro hvalue
    have hlt : value 10 digits < 2 ^ 16 := hvalue ▸ record.size.toNat_lt
    rw [UInt16.toNat_ofNat_of_lt' hlt]
    exact ⟨hlt, hvalue⟩
  · rintro ⟨hlt, hvalue⟩
    rwa [UInt16.toNat_ofNat_of_lt' hlt] at hvalue

theorem AddressDigits.of_denotes {n : Nat} (hleast : 1 ≤ digits.length) (hmost : digits.length ≤ 16)
    (h : Denotes 16 digits n) : AddressDigits digits :=
  ⟨List.ne_nil_of_length_pos hleast, hmost,
    allDigits_sixteen_iff.1 ((denotes_iff (by decide)).1 h).1⟩

theorem SizeDigits.of_denotes {n : Nat} (hleast : 1 ≤ digits.length) (hmost : digits.length ≤ 5)
    (h : Denotes 10 digits n) : SizeDigits digits :=
  ⟨List.ne_nil_of_length_pos hleast, hmost, allDigits_ten_iff.1 ((denotes_iff (by decide)).1 h).1⟩

/-- The record of a line is what its words say. -/
theorem record?_eq_some_iff_wordsSay : record? body = some record ↔ WordsSay body record := by
  rw [record?_eq_some_iff]
  constructor
  · rintro ⟨letter, digits, size, hparts, hreads⟩
    obtain ⟨-, hdigits, hsize, mark, hmark, hwords⟩ := hparts.words_eq
    refine ⟨[letter], mark ++ digits, size, hwords, ?_, ⟨mark, hmark, digits, rfl,
      List.length_pos_iff.2 hdigits.ne_nil, hdigits.length_le, ?_⟩, hreads.unsized, ?_⟩
    · simpa using kindOf?_eq_some_iff.1 hreads.kind
    · exact (denotes_address_iff hdigits).2 hreads.address
    · intro sizeDigits hsome
      have hdigits := hsize sizeDigits hsome
      exact ⟨List.length_pos_iff.2 hdigits.ne_nil, hdigits.length_le,
        (denotes_size_iff hdigits).2 (hreads.sized sizeDigits hsome)⟩
  · rintro ⟨word, address, size, hwords, hletter,
      ⟨mark, hmark, digits, rfl, hleast, hmost, hdenotes⟩, hunsized, hsized⟩
    obtain ⟨letter, rfl, hkind⟩ :
        ∃ letter, word = [letter] ∧ kindOf? letter = some record.kind := by
      rcases hletter with ⟨rfl | rfl, hkind⟩ | ⟨rfl | rfl, hkind⟩ <;>
        exact ⟨_, rfl, by rw [hkind]; rfl⟩
    have hdigits := AddressDigits.of_denotes hleast hmost hdenotes
    have hsize : ∀ digits ∈ size, SizeDigits digits := fun digits hsome =>
      let ⟨hleast, hmost, hdenotes⟩ := hsized digits hsome
      .of_denotes hleast hmost hdenotes
    refine ⟨letter, digits, size, parts_of_words_eq (by rw [hkind]; rfl) hdigits hsize hmark hwords,
      hkind, (denotes_address_iff hdigits).1 hdenotes, hunsized, fun sizeDigits hsome => ?_⟩
    exact (denotes_size_iff (hsize sizeDigits hsome)).1 (hsized sizeDigits hsome).2.2

theorem parseLine_eq_ok_none_iff {line : List Char} :
    parseLine number line = .ok none ↔ words (content line) = [] := by
  rw [words_eq_nil_iff, parseLine]
  by_cases hblank : (content line).all isBlank = true
  · rw [if_pos hblank]
    exact iff_of_true rfl (List.all_eq_true.1 hblank)
  · rw [if_neg hblank]
    refine iff_of_false ?_ fun h => hblank (List.all_eq_true.2 h)
    cases record? (content line) <;> simp

/-- A record has words, and so the line is not blank. -/
theorem parseLine_eq_ok_some_iff {line : List Char} :
    parseLine number line = .ok (some record) ↔ WordsSay (content line) record := by
  rw [← record?_eq_some_iff_wordsSay, parseLine]
  split
  · rename_i hblank
    refine iff_of_false (by simp) fun hrecord => ?_
    obtain ⟨letter, address, size, hwords, -⟩ := record?_eq_some_iff_wordsSay.1 hrecord
    rw [words_eq_nil_iff.2 (List.all_eq_true.1 hblank)] at hwords
    cases hwords
  · cases record? (content line) <;> simp

theorem eq_malformed_of_parseLine_eq_error {line : List Char} {e : TraceError}
    (h : parseLine number line = .error e) : e = .malformed number (String.ofList line) := by
  unfold parseLine at h
  split at h
  · cases h
  · split at h
    · cases h
    · exact (Except.error.inj h).symm

/-- A line that does not say anything is refused as it is. -/
theorem parseLine_eq_error_iff {line : List Char} {e : TraceError} :
    parseLine number line = .error e ↔ words (content line) ≠ [] ∧
      (¬ ∃ record, WordsSay (content line) record) ∧
      e = .malformed number (String.ofList line) := by
  constructor
  · intro h
    refine ⟨fun hwords => ?_, fun ⟨record, hrecord⟩ => ?_, eq_malformed_of_parseLine_eq_error h⟩
    · rw [parseLine_eq_ok_none_iff.2 hwords] at h
      cases h
    · rw [parseLine_eq_ok_some_iff.2 hrecord] at h
      cases h
  · rintro ⟨hwords, hrecord, rfl⟩
    match hparse : parseLine number line with
    | .ok none => exact absurd (parseLine_eq_ok_none_iff.1 hparse) hwords
    | .ok (some record) => exact absurd ⟨record, parseLine_eq_ok_some_iff.1 hparse⟩ hrecord
    | .error e => rw [eq_malformed_of_parseLine_eq_error hparse]

theorem parseByExpression_eq (number : Nat) (line : List Char) :
    parseByExpression number line = parseLine number line := by
  rw [parseByExpression, bind_fromGroups?]
  rfl

/-- A line without words has no record.  Otherwise it has the record that its words say: a
letter, an address of at most sixteen hexadecimal digits that may be marked, and perhaps a
size of at most five decimal digits, which is one if there is none.  A line whose words say
nothing is refused, with its number and its text.  And matching the line comes to the same. -/
theorem parseLine_eq_grammar (number : Nat) (line : List Char) :
    (parseLine number line = .ok none ↔ words (content line) = []) ∧
    (∀ record, parseLine number line = .ok (some record) ↔ WordsSay (content line) record) ∧
    (∀ e, parseLine number line = .error e ↔ words (content line) ≠ [] ∧
      (¬ ∃ record, WordsSay (content line) record) ∧ e = .malformed number (String.ofList line)) ∧
    parseByExpression number line = parseLine number line :=
  ⟨parseLine_eq_ok_none_iff, fun _ => parseLine_eq_ok_some_iff, fun _ => parseLine_eq_error_iff,
    parseByExpression_eq number line⟩

end AssocCache.TextForm
