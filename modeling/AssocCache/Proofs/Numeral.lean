import AssocCache.Numeral
import Mathlib.Data.Nat.Digits.Defs

/-!
# What numerals denote

A text denotes a number in a base if its characters are the digits of the number there, the
most significant first, in either case (`Numeral.Denotes`).  Reading digits one after the
other gives this number, and a text of digits denotes nothing else
(`Numeral.denotes_iff`).
-/

namespace AssocCache.Numeral

variable {base n d : Nat} {c : Char} {text : List Char}

/-- The characters are the digits of a number in a base, most significant first, in either
case. -/
def Denotes (base : Nat) (text : List Char) (n : Nat) : Prop :=
  ∃ ds : List Nat, (∀ d ∈ ds, d < base) ∧ text.map Char.toLower = ds.map Nat.digitChar ∧
    n = Nat.ofDigits base ds.reverse

/-- The digits of a base: characters that have a value, and one below the base. -/
def AllDigits (base : Nat) (text : List Char) : Prop :=
  ∀ c ∈ text, ∃ d ∈ hexDigit? c, d < base

/-- The number that a text of digits denotes, if it is below a bound. -/
def number? (base bound : Nat) (text : List Char) : Option Nat :=
  if text ≠ [] ∧ text.all (fun c => (hexDigit? c).any (· < base)) ∧ value base text < bound then
    some (value base text)
  else
    none

/-- The number below a bound that a text denotes, which may start with a plus sign. -/
def parse? (base bound : Nat) : List Char → Option Nat
  | '+' :: text => number? base bound text
  | text => number? base bound text

/-- The digits lie close to each other. -/
theorem bounds_of_isHexDigit (h : isHexDigit c = true) : 48 ≤ c.toNat ∧ c.toNat ≤ 102 := by
  have hle : ∀ {a b : Char}, a ≤ b → a.toNat ≤ b.toNat := fun h => h
  obtain ⟨d, hd⟩ := Option.isSome_iff_exists.1 h
  unfold hexDigit? at hd
  split at hd
  · rename_i hc
    exact ⟨hle hc.1, Nat.le_trans (hle hc.2) (by decide)⟩
  · split at hd
    · rename_i hc
      exact ⟨Nat.le_trans (by decide) (hle hc.1), Nat.le_trans (hle hc.2) (by decide)⟩
    · split at hd
      · rename_i hc
        exact ⟨Nat.le_trans (by decide) (hle hc.1), hle hc.2⟩
      · cases hd

/-- A hexadecimal digit is written with the character of its value, or with the capital. -/
theorem hexDigit?_eq_some_iff : hexDigit? c = some d ↔ d < 16 ∧ c.toLower = d.digitChar := by
  rcases Nat.lt_or_ge c.toNat 128 with hascii | hother
  · have hall : ∀ n : Fin 128, ∀ d : Fin 16, hexDigit? (Char.ofNat n) = some (d : Nat) ↔
        (Char.ofNat n).toLower = (d : Nat).digitChar := by decide +kernel
    have hc := hall ⟨c.toNat, hascii⟩
    rw [show Char.ofNat c.toNat = c from Char.ofNat_toNat c] at hc
    constructor
    · intro h
      exact ⟨hexDigit?_lt h, (hc ⟨d, hexDigit?_lt h⟩).1 h⟩
    · rintro ⟨hd, h⟩
      exact (hc ⟨d, hd⟩).2 h
  · have hnone : hexDigit? c = none :=
      Option.not_isSome_iff_eq_none.1 fun h => absurd (bounds_of_isHexDigit h).2 (by omega)
    have hlower : c.toLower = c := by
      unfold Char.toLower
      rw [dif_neg]
      rintro ⟨-, h⟩
      have h : c.toNat ≤ 90 := h
      omega
    rw [hnone, hlower]
    refine iff_of_false (by simp) ?_
    rintro ⟨hd, rfl⟩
    have hall : ∀ d : Fin 16, (d : Nat).digitChar.toNat < 128 := by decide
    exact absurd (hall ⟨d, hd⟩) (Nat.not_lt.2 hother)

theorem allDigits_sixteen_iff : AllDigits 16 text ↔ ∀ c ∈ text, isHexDigit c = true := by
  refine forall₂_congr fun c _ => ?_
  rw [isHexDigit, Option.isSome_iff_exists]
  exact ⟨fun ⟨d, hd, _⟩ => ⟨d, hd⟩, fun ⟨d, hd⟩ => ⟨d, hd, hexDigit?_lt hd⟩⟩

/-- A decimal digit has a value below ten. -/
theorem isDigit_iff : c.isDigit = true ↔ ∃ d ∈ hexDigit? c, d < 10 := by
  have hle : ∀ {a b : Char}, a ≤ b → a.toNat ≤ b.toNat := fun h => h
  have hdigit : c.isDigit = true ↔ '0' ≤ c ∧ c ≤ '9' := by
    simp only [Char.isDigit, Bool.and_eq_true, decide_eq_true_eq]
    rfl
  rw [hdigit]
  unfold hexDigit?
  constructor
  · intro h
    rw [if_pos h]
    have h9 : c.toNat ≤ 57 := hle h.2
    exact ⟨_, rfl, by omega⟩
  · rintro ⟨d, hd, hlt⟩
    split at hd
    · assumption
    · split at hd
      · rename_i h
        have hA : 65 ≤ c.toNat := hle h.1
        cases hd
        omega
      · split at hd
        · rename_i h
          have ha : 97 ≤ c.toNat := hle h.1
          cases hd
          omega
        · cases hd

theorem allDigits_ten_iff : AllDigits 10 text ↔ ∀ c ∈ text, c.isDigit = true :=
  forall₂_congr fun _ _ => isDigit_iff.symm

theorem isHexDigit_of_isDigit (h : c.isDigit = true) : isHexDigit c = true := by
  obtain ⟨d, hd, -⟩ := isDigit_iff.1 h
  rw [isHexDigit, Option.mem_def.1 hd]
  rfl

theorem valueFrom_cons (base start : Nat) (c : Char) (text : List Char) :
    valueFrom base start (c :: text) = valueFrom base (base * start + digitValue c) text := rfl

/-- The value so far counts for as much as the digits to come make of it. -/
theorem valueFrom_eq_ofDigits (base start : Nat) (text : List Char) :
    valueFrom base start text =
      base ^ text.length * start + Nat.ofDigits base (text.map digitValue).reverse := by
  induction text generalizing start with
  | nil => simp [valueFrom]
  | cons c text ih =>
    rw [valueFrom_cons, ih, List.map_cons, List.reverse_cons, Nat.ofDigits_append,
      Nat.ofDigits_singleton, List.length_reverse, List.length_map, List.length_cons, Nat.pow_succ]
    ring

theorem value_eq_ofDigits (base : Nat) (text : List Char) :
    value base text = Nat.ofDigits base (text.map digitValue).reverse := by
  rw [value, valueFrom_eq_ofDigits, Nat.mul_zero, Nat.zero_add]

/-- Characters that write some values have these values. -/
theorem map_digitValue_of_map_toLower (hbase : base ≤ 16) {ds : List Nat} (hds : ∀ d ∈ ds, d < base)
    (htext : text.map Char.toLower = ds.map Nat.digitChar) :
    AllDigits base text ∧ text.map digitValue = ds := by
  induction text generalizing ds with
  | nil =>
    obtain rfl : ds = [] := by simpa using htext.symm
    exact ⟨by simp [AllDigits], rfl⟩
  | cons c text ih =>
    cases ds with
    | nil => cases htext
    | cons d ds =>
      rw [List.map_cons, List.map_cons, List.cons.injEq] at htext
      have hd := hds d List.mem_cons_self
      have hc := hexDigit?_eq_some_iff.2 ⟨Nat.lt_of_lt_of_le hd hbase, htext.1⟩
      obtain ⟨hdigits, hmap⟩ := ih (fun d hd => hds d (List.mem_cons_of_mem _ hd)) htext.2
      refine ⟨fun c' hc' => ?_, ?_⟩
      · rcases List.mem_cons.1 hc' with rfl | hc'
        · exact ⟨d, hc, hd⟩
        · exact hdigits c' hc'
      · rw [List.map_cons, hmap, digitValue, hc]
        rfl

/-- A text of digits denotes its value and nothing else. -/
theorem denotes_iff (hbase : base ≤ 16) :
    Denotes base text n ↔ AllDigits base text ∧ n = value base text := by
  rw [value_eq_ofDigits]
  constructor
  · rintro ⟨ds, hds, htext, rfl⟩
    obtain ⟨hdigits, hmap⟩ := map_digitValue_of_map_toLower hbase hds htext
    exact ⟨hdigits, by rw [hmap]⟩
  · rintro ⟨hdigits, rfl⟩
    refine ⟨text.map digitValue, fun d hd => ?_, ?_, rfl⟩
    · obtain ⟨c, hc, rfl⟩ := List.mem_map.1 hd
      obtain ⟨d, hd, hlt⟩ := hdigits c hc
      rwa [digitValue, Option.mem_def.1 hd]
    · rw [List.map_map]
      refine List.map_congr_left fun c hc => ?_
      obtain ⟨d, hd, -⟩ := hdigits c hc
      have hc := (hexDigit?_eq_some_iff.1 hd).2
      rw [Function.comp_apply, digitValue, Option.mem_def.1 hd]
      exact hc

theorem all_digits_iff :
    text.all (fun c => (hexDigit? c).any (· < base)) = true ↔ AllDigits base text := by
  rw [List.all_eq_true]
  refine forall₂_congr fun c _ => ?_
  cases hexDigit? c <;> simp

theorem number?_eq_some_iff {bound : Nat} :
    number? base bound text = some n ↔
      text ≠ [] ∧ AllDigits base text ∧ n = value base text ∧ n < bound := by
  unfold number?
  split
  · rename_i h
    rw [Option.some.injEq]
    exact ⟨fun hn => ⟨h.1, all_digits_iff.1 h.2.1, hn.symm, hn ▸ h.2.2⟩, fun hn => hn.2.2.1.symm⟩
  · rename_i h
    refine iff_of_false (by simp) ?_
    rintro ⟨hne, hdigits, rfl, hlt⟩
    exact h ⟨hne, all_digits_iff.2 hdigits, hlt⟩

/-- A sign is no digit. -/
theorem not_allDigits_plus (text : List Char) : ¬ AllDigits base ('+' :: text) := by
  intro h
  obtain ⟨d, hd, -⟩ := h '+' List.mem_cons_self
  exact absurd hd (by simp [show hexDigit? '+' = none by decide])

theorem parse?_eq_some_iff {bound : Nat} :
    parse? base bound text = some n ↔ ∃ digits, (text = digits ∨ text = '+' :: digits) ∧
      digits ≠ [] ∧ AllDigits base digits ∧ n = value base digits ∧ n < bound := by
  unfold parse?
  split
  · rename_i digits
    rw [number?_eq_some_iff]
    constructor
    · exact fun h => ⟨digits, .inr rfl, h⟩
    · rintro ⟨digits', rfl | h, hread⟩
      · exact absurd hread.2.1 (not_allDigits_plus digits)
      · rwa [(List.cons.inj h).2]
  · rename_i hplus
    rw [number?_eq_some_iff]
    constructor
    · exact fun h => ⟨text, .inl rfl, h⟩
    · rintro ⟨digits, rfl | h, hread⟩
      · exact hread
      · exact absurd h (hplus digits)

/-- The value of some digits is below the power of the base. -/
theorem value_lt (hbase : 1 < base) (h : AllDigits base text) :
    value base text < base ^ text.length := by
  rw [value_eq_ofDigits]
  have hlt := Nat.ofDigits_lt_base_pow_length (l := (text.map digitValue).reverse) hbase (by
    intro d hd
    obtain ⟨c, hc, rfl⟩ := List.mem_map.1 (List.mem_reverse.1 hd)
    obtain ⟨d, hd, hlt⟩ := h c hc
    rwa [digitValue, Option.mem_def.1 hd])
  rwa [List.length_reverse, List.length_map] at hlt

end AssocCache.Numeral
