/-!
# Numerals

How numbers are written in messages, configurations and trace records, and how
their digits are read.  Digits have a base of at most sixteen.  They are written
with small letters or capitals, filled up with zeros to a least width or not, and
read in either case.

`value_digits`, `value_padded` and `value_hexCapital` say that reading what was
written gives the number back.
-/

/-!
## Powers

A library that is imported may bring a power operation of its own for natural
numbers.  In this namespace `2 ^ n` is always the one that computes, so that a
definition reads the same in every module.
-/

namespace AssocCache

attribute [scoped instance (high)] instPowNat

end AssocCache

namespace AssocCache.Numeral

/-! ## Writing -/

/-- The digits of a number in a base of at most sixteen, most significant
first, small letters above nine. -/
def digits (base n : Nat) : List Char := Nat.toDigits base n

/-- Digits filled up with zeros on the left to at least `width` characters. -/
def padded (base width n : Nat) : List Char := (digits base n).leftpad width '0'

/-- A hexadecimal numeral with its mark, such as `0x1f`. -/
def hex (n : Nat) : String := "0x" ++ String.ofList (digits 16 n)

/-- A hexadecimal numeral in capital letters, without a mark, at least `width`
characters wide. -/
def hexCapital (width n : Nat) : List Char := (padded 16 width n).map Char.toUpper

theorem length_padded (base width n : Nat) :
    (padded base width n).length = max width (digits base n).length := by
  simp only [padded, List.leftpad, List.length_append, List.length_replicate]
  omega

@[simp] theorem length_hexCapital (width n : Nat) :
    (hexCapital width n).length = max width (digits 16 n).length := by
  simp [hexCapital, length_padded]

/-! ## Reading -/

/-- The value of a hexadecimal digit. -/
def hexDigit? (c : Char) : Option Nat :=
  if '0' ≤ c ∧ c ≤ '9' then some (c.toNat - 48)
  else if 'A' ≤ c ∧ c ≤ 'F' then some (c.toNat - 55)
  else if 'a' ≤ c ∧ c ≤ 'f' then some (c.toNat - 87)
  else none

/-- Whether a character is a hexadecimal digit. -/
def isHexDigit (c : Char) : Bool := (hexDigit? c).isSome

/-- The value of a hexadecimal digit.  Any other character counts as zero. -/
def digitValue (c : Char) : Nat := (hexDigit? c).getD 0

/-- The value of digits in a base after digits of some value, the most significant
first. -/
def valueFrom (base start : Nat) (digits : List Char) : Nat :=
  digits.foldl (fun value c => base * value + digitValue c) start

/-- The value of digits in a base, the most significant first. -/
def value (base : Nat) (digits : List Char) : Nat := valueFrom base 0 digits

theorem hexDigit?_lt {c : Char} {n : Nat} (h : hexDigit? c = some n) : n < 16 := by
  have hle : ∀ {a b : Char}, a ≤ b → a.toNat ≤ b.toNat := fun h => h
  unfold hexDigit? at h
  split at h
  · rename_i hc
    have h9 : c.toNat ≤ 57 := hle hc.2
    cases h
    omega
  · split at h
    · rename_i hc
      have hF : c.toNat ≤ 70 := hle hc.2
      cases h
      omega
    · split at h
      · rename_i hc
        have hf : c.toNat ≤ 102 := hle hc.2
        cases h
        omega
      · simp at h

theorem digitValue_lt (c : Char) : digitValue c < 16 := by
  unfold digitValue
  cases h : hexDigit? c with
  | none => decide
  | some n => exact hexDigit?_lt h

/-! ## Reading what was written -/

theorem digitValue_digitChar {n : Nat} (h : n < 16) : digitValue n.digitChar = n := by
  have : ∀ n : Fin 16, digitValue (n : Nat).digitChar = n := by decide
  exact this ⟨n, h⟩

theorem digitValue_toUpper_digitChar {n : Nat} (h : n < 16) :
    digitValue n.digitChar.toUpper = n := by
  have : ∀ n : Fin 16, digitValue (n : Nat).digitChar.toUpper = n := by decide
  exact this ⟨n, h⟩

theorem valueFrom_append (base start : Nat) (xs ys : List Char) :
    valueFrom base start (xs ++ ys) = valueFrom base (valueFrom base start xs) ys := by
  simp [valueFrom]

theorem value_replicate_zero (base count : Nat) (xs : List Char) :
    value base (List.replicate count '0' ++ xs) = value base xs := by
  have h : valueFrom base 0 (List.replicate count '0') = 0 := by
    induction count with
    | zero => rfl
    | succ count ih =>
      have h0 : base * 0 + digitValue '0' = 0 := by
        rw [show digitValue '0' = 0 by decide, Nat.mul_zero]
      rw [List.replicate_succ, valueFrom, List.foldl_cons, h0]
      exact ih
  rw [value, valueFrom_append, h, value]

/-- Reading digits one by one, as an extra character function sees them, gives
the number back. -/
theorem value_map_digits {base : Nat} (h1 : 1 < base) (f : Char → Char)
    (hf : ∀ n < base, digitValue (f n.digitChar) = n) (n : Nat) :
    value base ((digits base n).map f) = n := by
  unfold digits
  induction n using Nat.base_induction base h1 with
  | single m hm =>
    rw [Nat.toDigits_of_lt_base hm]
    simp [value, valueFrom, hf m hm]
  | digit m k hk hm ih =>
    rw [value] at ih
    rw [← Nat.toDigits_append_toDigits h1 hm hk, List.map_append, value, valueFrom_append, ih,
      Nat.toDigits_of_lt_base hk]
    simp [valueFrom, hf k hk]

theorem value_digits {base : Nat} (h1 : 1 < base) (h16 : base ≤ 16) (n : Nat) :
    value base (digits base n) = n := by
  have h := value_map_digits h1 id (fun m hm => digitValue_digitChar (Nat.lt_of_lt_of_le hm h16)) n
  rwa [List.map_id] at h

theorem value_padded {base : Nat} (h1 : 1 < base) (h16 : base ≤ 16) (width n : Nat) :
    value base (padded base width n) = n := by
  rw [padded, List.leftpad, value_replicate_zero, value_digits h1 h16]

theorem value_hexCapital (width n : Nat) : value 16 (hexCapital width n) = n := by
  rw [hexCapital, padded, List.leftpad, List.map_append, List.map_replicate,
    show '0'.toUpper = '0' by decide, value_replicate_zero]
  exact value_map_digits (by decide) Char.toUpper (fun m hm => digitValue_toUpper_digitChar hm) n

end AssocCache.Numeral
