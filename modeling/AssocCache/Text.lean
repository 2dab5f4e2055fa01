/-!
# Texts

Blank characters and lines, and the bytes that spell a text.
-/

/-!
## Blank characters

The characters with the Unicode property `White_Space`.
-/

namespace AssocCache.Text

/-- The code points with the property `White_Space`, as inclusive ranges. -/
def blankRanges : List (Nat × Nat) :=
  [(0x0009, 0x000d), (0x0020, 0x0020), (0x0085, 0x0085), (0x00a0, 0x00a0), (0x1680, 0x1680),
    (0x2000, 0x200a), (0x2028, 0x2029), (0x202f, 0x202f), (0x205f, 0x205f), (0x3000, 0x3000)]

/-- Whether a character has the property `White_Space`. -/
def isBlank (c : Char) : Bool :=
  blankRanges.any fun range => range.1 ≤ c.toNat && c.toNat ≤ range.2

-- The property holds of 25 characters.
example : (blankRanges.map fun r => r.2 - r.1 + 1).sum = 25 := rfl

end AssocCache.Text

/-!
## Lines of a text

A line ends at a newline, and a carriage return right before that newline belongs
to the line's end.  What follows the last newline is a line of its own, carriage
returns included, unless it is empty.
-/

namespace AssocCache.Text

/-- The line whose characters were read in reverse order, once its newline was
met. -/
def closeLine : List Char → List Char
  | '\r' :: reversed => reversed.reverse
  | reversed => reversed.reverse

/-- The lines of the rest of a text, after some lines in reverse order and the
start of another one in reverse order. -/
def linesFrom : List (List Char) → List Char → List Char → List (List Char)
  | done, [], [] => done.reverse
  | done, c :: cs, [] => ((c :: cs).reverse :: done).reverse
  | done, current, '\n' :: rest => linesFrom (closeLine current :: done) [] rest
  | done, current, c :: rest => linesFrom done (c :: current) rest

/-- The lines of a text. -/
def lines (text : List Char) : List (List Char) := linesFrom [] [] text

theorem linesFrom_eq_append (done : List (List Char)) (current text : List Char) :
    linesFrom done current text = done.reverse ++ linesFrom [] current text := by
  induction text generalizing done current with
  | nil => cases current <;> simp [linesFrom]
  | cons c rest ih =>
    by_cases h : c = '\n'
    · subst h
      rw [linesFrom, linesFrom, ih (closeLine current :: done), ih [closeLine current]]
      simp
    · rw [linesFrom, linesFrom, ih done]
      all_goals simp_all

@[simp] theorem lines_nil : lines [] = [] := rfl

end AssocCache.Text

/-!
## UTF-8

`Utf8.decode` reads bytes as characters.  It refuses them at the first byte that no
character can have at its place, and says where the character began and how many
of its bytes were good, or else that the bytes end within a character.
-/

namespace AssocCache.Text.Utf8

/-- Why bytes are no UTF-8. -/
inductive Error where
  /-- The character that begins at an index is broken after some bytes. -/
  | broken (length index : Nat)
  /-- The character that begins at an index is not complete. -/
  | incomplete (index : Nat)
  deriving DecidableEq, Repr

/-- The wording of the error. -/
def Error.message : Error → String
  | .broken length index => s!"invalid utf-8 sequence of {length} bytes from index {index}"
  | .incomplete index => s!"incomplete utf-8 byte sequence from index {index}"

/-- A character that is not complete yet: its bits so far, how many bytes it had
and still needs, and the bounds of the next one. -/
structure Partial where
  bits : Nat
  had : Nat
  needs : Nat
  low : Nat
  high : Nat

/-- A reader of bytes: the characters so far in reverse order, the index at which
the current character begins, and the character if it has begun. -/
structure Reader where
  done : List Char
  index : Nat
  current : Option Partial

/-- The state after the first byte of a character that needs more. -/
def begin? (byte : Nat) : Option Partial :=
  if 0xc2 ≤ byte ∧ byte ≤ 0xdf then some ⟨byte - 0xc0, 1, 1, 0x80, 0xbf⟩
  else if byte = 0xe0 then some ⟨0, 1, 2, 0xa0, 0xbf⟩
  else if byte = 0xed then some ⟨0xd, 1, 2, 0x80, 0x9f⟩
  else if 0xe1 ≤ byte ∧ byte ≤ 0xef then some ⟨byte - 0xe0, 1, 2, 0x80, 0xbf⟩
  else if byte = 0xf0 then some ⟨0, 1, 3, 0x90, 0xbf⟩
  else if 0xf1 ≤ byte ∧ byte ≤ 0xf3 then some ⟨byte - 0xf0, 1, 3, 0x80, 0xbf⟩
  else if byte = 0xf4 then some ⟨4, 1, 3, 0x80, 0x8f⟩
  else none

/-- Reads a byte. -/
def Reader.read (r : Reader) (byte : UInt8) : Except Error Reader :=
  let b := byte.toNat
  match r.current with
  | none =>
    if b < 0x80 then .ok { r with done := Char.ofNat b :: r.done, index := r.index + 1 }
    else
      match begin? b with
      | some begun => .ok { r with current := some begun }
      | none => .error (.broken 1 r.index)
  | some c =>
    if c.low ≤ b ∧ b ≤ c.high then
      let bits := c.bits * 64 + (b - 0x80)
      if c.needs = 1 then .ok ⟨Char.ofNat bits :: r.done, r.index + c.had + 1, none⟩
      else .ok { r with current := some ⟨bits, c.had + 1, c.needs - 1, 0x80, 0xbf⟩ }
    else
      .error (.broken c.had r.index)

/-- Reads bytes as characters. -/
def decode (bytes : List UInt8) : Except Error (List Char) := do
  let r ← bytes.foldlM Reader.read ⟨[], 0, none⟩
  match r.current with
  | none => pure r.done.reverse
  | some _ => .error (.incomplete r.index)

end AssocCache.Text.Utf8
