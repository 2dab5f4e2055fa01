import AssocCache.Numeral

/-!
# JSON values

A JSON value as a text writes it down: members of an object stay in order, and a
name may occur more than once.  A string is a sequence of parts, which are not all
characters: an escape can name half of a surrogate pair, and a file can hold bytes
that spell no character.  Such a string has no text (`Json.Text.toString?`).
Numbers are divided into the natural ones, which have a value, and the others,
which keep their spelling.
-/

namespace AssocCache

namespace Json

/-- A part of a string. -/
inductive Part where
  | char (c : Char)
  /-- A surrogate that stands alone. -/
  | surrogate (unit : Nat)
  /-- A byte that belongs to no character. -/
  | byte (value : UInt8)
  deriving DecidableEq, Repr

/-- A string of a JSON text. -/
structure Text where
  parts : List Part
  deriving DecidableEq, Repr

/-- The string of a text. -/
def Text.ofString (s : String) : Text := ⟨s.toList.map .char⟩

/-- The character that a part is. -/
def Part.toChar? : Part → Option Char
  | .char c => some c
  | .surrogate _ | .byte _ => none

/-- The text of a string, if it consists of characters. -/
def Text.toString? (t : Text) : Option String := String.ofList <$> t.parts.mapM Part.toChar?

@[simp] theorem Text.toString?_ofString (s : String) : (Text.ofString s).toString? = some s := by
  have h : ∀ cs : List Char, (cs.map Part.char).mapM Part.toChar? = some cs := by
    intro cs
    induction cs with
    | nil => rfl
    | cons c cs ih => simp [Part.toChar?, ih]
  simp [Text.ofString, Text.toString?, h]

end Json

/-- A JSON value. -/
inductive Json where
  | null
  | bool (value : Bool)
  /-- A number without sign, fraction and exponent. -/
  | natural (value : Nat)
  /-- Any other number, by its spelling. -/
  | number (spelling : List Char)
  | string (text : Json.Text)
  | array (elements : List Json)
  | object (members : List (Json.Text × Json))

namespace Json

/-- The value of a text. -/
def ofString (s : String) : Json := .string (.ofString s)

/-- An object with some members. -/
def record (members : List (String × Json)) : Json :=
  .object (members.map fun member => (.ofString member.1, member.2))

/-- The value, or null. -/
def ofOption {α : Type} (encode : α → Json) : Option α → Json
  | some a => encode a
  | none => .null

/-- An array of values. -/
def ofList {α : Type} (encode : α → Json) (values : List α) : Json := .array (values.map encode)

end Json

end AssocCache

/-!
## Writing JSON

Two layouts of a value: `Json.compact` without any blanks, and `Json.pretty` with a
line for each element and member, indented by two spaces per level.  In a string
only quotes, backslashes and control characters are escaped.
-/

namespace AssocCache.Json

/-- An escape that names a UTF-16 unit. -/
def unitEscape (unit : Nat) : String := "\\u" ++ String.ofList (Numeral.padded 16 4 unit)

/-- A character of a string. -/
def escapeChar (c : Char) : String :=
  if c = '"' then "\\\""
  else if c = '\\' then "\\\\"
  else if c = '\x08' then "\\b"
  else if c = '\t' then "\\t"
  else if c = '\n' then "\\n"
  else if c = '\x0c' then "\\f"
  else if c = '\r' then "\\r"
  else if c.toNat < 0x20 then unitEscape c.toNat
  else c.toString

/-- A part of a string.  A byte that belongs to no character is written as the
replacement character. -/
def Part.escape : Part → String
  | .char c => escapeChar c
  | .surrogate unit => unitEscape unit
  | .byte _ => unitEscape 0xfffd

/-- A string in its quotes. -/
def Text.quoted (t : Text) : String := "\"" ++ String.join (t.parts.map Part.escape) ++ "\""

mutual

/-- A value without blanks. -/
def compact : Json → String
  | .null => "null"
  | .bool true => "true"
  | .bool false => "false"
  | .natural value => toString value
  | .number spelling => String.ofList spelling
  | .string text => text.quoted
  | .array elements => "[" ++ ",".intercalate (compactElements [] elements) ++ "]"
  | .object members => "\x7b" ++ ",".intercalate (compactMembers [] members) ++ "\x7d"

/-- The elements of an array without blanks, after some in reverse order. -/
def compactElements (done : List String) : List Json → List String
  | [] => done.reverse
  | value :: rest => compactElements (compact value :: done) rest

/-- The members of an object without blanks, after some in reverse order. -/
def compactMembers (done : List String) : List (Text × Json) → List String
  | [] => done.reverse
  | (name, value) :: rest => compactMembers ((name.quoted ++ ":" ++ compact value) :: done) rest

end

/-- A line break and the indentation of a level. -/
def lineBreak (level : Nat) : String := "\n" ++ String.ofList (List.replicate (2 * level) ' ')

/-- The parts of a container at a level, between its brackets, each on a line of
its own. -/
def spread (opening closing : String) (level : Nat) (parts : List String) : String :=
  if parts.isEmpty then opening ++ closing
  else
    opening ++ lineBreak (level + 1) ++ (("," ++ lineBreak (level + 1)).intercalate parts) ++
      lineBreak level ++ closing

mutual

/-- A value at a level of indentation. -/
def prettyAt (level : Nat) : Json → String
  | .array elements => spread "[" "]" level (prettyElements (level + 1) [] elements)
  | .object members => spread "\x7b" "\x7d" level (prettyMembers (level + 1) [] members)
  | .null => "null"
  | .bool true => "true"
  | .bool false => "false"
  | .natural value => toString value
  | .number spelling => String.ofList spelling
  | .string text => text.quoted

/-- The elements of an array at a level of indentation, after some in reverse
order. -/
def prettyElements (level : Nat) (done : List String) : List Json → List String
  | [] => done.reverse
  | value :: rest => prettyElements level (prettyAt level value :: done) rest

/-- The members of an object at a level of indentation, after some in reverse
order. -/
def prettyMembers (level : Nat) (done : List String) : List (Text × Json) → List String
  | [] => done.reverse
  | (name, value) :: rest =>
    prettyMembers level ((name.quoted ++ ": " ++ prettyAt level value) :: done) rest

end

/-- A value with a line for each element and member. -/
def pretty (value : Json) : String := prettyAt 0 value

end AssocCache.Json
