import AssocCache.Json
import AssocCache.Json.Token
import AssocCache.Numeral
import AssocCache.Text

/-!
# Reading JSON

`Json.ofText?` reads a text that holds one value and nothing else, and
`Json.ofBytes?` does so from the bytes of a file.  The reader goes through the tokens
once and keeps the containers it is inside of in a list, so their depth is not
limited.

Bytes that are no UTF-8 are refused outside of strings and kept as they are inside,
so a file is readable as long as they are in strings whose text nobody asks for.
-/

namespace AssocCache.Json

/-- A container that is not complete yet, with its contents in reverse order. -/
inductive Frame where
  | array (elements : List Json)
  | object (members : List (Text × Json))
  /-- An object whose latest name waits for its value. -/
  | member (members : List (Text × Json)) (name : Text)

/-- What has to come next. -/
inductive Expected where
  | value
  /-- A value, or the end of the array that has just begun. -/
  | firstElement
  | name
  /-- A name, or the end of the object that has just begun. -/
  | firstName
  | colon
  /-- A comma, or the end of the container. -/
  | separator
  | nothing

/-- A reader of values: what has to come next, the containers it is inside of,
the innermost first, and the value once it is complete. -/
structure Reader where
  expected : Expected
  frames : List Frame
  result : Option Json

namespace Reader

/-- Before the first token. -/
def start : Reader := ⟨.value, [], none⟩

/-- Puts a complete value where it belongs. -/
def deliver (value : Json) : List Frame → Option Reader
  | [] => some ⟨.nothing, [], some value⟩
  | .array elements :: frames => some ⟨.separator, .array (value :: elements) :: frames, none⟩
  | .member members name :: frames =>
    some ⟨.separator, .object ((name, value) :: members) :: frames, none⟩
  | .object _ :: _ => none

/-- Reads a token that starts a value. -/
def beginValue (frames : List Frame) : Token → Option Reader
  | .openArray => some ⟨.firstElement, .array [] :: frames, none⟩
  | .openObject => some ⟨.firstName, .object [] :: frames, none⟩
  | .null => deliver .null frames
  | .bool value => deliver (.bool value) frames
  | .natural value => deliver (.natural value) frames
  | .number spelling => deliver (.number spelling) frames
  | .string text => deliver (.string text) frames
  | .closeArray | .closeObject | .comma | .colon => none

/-- Reads the end of the innermost container. -/
def close : List Frame → Token → Option Reader
  | .array elements :: frames, .closeArray => deliver (.array elements.reverse) frames
  | .object members :: frames, .closeObject => deliver (.object members.reverse) frames
  | _, _ => none

/-- Reads a name of the innermost object. -/
def beginMember : List Frame → Token → Option Reader
  | .object members :: frames, .string name => some ⟨.colon, .member members name :: frames, none⟩
  | _, _ => none

/-- Reads the comma after a part of the innermost container. -/
def separate : List Frame → Option Reader
  | .array elements :: frames => some ⟨.value, .array elements :: frames, none⟩
  | .object members :: frames => some ⟨.name, .object members :: frames, none⟩
  | _ => none

/-- Reads a token. -/
def read (r : Reader) (token : Token) : Option Reader :=
  match r.expected with
  | .value => beginValue r.frames token
  | .firstElement =>
    match token with
    | .closeArray => close r.frames token
    | _ => beginValue r.frames token
  | .name => beginMember r.frames token
  | .firstName =>
    match token with
    | .closeObject => close r.frames token
    | _ => beginMember r.frames token
  | .colon =>
    match token with
    | .colon => some { r with expected := .value }
    | _ => none
  | .separator =>
    match token with
    | .comma => separate r.frames
    | _ => close r.frames token
  | .nothing => none

end Reader

/-- The value that the parts of a text spell. -/
def ofParts? (text : List Part) : Option Json := do
  let tokens ← Token.ofParts? text
  (← tokens.foldlM Reader.read Reader.start).result

/-- The value that a text holds. -/
def ofText? (text : List Char) : Option Json := ofParts? (text.map .char)

/-- The parts of a text that a run of bytes spells: its characters, or else the
bytes themselves. -/
def partsOfRun (run : List UInt8) : List Part :=
  match Text.Utf8.decode run with
  | .ok text => text.map .char
  | .error _ => run.map .byte

/-- The parts of a text that bytes spell.  A character has one byte below `0x80` or
only bytes from there on, so the runs of these can be read apart. -/
def partsOfBytes (bytes : List UInt8) : List Part :=
  (bytes.splitBy fun a b => 0x80 ≤ a && 0x80 ≤ b).flatMap partsOfRun

/-- The value that bytes hold. -/
def ofBytes? (bytes : List UInt8) : Option Json := ofParts? (partsOfBytes bytes)

end AssocCache.Json

/-!
## Structures in JSON

A structure with fixed fields is written as an object or as an array.  In an
object a field may have several names, of which at most one may be used, and once
only.  Members with other names are ignored.  In an array the fields stand in
their order, and the last ones may be left off.

`Json.fields?` finds the fields, and `Fields.required` and `Fields.optional` read
their values.
-/

namespace AssocCache.Json

/-- The names an object uses, with their values, if all of them are texts. -/
def members? (members : List (Text × Json)) : Option (List (String × Json)) :=
  members.mapM fun (name, value) => do pure (← name.toString?, value)

/-- A field of a structure: the name it goes by, and the other names it may be
given under. -/
structure FieldName where
  name : String
  aliases : List String := []

/-- Whether a field may be given under a name. -/
def FieldName.matches (field : FieldName) (name : String) : Bool :=
  field.name == name || field.aliases.contains name

/-- The fields that are there, by the names they go by. -/
structure Fields where
  present : List (String × Json)

/-- The field among the members of an object, if it is there.  Giving it twice is
an error. -/
def pick? (members : List (String × Json)) (field : FieldName) :
    Option (List (String × Json)) :=
  match members.filter fun member => field.matches member.1 with
  | [] => some []
  | [(_, value)] => some [(field.name, value)]
  | _ => none

/-- The fields of a structure. -/
def fields? (names : List FieldName) : Json → Option Fields
  | .object members => do
    let members ← members? members
    pure ⟨(← names.mapM (pick? members)).flatten⟩
  | .array elements =>
    if elements.length ≤ names.length then some ⟨(names.map FieldName.name).zip elements⟩ else none
  | _ => none

namespace Fields

variable {α : Type}

/-- The value of a field that has to be there. -/
def required (fields : Fields) (name : String) (decode : Json → Option α) : Option α :=
  (fields.present.lookup name).bind decode

/-- The value of a field, or a default if it is not there. -/
def optional (fields : Fields) (name : String) (default : α) (decode : Json → Option α) :
    Option α :=
  match fields.present.lookup name with
  | none => some default
  | some value => decode value

end Fields

/-! ### Values of fields -/

/-- A natural number below a bound. -/
def naturalBelow? (bound : Nat) : Json → Option Nat
  | .natural value => if value < bound then some value else none
  | _ => none

/-- A word of 64 bits. -/
def word64? (value : Json) : Option UInt64 := UInt64.ofNat <$> naturalBelow? (2 ^ (64 : Nat)) value

/-- A word of 32 bits. -/
def word32? (value : Json) : Option UInt32 := UInt32.ofNat <$> naturalBelow? (2 ^ (32 : Nat)) value

/-- A text. -/
def text? : Json → Option String
  | .string text => text.toString?
  | _ => none

/-- A value, or null for its absence. -/
def nullable? {α : Type} (decode : Json → Option α) : Json → Option (Option α)
  | .null => some none
  | value => some <$> decode value

/-- The elements of an array. -/
def list? {α : Type} (decode : Json → Option α) : Json → Option (List α)
  | .array elements => elements.mapM decode
  | _ => none

end AssocCache.Json
