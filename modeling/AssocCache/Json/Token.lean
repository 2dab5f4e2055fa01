import AssocCache.Json
import AssocCache.Numeral

/-!
# Tokens of JSON

`Token.ofParts?` cuts a text into tokens.  The text is read part by part, where a
part that is no character can only stand in a string.  Between tokens there may be
the four blanks of JSON.  A word is a run of letters, digits, signs and points, and
must be a literal or a number.  A string ends at the first quote that no backslash
precedes, and holds no control character.  Its escapes are resolved as they are
read.
-/

namespace AssocCache.Json

/-- A token of JSON. -/
inductive Token where
  | openArray
  | closeArray
  | openObject
  | closeObject
  | comma
  | colon
  | null
  | bool (value : Bool)
  | natural (value : Nat)
  | number (spelling : List Char)
  | string (text : Text)

namespace Token

/-! ## Strings -/

/-- The character of a short escape. -/
def shortEscape? : Char → Option Char
  | '"' => some '"'
  | '\\' => some '\\'
  | '/' => some '/'
  | 'b' => some '\x08'
  | 'f' => some '\x0c'
  | 'n' => some '\n'
  | 'r' => some '\r'
  | 't' => some '\t'
  | _ => none

/-- Whether a UTF-16 unit is a surrogate. -/
def isSurrogate (unit : Nat) : Bool := 0xd800 ≤ unit && unit < 0xe000

/-- The part that a UTF-16 unit stands for by itself. -/
def partOfUnit (unit : Nat) : Part :=
  if isSurrogate unit then .surrogate unit else .char (Char.ofNat unit)

/-- Puts a part after others, which are in reverse order.  A high surrogate and a
low one after it make a character. -/
def joinPart (done : List Part) (part : Part) : List Part :=
  match done, part with
  | .surrogate high :: rest, .surrogate low =>
    if high < 0xdc00 ∧ 0xdc00 ≤ low then
      .char (Char.ofNat (0x10000 + (high - 0xd800) * 0x400 + (low - 0xdc00))) :: rest
    else
      part :: done
  | _, _ => part :: done

/-! ## Numbers -/

/-- What follows the digits at the start of a text, if there are any. -/
def afterDigits? (text : List Char) : Option (List Char) :=
  if text.takeWhile Char.isDigit = [] then none else some (text.dropWhile Char.isDigit)

/-- What follows a whole number at the start of a text.  It has no needless
zero. -/
def afterWhole? : List Char → Option (List Char)
  | '0' :: rest => if rest.head?.any Char.isDigit then none else some rest
  | text => afterDigits? text

/-- What follows the fraction at the start of a text, which may be missing. -/
def afterFraction? : List Char → Option (List Char)
  | '.' :: rest => afterDigits? rest
  | text => some text

/-- The text without the sign it may start with. -/
def dropSign : List Char → List Char
  | '+' :: rest => rest
  | '-' :: rest => rest
  | text => text

/-- What follows the exponent at the start of a text, which may be missing. -/
def afterExponent? : List Char → Option (List Char)
  | 'e' :: rest => afterDigits? (dropSign rest)
  | 'E' :: rest => afterDigits? (dropSign rest)
  | text => some text

/-- Whether a word is the part of a number that follows the sign. -/
def isUnsigned (word : List Char) : Bool :=
  ((afterWhole? word).bind fun rest => (afterFraction? rest).bind afterExponent?) == some []

/-- The token of a number. -/
def ofNumber? : List Char → Option Token
  | '-' :: word => if isUnsigned word then some (.number ('-' :: word)) else none
  | word =>
    if isUnsigned word then
      if word.all Char.isDigit then some (.natural (Numeral.value 10 word)) else some (.number word)
    else
      none

/-! ## Texts -/

/-- The token of a word. -/
def ofWord? (word : List Char) : Option Token :=
  if word = ['n', 'u', 'l', 'l'] then some .null
  else if word = ['t', 'r', 'u', 'e'] then some (.bool true)
  else if word = ['f', 'a', 'l', 's', 'e'] then some (.bool false)
  else ofNumber? word

/-- The token of a character that stands for itself. -/
def ofMark? : Char → Option Token
  | '[' => some .openArray
  | ']' => some .closeArray
  | '\x7b' => some .openObject
  | '\x7d' => some .closeObject
  | ',' => some .comma
  | ':' => some .colon
  | _ => none

/-- Whether a character separates tokens. -/
def isBlank (c : Char) : Bool := c == ' ' || c == '\t' || c == '\n' || c == '\r'

/-- Whether a character can be part of a word. -/
def isWordChar (c : Char) : Bool :=
  c.isAlphanum || c == '+' || c == '-' || c == '.'

/-- Where a reader of tokens stands. -/
inductive Place where
  | between
  /-- In a word, whose characters so far are in reverse order. -/
  | word (reversed : List Char)
  /-- In a string, whose parts so far are in reverse order. -/
  | quoted (done : List Part)
  /-- In a string, after a backslash. -/
  | escape (done : List Part)
  /-- In a string, within an escape that names a UTF-16 unit by four digits. -/
  | unit (done : List Part) (reversed : List Char)

/-- A reader of tokens: its place, and the tokens so far in reverse order. -/
structure Scan where
  place : Place
  tokens : List Token

/-- Reads a character that starts something new. -/
def Scan.begin (tokens : List Token) (c : Char) : Option Scan :=
  if isBlank c then some ⟨.between, tokens⟩
  else if c = '"' then some ⟨.quoted [], tokens⟩
  else if isWordChar c then some ⟨.word [c], tokens⟩
  else (ofMark? c).map fun token => ⟨.between, token :: tokens⟩

/-- Reads a character of a string, after some parts in reverse order. -/
def Scan.readQuoted (tokens : List Token) (done : List Part) (c : Char) : Option Scan :=
  if c.toNat < 0x20 then none
  else if c = '"' then some ⟨.between, .string ⟨done.reverse⟩ :: tokens⟩
  else if c = '\\' then some ⟨.escape done, tokens⟩
  else some ⟨.quoted (.char c :: done), tokens⟩

/-- Reads the character after a backslash. -/
def Scan.readEscape (tokens : List Token) (done : List Part) (c : Char) : Option Scan :=
  if c = 'u' then some ⟨.unit done [], tokens⟩
  else (shortEscape? c).map fun c => ⟨.quoted (.char c :: done), tokens⟩

/-- Reads a digit of an escape, after some digits in reverse order. -/
def Scan.readDigit (tokens : List Token) (done : List Part) (reversed : List Char) (c : Char) :
    Option Scan :=
  let digits := c :: reversed
  if !Numeral.isHexDigit c then none
  else if digits.length < 4 then some ⟨.unit done digits, tokens⟩
  else
    some ⟨.quoted (joinPart done (partOfUnit (Numeral.value 16 digits.reverse))), tokens⟩

/-- Reads a character. -/
def Scan.readChar (scan : Scan) (c : Char) : Option Scan :=
  match scan.place with
  | .between => Scan.begin scan.tokens c
  | .word reversed =>
    if isWordChar c then some { scan with place := .word (c :: reversed) }
    else do Scan.begin ((← ofWord? reversed.reverse) :: scan.tokens) c
  | .quoted done => Scan.readQuoted scan.tokens done c
  | .escape done => Scan.readEscape scan.tokens done c
  | .unit done reversed => Scan.readDigit scan.tokens done reversed c

/-- Reads a part of a text. -/
def Scan.read (scan : Scan) (part : Part) : Option Scan :=
  match part, scan.place with
  | .char c, _ => scan.readChar c
  | part, .quoted done => some { scan with place := .quoted (part :: done) }
  | _, _ => none

/-- The tokens at the end of a text. -/
def Scan.finish (scan : Scan) : Option (List Token) :=
  match scan.place with
  | .between => some scan.tokens.reverse
  | .word reversed => do pure ((← ofWord? reversed.reverse) :: scan.tokens).reverse
  | .quoted _ | .escape _ | .unit _ _ => none

/-- The tokens of a text. -/
def ofParts? (text : List Part) : Option (List Token) := do
  (← text.foldlM Scan.read ⟨.between, []⟩).finish

end Token

end AssocCache.Json
