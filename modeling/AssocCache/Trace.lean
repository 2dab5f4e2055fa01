import AssocCache.Block
import AssocCache.Fault
import AssocCache.Numeral
import AssocCache.Text

/-!
# Traces

A trace is a sequence of memory accesses.  There are two written forms of it, one
with records of a fixed width and one with a line of text per access
(`FixedForm` and `TextForm`).
-/

namespace AssocCache

/-- One memory access of a trace. -/
structure TraceRecord where
  address : UInt64
  /-- How many bytes are accessed. -/
  size : UInt16
  kind : AccessKind
  deriving DecidableEq, Repr

/-- Why a trace could not be read. -/
inductive TraceError where
  /-- The line with this number is no record. -/
  | malformed (line : Nat) (text : String)
  /-- The number of bytes leaves a record incomplete. -/
  | partialRecord (length : Nat)
  deriving DecidableEq, Repr

/-- The wording of a reading error. -/
def TraceError.message : TraceError → String
  | .malformed line text => s!"line {line}: malformed trace record `{text}`"
  | .partialRecord length => s!"fixed-width trace length {length} is not a multiple of 40"

end AssocCache

/-!
## Records of a fixed width

Each record takes 40 bytes: a program counter of 16 hexadecimal digits, an address
of 16 hexadecimal digits, `R` or `W`, a decimal size of three digits, a space
between any two of them, and a newline.  Reading checks nothing but the total
length.  A byte that is no digit makes a meaningless record, never a failure.
-/

namespace AssocCache.FixedForm

/-- The bytes of a record. -/
def recordSize : Nat := 40

/-- The value of a hexadecimal digit.  Any other byte counts as zero. -/
def hexDigit (byte : UInt8) : Nat := Numeral.digitValue (Char.ofNat byte.toNat)

/-- The value of hexadecimal digits, the most significant first. -/
def parseAddress (bytes : List UInt8) : Nat :=
  bytes.foldl (fun value byte => 16 * value + hexDigit byte) 0

theorem parseAddress_eq_value (bytes : List UInt8) :
    parseAddress bytes = Numeral.value 16 (bytes.map fun byte => Char.ofNat byte.toNat) := by
  simp [parseAddress, Numeral.value, Numeral.valueFrom, List.foldl_map, hexDigit]

/-- The distance of a byte from the digit zero, in eight bits. -/
def decimalDigit (byte : UInt8) : Nat := (byte - 48).toNat

/-- The value of three decimal digits. -/
def parseSize : List UInt8 → Nat
  | [hundreds, tens, units] =>
    100 * decimalDigit hundreds + 10 * decimalDigit tens + decimalDigit units
  | _ => 0

/-- The bytes of a record from one place up to another. -/
def field (record : List UInt8) (first past : Nat) : List UInt8 :=
  (record.drop first).take (past - first)

/-- Reads a record.  Only the letter `W` makes it a write. -/
def parseRecord (record : List UInt8) : TraceRecord where
  address := UInt64.ofNat (parseAddress (field record 17 33))
  size := UInt16.ofNat (parseSize (field record 36 39))
  kind := if record[34]? = some 87 then .write else .read

/-- The records of bytes whose number is a multiple of the record size, after
some records in reverse order. -/
def recordsFrom (done : List TraceRecord) (bytes : List UInt8) : List TraceRecord :=
  match bytes with
  | [] => done.reverse
  | byte :: rest =>
    recordsFrom (parseRecord ((byte :: rest).take recordSize) :: done)
      ((byte :: rest).drop recordSize)
termination_by bytes.length
decreasing_by
  simp only [List.length_drop, List.length_cons, recordSize]
  omega

/-- Reads the records of a trace. -/
def parse (bytes : List UInt8) : Except TraceError (List TraceRecord) :=
  if bytes.length % recordSize = 0 then .ok (recordsFrom [] bytes)
  else .error (.partialRecord bytes.length)

/-- Writes a record.  Any kind of write is a `W`. -/
def format (programCounter address : UInt64) (kind : AccessKind) (size : UInt16) : List Char :=
  Numeral.hexCapital 16 programCounter.toNat ++ [' '] ++
    Numeral.hexCapital 16 address.toNat ++ [' ', if kind.isWrite then 'W' else 'R', ' '] ++
    Numeral.padded 10 3 size.toNat ++ ['\n']

end AssocCache.FixedForm

/-!
## Records as lines of text

A line holds one record: `R` or `W` in either case, a hexadecimal address of up to
16 digits that may be marked with `0x`, and a decimal size of up to five digits,
with blanks between them.  The size may be missing and is one byte then.  A `#`
starts a comment, and a line with nothing else is skipped.
-/

namespace AssocCache.TextForm

/-- The access kind a letter stands for. -/
def kindOf? (c : Char) : Option AccessKind :=
  if c = 'R' ∨ c = 'r' then some .read
  else if c = 'W' ∨ c = 'w' then some .write
  else none

/-- The text without the mark of a hexadecimal number. -/
def dropMark : List Char → List Char
  | '0' :: 'x' :: rest => rest
  | '0' :: 'X' :: rest => rest
  | text => text

/-- What follows the blanks at the start of a text, if there are any. -/
def afterBlanks? : List Char → Option (List Char)
  | [] => none
  | c :: rest => if Text.isBlank c then some (rest.dropWhile Text.isBlank) else none

/-- The address at the start of a text, and the text after it. -/
def address? (text : List Char) : Option (UInt64 × List Char) :=
  let text := dropMark text
  let digits := text.takeWhile Numeral.isHexDigit
  if digits ≠ [] ∧ digits.length ≤ 16 then
    some (UInt64.ofNat (Numeral.value 16 digits), text.dropWhile Numeral.isHexDigit)
  else
    none

/-- The size that ends a record: one if only blanks are left, or else a number
between blanks. -/
def size? (text : List Char) : Option UInt16 :=
  if text.all Text.isBlank then some 1
  else do
    let text ← afterBlanks? text
    let digits := text.takeWhile Char.isDigit
    if digits ≠ [] ∧ digits.length ≤ 5 ∧ Numeral.value 10 digits < 2 ^ (16 : Nat) ∧
        (text.dropWhile Char.isDigit).all Text.isBlank then
      some (UInt16.ofNat (Numeral.value 10 digits))
    else
      none

/-- The record of a line without its comment. -/
def record? (content : List Char) : Option TraceRecord :=
  match content.dropWhile Text.isBlank with
  | [] => none
  | letter :: rest => do
    let kind ← kindOf? letter
    let rest ← afterBlanks? rest
    let (address, rest) ← address? rest
    let size ← size? rest
    pure { address, size, kind }

/-- A line up to its comment. -/
def content (line : List Char) : List Char := line.takeWhile (· != '#')

/-- Reads the line with a number.  A line without content has no record. -/
def parseLine (number : Nat) (line : List Char) : Except TraceError (Option TraceRecord) :=
  if (content line).all Text.isBlank then .ok none
  else
    match record? (content line) with
    | some record => .ok (some record)
    | none => .error (.malformed number (String.ofList line))

/-- Writes a record, without the end of the line.  Any kind of write is a `W`. -/
def format (record : TraceRecord) : List Char :=
  [if record.kind.isWrite then 'W' else 'R', ' ', '0', 'x'] ++
    Numeral.digits 16 record.address.toNat ++ ' ' :: Numeral.digits 10 record.size.toNat

end AssocCache.TextForm

/-!
## Access patterns

Sequences of addresses that bring out how policies differ: lines that all map to
one set, a scan that comes round again, and a small hot set mixed with a scan that
never repeats.  Addresses are words of 64 bits, and a pattern that would leave
them is a fault, as is one that is too long for a table.
-/

namespace AssocCache

/-- A sequence of addresses. -/
inductive Pattern where
  /-- So many lines, at a distance that keeps them in one set. -/
  | sameSet (base count setStride : Nat)
  /-- A scan over neighbouring lines, repeated. -/
  | cyclicScan (base lines blockSize repeats : Nat)
  /-- Every `hotEvery`-th access goes to one of the hot lines, and the others go
  on and on. -/
  | hotSetWithScan (hotLines scanBase blockSize hotEvery total : Nat)
  | listed (addresses : List Nat)
  deriving DecidableEq, Repr

namespace Pattern

/-- The address of a line at some steps from a base. -/
def stepAddress (base step index : Nat) : Except Fault Nat := do
  Word.add 64 base (← Word.mul 64 index step)

/-- The accesses of a hot set mixed with a scan, from number `index` on, when the
scan has gone through some lines. -/
def mixed (hotLines scanBase blockSize hotEvery : Nat) :
    Nat → Nat → Nat → List Nat → Except Fault (List Nat)
  | 0, _, _, addresses => .ok addresses.reverse
  | left + 1, index, scanned, addresses => do
    if (← Word.remainder index hotEvery) = 0 then
      let line ← Word.remainder (index / hotEvery) hotLines
      let address ← Word.mul 64 line blockSize
      mixed hotLines scanBase blockSize hotEvery left (index + 1) scanned (address :: addresses)
    else
      let scanned ← Word.add 64 scanned 1
      let address ← stepAddress scanBase blockSize scanned
      mixed hotLines scanBase blockSize hotEvery left (index + 1) scanned (address :: addresses)

/-- The bytes of an address in a table. -/
def addressBytes : Nat := 8

/-- The addresses of a pattern. -/
def addresses : Pattern → Except Fault (List Nat)
  | .sameSet base count setStride => do
    checkTable addressBytes count
    (List.range count).mapM (stepAddress base setStride)
  | .cyclicScan base lines blockSize repeats => do
    checkTable addressBytes lines
    let pass ← (List.range lines).mapM (stepAddress base blockSize)
    let total ← Word.mul 64 lines repeats
    checkTable addressBytes total
    if total = 0 then pure [] else pure (List.replicate repeats pass).flatten
  | .hotSetWithScan hotLines scanBase blockSize hotEvery total => do
    checkTable addressBytes total
    mixed hotLines scanBase blockSize hotEvery total 0 0 []
  | .listed addresses => .ok addresses

end Pattern

end AssocCache
