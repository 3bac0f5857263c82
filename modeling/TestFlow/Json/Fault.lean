import TestFlow.Json.Basic
import TestFlow.Text.Inspected

/-!
# What can be wrong with a JSON text

A text can be of the wrong shape or have a fault in its syntax.  Both are told with their wording,
and for a text that is read also with their place.

Reference: specification, §7 (`P001`, a text that cannot be read).

## Main definitions

* `Mismatch`, `Mismatch.message` — what can be wrong with the shape of a value, and its wording;
* `Cause`, `Cause.message` — what can be wrong with a text, and its wording;
* `Fault.here`, `Fault.ahead` — the two ways to place a fault;
* `ReadError` — a cause with its line and column.
-/

namespace TestFlow.Json

/-!
## Values of the wrong shape

A record is read from an object, field by field, or from an array, item by item.  `Mismatch` lists
what can be wrong with the shape of what is found there, apart from the syntax of the text, and
`Mismatch.message` gives the wording of each.
-/

/-- What kind of value was found, with its content as far as a message tells it. -/
inductive Found where
  | null
  | boolean (value : Bool)
  | number (value : Number)
  | text (value : String)
  | sequence
  | map

def found : Json → Found
  | .null => .null
  | .bool b => .boolean b
  | .number n => .number n
  | .string s => .text s
  | .array _ => .sequence
  | .object _ => .map

def boolText (b : Bool) : String :=
  if b then "true" else "false"

/-- How a message names what was found. -/
def Found.message : Found → String
  | .null => "null"
  | .boolean b => "boolean `" ++ boolText b ++ "`"
  | .number (.integer i _) => "integer `" ++ String.ofList (Number.integerText i) ++ "`"
  | .number (.float x) => "floating point `" ++ String.ofList (Decimal.floatText x) ++ "`"
  | .text s => "string " ++ Text.inspected s
  | .sequence => "sequence"
  | .map => "map"

/-- What kind of value was asked for. -/
inductive Wanted where
  | record (name : String)
  | sequence
  | text
  | choice
  | unit

/-- How a message names what was asked for. -/
def Wanted.message : Wanted → String
  | .record name => "struct " ++ name
  | .sequence => "a sequence"
  | .text => "a string"
  | .choice => "string or map"
  | .unit => "unit"

/-- What is wrong with the shape of a value. -/
inductive Mismatch where
  /-- Another kind of value was asked for. -/
  | wrongType (found : Found) (wanted : Wanted)
  /-- An object lacks a field that has no default. -/
  | missingField (name : String)
  /-- An object has a field twice, under one name or two. -/
  | duplicateField (name : String)
  /-- An array ends before an item that has no default. -/
  | tooFewItems (count : Nat) (record : String) (size : Nat)
  /-- An array goes on after the last field. -/
  | tooManyItems (count : Nat)
  /-- A name is none of those to choose from. -/
  | unknownChoice (name : String) (choices : List String)
  /-- A choice is written as an object with no key or several. -/
  | notOneKey

/-- A name in backquotes. -/
def ticked (name : String) : String :=
  "`" ++ name ++ "`"

/-- How a message names the choices there are. -/
def choicesMessage : List String → String
  | [] => "there are no variants"
  | [a] => "expected " ++ ticked a
  | [a, b] => "expected " ++ ticked a ++ " or " ++ ticked b
  | choices => "expected one of " ++ ", ".intercalate (choices.map ticked)

def Mismatch.message : Mismatch → String
  | .wrongType found wanted =>
    "invalid type: " ++ found.message ++ ", expected " ++ wanted.message
  | .missingField name => "missing field " ++ ticked name
  | .duplicateField name => "duplicate field " ++ ticked name
  | .tooFewItems count record size =>
    "invalid length " ++ count.repr ++ ", expected struct " ++ record ++ " with " ++ size.repr
      ++ " elements"
  | .tooManyItems count =>
    "invalid length " ++ count.repr ++ ", expected fewer elements in array"
  | .unknownChoice name choices =>
    "unknown variant " ++ ticked name ++ ", " ++ choicesMessage choices
  | .notOneKey => "invalid value: map, expected map with a single key"

/-!
## Faults in a JSON text

Reading stops at the first fault.  A fault says what is wrong and where: either *here*, behind what
has been read, or *ahead*, one byte further, at the byte that was looked at and refused.  While
reading, the place is kept as the number of bytes left behind it, so that a fault needs no knowledge
of the text before it.  `Fault.locate` turns this number into a line and a column.  Lines are
counted from one.  Columns count bytes, so that the column is the number of bytes between the last
line feed and the fault.
-/

/-- What can be wrong with a text. -/
inductive Cause where
  /-- The text ends where a value is due. -/
  | endInValue
  /-- The text ends inside a string. -/
  | endInString
  /-- The text ends inside an array. -/
  | endInArray
  /-- The text ends inside an object. -/
  | endInObject
  /-- No value starts with the character found. -/
  | notAValue
  /-- One of the words for null and the truth values is misspelt. -/
  | misspeltWord
  /-- A key is not followed by a colon. -/
  | noColon
  /-- An item is followed by neither a comma nor the end of the array. -/
  | noItemEnd
  /-- A field is followed by neither a comma nor the end of the object. -/
  | noFieldEnd
  /-- A comma is followed by the closing bracket. -/
  | trailingComma
  /-- Something follows where nothing may. -/
  | trailingCharacters
  /-- A key does not start with a quote. -/
  | keyNotString
  /-- Too many brackets are open. -/
  | tooDeep
  /-- A number is misspelt. -/
  | invalidNumber
  /-- A number is too large. -/
  | numberOutOfRange
  /-- A backslash is not followed by an escape. -/
  | invalidEscape
  /-- One half of a surrogate pair stands without the other. -/
  | loneSurrogate
  /-- The first half of a surrogate pair is not followed by an escape. -/
  | unfinishedSurrogate
  /-- A control character stands unescaped in a string. -/
  | controlCharacter
  /-- The text is well formed so far, but not of the shape asked for. -/
  | mismatch (m : Mismatch)

def Cause.message : Cause → String
  | .endInValue => "EOF while parsing a value"
  | .endInString => "EOF while parsing a string"
  | .endInArray => "EOF while parsing a list"
  | .endInObject => "EOF while parsing an object"
  | .notAValue => "expected value"
  | .misspeltWord => "expected ident"
  | .noColon => "expected `:`"
  | .noItemEnd => "expected `,` or `]`"
  | .noFieldEnd => "expected `,` or `\x7d`"
  | .trailingComma => "trailing comma"
  | .trailingCharacters => "trailing characters"
  | .keyNotString => "key must be a string"
  | .tooDeep => "recursion limit exceeded"
  | .invalidNumber => "invalid number"
  | .numberOutOfRange => "number out of range"
  | .invalidEscape => "invalid escape"
  | .loneSurrogate => "lone leading surrogate in hex escape"
  | .unfinishedSurrogate => "unexpected end of hex escape"
  | .controlCharacter => "control character (\\u0000-\\u001F) found while parsing a string"
  | .mismatch m => m.message

/-- The number of bytes that characters take in UTF-8. -/
def byteCount (cs : List Char) : Nat :=
  cs.foldl (fun count c => count + c.utf8Size) 0

/-- A cause and the number of bytes of the text that are left behind its place. -/
structure Fault where
  cause : Cause
  left : Nat

namespace Fault

/-- A fault behind all that has been read, where `rest` is what has not. -/
def here (cause : Cause) (rest : List Char) : Fault :=
  ⟨cause, byteCount rest⟩

/-- A fault `count` bytes into what has not been read, or at its end if it is shorter. -/
def past (count : Nat) (cause : Cause) (rest : List Char) : Fault :=
  ⟨cause, byteCount rest - count⟩

/-- A fault at the next byte, or at the end of the text if there is none. -/
def ahead (cause : Cause) (rest : List Char) : Fault :=
  past 1 cause rest

end Fault

/-- A cause and the line and column of its place. -/
structure ReadError where
  cause : Cause
  line : Nat
  column : Nat

def ReadError.message (e : ReadError) : String :=
  e.cause.message ++ " at line " ++ e.line.repr ++ " column " ++ e.column.repr

/-- The line and column that lie `offset` bytes behind the given ones. -/
def advance (line column : Nat) : (offset : Nat) → List Char → Nat × Nat
  | offset, [] => (line, column + offset)
  | offset, c :: rest =>
    -- a place may lie inside a character of several bytes
    if offset < c.utf8Size then (line, column + offset)
    else if c = '\n' then advance (line + 1) 0 (offset - c.utf8Size) rest
    else advance line (column + c.utf8Size) (offset - c.utf8Size) rest

/-- The place of a fault in the whole text. -/
def Fault.locate (fault : Fault) (text : List Char) : ReadError :=
  let place := advance 1 0 (byteCount text - fault.left) text
  ⟨fault.cause, place.1, place.2⟩

end TestFlow.Json
