import TestFlow.Json.Reader.Values

/-!
# Records read from a text

A record is read straight from its text, so that a wrong shape is found with its place, before any
fault further on.  The fields that nobody asked for are skipped.

Reference: specification, §3 (the fields of nodes and connections) and §6 (input).

## Main definitions

* `skip` — passes over a value;
* `Field`, `Layout` — the declaration of a record;
* `record` — the reader;
* `text`, `optional`, `sequence` — readers for the values of fields.
-/

namespace TestFlow.Json.Reader

/-!
## Skipped values

The value of a field that nobody asked for is passed over.  Skipping checks less than reading:
brackets may be open to any depth, a numeral may be of any size, and the halves of a surrogate pair
need not match.  The open brackets are kept in a list, the innermost first, so that the depth of the
value costs nothing but that list.
-/

/-- A numeral behind its minus sign, if it has one. -/
def skipNumeral (cs : List Char) : Except Fault (List Char) :=
  match cs.takeWhile Char.isDigit with
  | [] => .error (.ahead .invalidNumber cs)
  | '0' :: _ :: _ => .error (.ahead .invalidNumber (cs.drop 1))
  | _ => do
    let rest ← skipFraction (cs.dropWhile Char.isDigit)
    skipExponent rest
where
  /-- The point of a numeral and the digits behind it, if there is a point. -/
  skipFraction : List Char → Except Fault (List Char)
    | '.' :: rest =>
      if (rest.takeWhile Char.isDigit).isEmpty then .error (.ahead .invalidNumber rest)
      else .ok (rest.dropWhile Char.isDigit)
    | rest => .ok rest
  /-- The exponent of a numeral, if there is one. -/
  skipExponent : List Char → Except Fault (List Char)
    | [] => .ok []
    | c :: rest =>
      if c = 'e' ∨ c = 'E' then
        let rest := (exponentSign rest).2
        if (rest.takeWhile Char.isDigit).isEmpty then .error (.ahead .invalidNumber rest)
        else .ok (rest.dropWhile Char.isDigit)
      else .ok (c :: rest)

/-- The number of characters that an escape takes behind its backslash. -/
def skipEscape : List Char → Except Fault Nat
  | [] => .error (.here .endInString [])
  | 'u' :: rest => do
    let _ ← unit rest
    .ok 5
  | c :: rest =>
    if (escapeChar? c).isSome then .ok 1 else .error (.ahead .invalidEscape (c :: rest))

/-- A string up to its closing quote.  The first `skip` characters of the text belong to an escape
that has been passed over. -/
def skipQuotedFrom : (skip : Nat) → List Char → Except Fault (List Char)
  | _, [] => .error (.here .endInString [])
  | skip + 1, _ :: rest => skipQuotedFrom skip rest
  | 0, c :: rest =>
    if c = '"' then .ok rest
    else if c = '\\' then
      match skipEscape rest with
      | .ok length => skipQuotedFrom length rest
      | .error fault => .error fault
    else if isControl c then .error (.here .controlCharacter (c :: rest))
    else skipQuotedFrom 0 rest

/-- A string behind its opening quote. -/
def skipQuoted : List Char → Except Fault (List Char) :=
  skipQuotedFrom 0

/-- A value without brackets, at its first character. -/
def skipScalar : List Char → Except Fault (List Char)
  | [] => .error (.ahead .endInValue [])
  | 'n' :: rest => word ['u', 'l', 'l'] rest
  | 't' :: rest => word ['r', 'u', 'e'] rest
  | 'f' :: rest => word ['a', 'l', 's', 'e'] rest
  | '"' :: rest => skipQuoted rest
  | '-' :: rest => skipNumeral rest
  | c :: rest =>
    if c.isDigit then skipNumeral (c :: rest) else .error (.ahead .notAValue (c :: rest))

inductive Bracket where
  | array
  | object
  deriving DecidableEq, Repr

/-- The character that closes a bracket. -/
def Bracket.closer : Bracket → Char
  | .array => ']'
  | .object => '}'

/-- The fault of a text that ends inside the bracket. -/
def Bracket.atEnd : Bracket → Cause
  | .array => .endInArray
  | .object => .endInObject

/-- The fault of a value that is followed by neither a comma nor the end of the bracket. -/
def Bracket.noEnd : Bracket → Cause
  | .array => .noItemEnd
  | .object => .noFieldEnd

/-- Goes on to the next value inside a bracket: in an object, past its key and the colon. -/
def Bracket.toValue (bracket : Bracket) (cs : List Char) : Except Fault (List Char) :=
  match bracket with
  | .array => .ok cs
  | .object =>
    match skipSpace cs with
    | [] => .error (.ahead .endInObject [])
    | '"' :: rest => do
      let rest ← skipQuoted rest
      colon rest
    | rest => .error (.ahead .keyNotString rest)

/-- Where skipping stands. -/
inductive Place where
  /-- Before a value. -/
  | value
  /-- Behind an opening bracket. -/
  | opened
  /-- Behind a value. -/
  | closed
  deriving DecidableEq, Repr

/-- Passes over a value and the rest of the brackets that are open around it. -/
def skipFrom : (fuel : Nat) → Place → List Bracket → List Char → Except Fault (List Char)
  | 0, _, _, cs => .error (.ahead .endInValue cs)
  | fuel + 1, .value, brackets, cs =>
    match skipSpace cs with
    | '[' :: rest => skipFrom fuel .opened (.array :: brackets) rest
    | '{' :: rest => skipFrom fuel .opened (.object :: brackets) rest
    | rest => do
      let rest ← skipScalar rest
      skipFrom fuel .closed brackets rest
  -- behind a value with no bracket open, the value is complete
  | _ + 1, _, [], cs => .ok cs
  | fuel + 1, place, bracket :: brackets, cs =>
    match skipSpace cs with
    | [] => .error (.ahead bracket.atEnd [])
    | c :: rest =>
      if c = bracket.closer then skipFrom fuel .closed brackets rest
      else if place = .opened then do
        let rest ← bracket.toValue (c :: rest)
        skipFrom fuel .value (bracket :: brackets) rest
      else if c = ',' then do
        let rest ← bracket.toValue rest
        skipFrom fuel .value (bracket :: brackets) rest
      else .error (.ahead bracket.noEnd (c :: rest))

/-- Passes over a value.  Of any two steps one goes past a character at least. -/
def skip (fuel : Nat) : List Char → Except Fault (List Char) :=
  skipFrom (2 * fuel + 3) .value []

/-!
## Fields in any order

A record is written as an object, whose fields come in any order and whose unknown fields are
skipped, or as an array, whose items are the fields in their declared order.  A field that is not
required may be missing and keeps the value that the empty record has.

A field that is missing is found missing behind the closing bracket.  A field that comes twice is
refused behind its second key and the space after that, and behind the closing brace if it follows
there, so that `{"a":1,"a"}` is refused at its end.
-/

/-- The fault of a value of another kind than asked for.  A value without brackets is read first,
and any fault in it comes before. -/
def refuse (wanted : Wanted) (cs : List Char) : Fault :=
  match skipSpace cs with
  | '[' :: rest => .here (.mismatch (.wrongType .sequence wanted)) ('[' :: rest)
  | '{' :: rest => .here (.mismatch (.wrongType .map wanted)) ('{' :: rest)
  | rest =>
    match scalar rest with
    | .ok (v, rest) => .here (.mismatch (.wrongType v.found wanted)) rest
    | .error fault => fault

def text : Reader String := fun cs =>
  match skipSpace cs with
  | '"' :: rest => quoted rest
  | rest => .error (refuse .text rest)

/-- A value that may be null instead. -/
def optional {α : Type} (reader : Reader α) : Reader (Option α) := fun cs =>
  match skipSpace cs with
  | 'n' :: rest => do
    let rest ← word ['u', 'l', 'l'] rest
    .ok (none, rest)
  | rest => do
    let (a, rest) ← reader rest
    .ok (some a, rest)

/-- An array of values of one kind. -/
def sequence {α : Type} (fuel : Nat) (item : Reader α) : Reader (List α) := fun cs =>
  match skipSpace cs with
  | '[' :: rest => items fuel item rest
  | rest => .error (refuse .sequence rest)

/-- A field of a record: its name, whether it must be present, and what reading it does to the
record. -/
structure Field (σ : Type) where
  name : String
  required : Bool
  read : σ → Reader σ

/-- A field whose value is put into the record as it is. -/
def Field.of {σ α : Type} (name : String) (required : Bool) (reader : Reader α)
    (put : α → σ → σ) : Field σ where
  name := name
  required := required
  read state cs := do
    let (a, rest) ← reader cs
    .ok (put a state, rest)

/-- A kind of record: its name, the record without any field, and its fields in order. -/
structure Layout (σ : Type) where
  name : String
  empty : σ
  fields : List (Field σ)

/-- Reads the items of an array into the fields of a record, one each, and counts them. -/
def positional {σ : Type} : List (Field σ) → (count : Nat) → σ → Reader (σ × Nat)
  | [], count, state, cs => .ok ((state, count), cs)
  | field :: rest, count, state, cs => do
    let (more, cs) ← nextItem (count == 0) cs
    if more then do
      let (state, cs) ← field.read state cs
      positional rest (count + 1) state cs
    else .ok ((state, count), cs)

/-- The end of an array whose items have all been read. -/
def closeArray (cs : List Char) : Except Fault (List Char) :=
  match skipSpace cs with
  | [] => .error (.ahead .endInArray [])
  | ']' :: rest => .ok rest
  | ',' :: rest =>
    match skipSpace rest with
    | ']' :: rest => .error (.ahead .trailingComma (']' :: rest))
    | rest => .error (.ahead .trailingCharacters rest)
  | rest => .error (.ahead .trailingCharacters rest)

/-- The place behind the space that follows, and behind the brace if one closes the object there. -/
def pastBrace (cs : List Char) : List Char :=
  match skipSpace cs with
  | '}' :: rest => rest
  | rest => rest

/-- Reads the value behind a key into the record, which comes with the names of the fields read
before. -/
def keyed {σ : Type} (fuel : Nat) (fields : List (Field σ)) (key : String)
    (read : σ × List String) : Reader (σ × List String) := fun cs =>
  match fields.find? fun field => field.name = key with
  | none => do
    -- the value of an unknown key is passed over, so not even its depth is limited
    let rest ← colon cs
    let rest ← skip fuel rest
    .ok (read, rest)
  | some field =>
    if field.name ∈ read.2 then
      .error (.here (.mismatch (.duplicateField field.name)) (pastBrace cs))
    else do
      let rest ← colon cs
      let (state, rest) ← field.read read.1 rest
      .ok ((state, field.name :: read.2), rest)

def record {σ : Type} (fuel : Nat) (layout : Layout σ) : Reader σ := fun cs =>
  match skipSpace cs with
  | '[' :: rest => do
    let ((state, count), rest) ← positional layout.fields 0 layout.empty rest
    let rest ← closeArray rest
    match (layout.fields.drop count).findIdx? fun field => field.required with
    | none => .ok (state, rest)
    | some i =>
      .error (.here
        (.mismatch (.tooFewItems (count + i) layout.name layout.fields.length)) rest)
  | '{' :: rest => do
    let ((state, names), rest) ← fields fuel (keyed fuel layout.fields) (layout.empty, []) rest
    match layout.fields.find? fun field => field.required && !names.contains field.name with
    | none => .ok (state, rest)
    | some field => .error (.here (.mismatch (.missingField field.name)) rest)
  | rest => .error (refuse (.record layout.name) rest)

end TestFlow.Json.Reader
