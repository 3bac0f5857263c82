import TestFlow.Json.Reader.Scalars

/-!
# Readers of arrays, objects and values

A value is read from a text of its own, or as the payload of a node from inside the text of a flow.

Reference: specification, §3.2 (lists, bodies and schemas given as JSON text) and §6 (input).

## Main definitions

* `nextItem`, `nextKey` — go to the next item or behind the next key, if there is one;
* `items` — an array behind its opening bracket, with a reader for each item;
* `fields` — an object behind its opening brace, with a reader for what follows each key, which
  carries a state from field to field;
* `value`, `Json.parse` — a value, and a text that is one.
-/

namespace TestFlow.Json.Reader

/-!
## Items of an array and fields of an object

An array and an object are read by one loop each, whatever is done with their items and fields.
Items and fields are divided by commas, and no comma may stand before the closing bracket.
-/

/-- Goes to the next item of an array, past the comma unless it is the first.  The answer is whether
there is an item, and the text from the item or from the closing bracket on. -/
def nextItem (first : Bool) : Reader Bool := fun cs =>
  match skipSpace cs with
  | [] => .error (.ahead .endInArray [])
  | ']' :: rest => .ok (false, ']' :: rest)
  | c :: rest =>
    if first then .ok (true, c :: rest)
    else if c = ',' then
      match skipSpace rest with
      | [] => .error (.ahead .endInValue [])
      | ']' :: rest => .error (.ahead .trailingComma (']' :: rest))
      | rest => .ok (true, rest)
    else .error (.ahead .noItemEnd (c :: rest))

/-- The items of an array behind those in `read`, the last of which comes first. -/
def itemsFrom {α : Type} (item : Reader α) :
    (fuel : Nat) → (first : Bool) → (read : List α) → Reader (List α)
  | 0, _, _, cs => .error (.ahead .endInArray cs)
  | fuel + 1, first, read, cs => do
    let (more, rest) ← nextItem first cs
    if more then do
      let (a, rest) ← item rest
      itemsFrom item fuel false (a :: read) rest
    else .ok (read.reverse, rest.drop 1)

/-- An array behind its opening bracket, with `fuel` items at most. -/
def items {α : Type} (fuel : Nat) (item : Reader α) : Reader (List α) :=
  itemsFrom item (fuel + 1) true []

/-- Reads the next key of an object, past the comma unless it is the first.  If there is none, the
text goes on with the closing brace. -/
def nextKey (first : Bool) : Reader (Option String) := fun cs =>
  match skipSpace cs with
  | [] => .error (.ahead .endInObject [])
  | '}' :: rest => .ok (none, '}' :: rest)
  | c :: rest =>
    if first then
      if c = '"' then do
        let (key, rest) ← quoted rest
        .ok (some key, rest)
      else .error (.ahead .keyNotString (c :: rest))
    else if c = ',' then
      match skipSpace rest with
      | [] => .error (.ahead .endInValue [])
      | '"' :: rest => do
        let (key, rest) ← quoted rest
        .ok (some key, rest)
      | '}' :: rest => .error (.ahead .trailingComma ('}' :: rest))
      | rest => .error (.ahead .keyNotString rest)
    else .error (.ahead .noFieldEnd (c :: rest))

/-- The colon behind a key. -/
def colon (cs : List Char) : Except Fault (List Char) :=
  match skipSpace cs with
  | [] => .error (.ahead .endInObject [])
  | ':' :: rest => .ok rest
  | rest => .error (.ahead .noColon rest)

/-- The fields of an object behind those that led to `state`. -/
def fieldsFrom {σ : Type} (field : String → σ → Reader σ) :
    (fuel : Nat) → (first : Bool) → (state : σ) → Reader σ
  | 0, _, _, cs => .error (.ahead .endInObject cs)
  | fuel + 1, first, state, cs => do
    let (key, rest) ← nextKey first cs
    match key with
    | some key => do
      let (state, rest) ← field key state rest
      fieldsFrom field fuel false state rest
    | none => .ok (state, rest.drop 1)

/-- An object behind its opening brace, with `fuel` fields at most. -/
def fields {σ : Type} (fuel : Nat) (field : String → σ → Reader σ) (state : σ) : Reader σ :=
  fieldsFrom field (fuel + 1) true state

end TestFlow.Json.Reader

namespace TestFlow.Json

/-!
## Values

A value is a word, a numeral, a string, an array or an object.  At most `depthLimit` brackets may be
open at a time, which bounds the recursion: a value inside brackets is read with one bracket less to
open.  An object that has a key twice keeps the place of the first and the value of the last.
-/

namespace Reader

/-- A value without brackets, at its first character. -/
def scalar : Reader Json
  | [] => .error (.ahead .endInValue [])
  | 'n' :: rest => do
    let rest ← word ['u', 'l', 'l'] rest
    .ok (.null, rest)
  | 't' :: rest => do
    let rest ← word ['r', 'u', 'e'] rest
    .ok (.bool true, rest)
  | 'f' :: rest => do
    let rest ← word ['a', 'l', 's', 'e'] rest
    .ok (.bool false, rest)
  | '"' :: rest => do
    let (s, rest) ← quoted rest
    .ok (.string s, rest)
  | '-' :: rest => do
    let (n, rest) ← numeral true rest
    .ok (.number n, rest)
  | c :: rest =>
    if c.isDigit then do
      let (n, rest) ← numeral false (c :: rest)
      .ok (.number n, rest)
    else .error (.ahead .notAValue (c :: rest))

/-- Behind a key, adds a field to those read before it. -/
def valueField (inner : Reader Json) (key : String) (read : List (String × Json)) :
    Reader (List (String × Json)) := fun cs => do
  let rest ← colon cs
  let (v, rest) ← inner rest
  .ok (Fields.insert key v read, rest)

/-- A value, with the reader for the values inside its brackets, if brackets may be opened. -/
def valueAround (fuel : Nat) (inner : Option (Reader Json)) : Reader Json := fun cs =>
  match skipSpace cs with
  | '[' :: rest =>
    match inner with
    -- the last bracket that could be opened is open already
    | none => .error (.ahead .tooDeep ('[' :: rest))
    | some inner => do
      let (vs, rest) ← items fuel inner rest
      .ok (.array vs, rest)
  | '{' :: rest =>
    match inner with
    | none => .error (.ahead .tooDeep ('{' :: rest))
    | some inner => do
      let (fs, rest) ← fields fuel (valueField inner) [] rest
      .ok (.object fs, rest)
  | rest => scalar rest

/-- A value in which at most `depth` brackets are open at a time. -/
def value (fuel : Nat) : (depth : Nat) → Reader Json
  | 0 => valueAround fuel none
  | depth + 1 => valueAround fuel (some (value fuel depth))

end Reader

/-- The number of brackets that may be open at a time. -/
def depthLimit : Nat := 127

/-- Reads a text that is one JSON value. -/
def parse (s : String) : Except ReadError Json :=
  Reader.run (fun fuel => Reader.value fuel depthLimit) s

end TestFlow.Json
