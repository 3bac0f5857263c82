import TestFlow.Json.Basic
import TestFlow.Json.Reader.Values
import TestFlow.Text.Basic

/-!
# Records decoded from a value

The payload of a node is a JSON value of any shape, and is decoded into a record only when the kind
of the node is known.  A record is decoded from an object, whose unknown fields are ignored, or from
an array with the fields in their declared order, of which any number may be missing at the end.
Fields are decoded in the order of the object, and the first fault counts.

Decoding is lenient about scalars: a number may be given as text and text as a number or truth
value, and in any scalar field null and blank text mean that the field is absent.

Reference: specification, §3.1 (payload fields) and §3.2 (numeric strings, malformed payloads).

## Main definitions

* `DecodeError`, `DecodeError.message` — what can be wrong;
* `text?`, `natural?`, `literal?`, `document?` — the lenient scalars;
* `Slot`, `Shape`, `Shape.decode` — the declaration of a record and its decoding.
-/

namespace TestFlow.Json

/-- What can be wrong with a payload. -/
inductive DecodeError where
  /-- A value is of another shape than asked for. -/
  | mismatch (m : Mismatch)
  /-- Brackets stand where text is due. -/
  | notText (found : Json)
  /-- Something stands where a number is due that is none, nor text. -/
  | notNumber (found : Json)
  /-- A text is not a whole number of 64 bits. -/
  | notNaturalText (text : String)
  /-- A number is not a whole number of 64 bits. -/
  | notNatural (number : Number)
  /-- A text that should hold a schema is not JSON. -/
  | notDocument (reason : ReadError)

/-- How a message names a value by its kind alone. -/
def kindName : Json → String
  | .null => "null"
  | .bool _ => "a boolean"
  | .number _ => "a number"
  | .string _ => "a string"
  | .array _ => "an array"
  | .object _ => "an object"

def DecodeError.message : DecodeError → String
  | .mismatch m => m.message
  | .notText found => "expected text, found " ++ found.kindName
  | .notNumber found => "expected a number, found " ++ found.kindName
  | .notNaturalText s => "'" ++ s ++ "' is not a whole number"
  | .notNatural n => String.ofList n.text ++ " is not a whole number"
  | .notDocument reason => "schema is not valid JSON: " ++ reason.message

/-! ## Lenient scalars -/

/-- Null and blank text, which mean that a field is absent. -/
def isAbsent : Json → Bool
  | .null => true
  | .string s => Text.isBlank s
  | _ => false

/-- The text of a value without brackets; that of null is empty. -/
def scalarText? : Json → Option String
  | .null => some ""
  | .bool b => some (boolText b)
  | .number n => some (String.ofList n.text)
  | .string s => some s
  | .array _ => none
  | .object _ => none

/-- A text, which may be given as a number or truth value. -/
def text? (v : Json) : Except DecodeError (Option String) :=
  if v.isAbsent then .ok none
  else
    match v.scalarText? with
    | some s => .ok (some s)
    | none => .error (.notText v)

def digitsValue (digits : List Char) : Nat :=
  digits.foldl (fun value d => value * 10 + Reader.digitValue d) 0

/-- The whole number of 64 bits that a text spells: digits, perhaps behind a plus sign. -/
def naturalOf? (cs : List Char) : Option Nat :=
  let digits := match cs with
    | '+' :: rest => rest
    | rest => rest
  if digits.isEmpty || !digits.all Char.isDigit then none
  else
    let value := digitsValue digits
    if value < wordLimit then some value else none

/-- A whole number of 64 bits, which may be given as text. -/
def natural? (v : Json) : Except DecodeError (Option Nat) :=
  if v.isAbsent then .ok none
  else
    match v with
    | .string s =>
      match naturalOf? (Text.trim s.toList) with
      | some value => .ok (some value)
      | none => .error (.notNaturalText s)
    | .number n =>
      match n.toNat? with
      | some value => .ok (some value)
      | none => .error (.notNatural n)
    | v => .error (.notNumber v)

/-- A value of any kind. -/
def literal? (v : Json) : Except DecodeError (Option Json) :=
  if v.isAbsent then .ok none else .ok (some v)

/-- A JSON document, which may be given as text. -/
def document? (v : Json) : Except DecodeError (Option Json) :=
  if v.isAbsent then .ok none
  else
    match v with
    | .string s =>
      match parse s with
      | .ok v => .ok (some v)
      | .error reason => .error (.notDocument reason)
    | v => .ok (some v)

/-- A list of values of one kind. -/
def list {α : Type} (item : Json → Except DecodeError α) : Json → Except DecodeError (List α)
  | .array vs => vs.mapM item
  | v => .error (.mismatch (.wrongType v.found .sequence))

/-! ## Records -/

/-- A field of a record: its name, the other names it answers to, and how to put a value into the
record. -/
structure Slot (σ : Type) where
  name : String
  aliases : List String
  put : Json → σ → Except DecodeError σ

/-- Whether a key names the field. -/
def Slot.answersTo {σ : Type} (slot : Slot σ) (key : String) : Bool :=
  slot.name == key || slot.aliases.contains key

/-- A field whose decoded value is put into the record as it is. -/
def Slot.of {σ α : Type} (name : String) (aliases : List String)
    (decode : Json → Except DecodeError α) (put : α → σ → σ) : Slot σ where
  name := name
  aliases := aliases
  put v state := (decode v).map fun a => put a state

/-- A kind of record: its name, the record without any field, and its fields in order. -/
structure Shape (σ : Type) where
  name : String
  empty : σ
  slots : List (Slot σ)

namespace Shape

/-- Decodes the fields of an object into a record, where `seen` names the fields met before. -/
def fromFields {σ : Type} (slots : List (Slot σ)) :
    (seen : List String) → σ → List (String × Json) → Except DecodeError σ
  | _, state, [] => .ok state
  | seen, state, (key, v) :: rest =>
    match slots.find? fun slot => slot.answersTo key with
    | none => fromFields slots seen state rest
    | some slot =>
      if slot.name ∈ seen then .error (.mismatch (.duplicateField slot.name))
      else do
        let state ← slot.put v state
        fromFields slots (slot.name :: seen) state rest

/-- Decodes the items of an array into the fields of a record, one each. -/
def fromItems {σ : Type} : List (Slot σ) → σ → List Json → Except DecodeError σ
  | [], state, _ => .ok state
  | _ :: _, state, [] => .ok state
  | slot :: slots, state, v :: rest => do
    let state ← slot.put v state
    fromItems slots state rest

def decode {σ : Type} (shape : Shape σ) : Json → Except DecodeError σ
  | .object fields => fromFields shape.slots [] shape.empty fields
  | .array items => do
    let state ← fromItems shape.slots shape.empty items
    if items.length ≤ shape.slots.length then .ok state
    else .error (.mismatch (.tooManyItems items.length))
  | v => .error (.mismatch (.wrongType v.found (.record shape.name)))

end Shape

end TestFlow.Json
