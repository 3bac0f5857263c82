import TestFlow.Decimal

/-!
# JSON values

The payload of a node is free-form: any JSON value may stand there.  This module has the values,
with their numbers, and the compact text that they are written as.

Reference: specification, §3.2 (literals are kept as JSON values, object keys in input order).

## Main definitions

* `Number`, `Json` — numbers and values;
* `Fields.insert`, `Fields.get?` — the fields of an object;
* `Json.text`, `Json.compact` — the compact text of a value.
-/

namespace TestFlow

/-!
## Numbers of a JSON text

A whole number is kept exactly when it fits into 64 bits, with a sign if it is negative and without
one otherwise.  Every other number is a floating-point number, and so is a negative zero.
-/

/-- The first natural number that 64 bits do not hold. -/
def wordLimit : Nat := 0x10000000000000000

/-- The whole numbers that 64 bits hold, with a sign or without one. -/
def FitsWord (value : Int) : Prop :=
  -0x8000000000000000 ≤ value ∧ value < 0x10000000000000000

instance (value : Int) : Decidable (FitsWord value) :=
  inferInstanceAs (Decidable (_ ∧ _))

/-- A number of a JSON text. -/
inductive Number where
  /-- A whole number that fits into 64 bits. -/
  | integer (value : Int) (fits : FitsWord value)
  /-- Any other number, rounded. -/
  | float (value : Float)

namespace Number

/-- The number as a non-negative whole number.  A floating-point number is none, whatever its
value. -/
def toNat? : Number → Option Nat
  | .integer value _ => if 0 ≤ value then some value.toNat else none
  | .float _ => none

/-- The decimal digits of a whole number, with a sign in front of a negative one. -/
def integerText (value : Int) : List Char :=
  if value < 0 then '-' :: Nat.toDigits 10 value.natAbs else Nat.toDigits 10 value.natAbs

def text : Number → List Char
  | .integer value _ => integerText value
  | .float value => Decimal.floatText value

end Number

/-!
## JSON values

The fields of an object keep the order in which they were written.  A key that is written again
keeps its place and takes the later value, which is what `Fields.insert` does.
-/

/-- A JSON value.  The fields of an object are in the order of their first appearance. -/
inductive Json where
  | null
  | bool (value : Bool)
  | number (value : Number)
  | string (value : String)
  | array (items : List Json)
  | object (fields : List (String × Json))
  deriving Inhabited

namespace Fields

/-- Puts a value under a key.  A key that is already present keeps its place; a new one goes to the
end. -/
def insert {α : Type} (key : String) (value : α) : List (String × α) → List (String × α)
  | [] => [(key, value)]
  | (k, v) :: rest => if k = key then (key, value) :: rest else (k, v) :: insert key value rest

def get? {α : Type} (key : String) (fields : List (String × α)) : Option α :=
  fields.lookup key

end Fields

end TestFlow

namespace TestFlow.Json

/-!
## Compact JSON text

A value is written without any blanks.  In a string the quote, the backslash and the control
characters below the space are escaped, five of these by a letter and the rest by four lower-case
hexadecimal digits; everything else stands for itself.
-/

/-- One character of a string. -/
def escapedChar (c : Char) : List Char :=
  match c with
  | '"' => ['\\', '"']
  | '\\' => ['\\', '\\']
  | '\x08' => ['\\', 'b']
  | '\x0c' => ['\\', 'f']
  | '\n' => ['\\', 'n']
  | '\r' => ['\\', 'r']
  | '\t' => ['\\', 't']
  | c =>
    if c.toNat < 0x20 then
      ['\\', 'u', '0', '0', Nat.digitChar (c.toNat / 16), Nat.digitChar (c.toNat % 16)]
    else [c]

/-- A string in quotes. -/
def stringText (s : String) : List Char :=
  '"' :: s.toList.flatMap escapedChar ++ ['"']

mutual

/-- The compact text of a value. -/
def text : Json → List Char
  | .null => ['n', 'u', 'l', 'l']
  | .bool true => ['t', 'r', 'u', 'e']
  | .bool false => ['f', 'a', 'l', 's', 'e']
  | .number n => n.text
  | .string s => stringText s
  | .array [] => ['[', ']']
  | .array (item :: rest) => '[' :: item.text ++ moreItems rest
  | .object [] => ['{', '}']
  | .object ((key, value) :: rest) => '{' :: stringText key ++ ':' :: value.text ++ moreFields rest

/-- The text of an array behind its first item. -/
def moreItems : List Json → List Char
  | [] => [']']
  | item :: rest => ',' :: item.text ++ moreItems rest

/-- The text of an object behind its first field. -/
def moreFields : List (String × Json) → List Char
  | [] => ['}']
  | (key, value) :: rest => ',' :: stringText key ++ ':' :: value.text ++ moreFields rest

end

/-- The compact text of a value, as a string. -/
def compact (v : Json) : String :=
  String.ofList v.text

end TestFlow.Json
