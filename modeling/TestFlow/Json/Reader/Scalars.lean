import TestFlow.Json.Fault

/-!
# Readers of strings and numerals

Strings and numerals are read from the characters of a text, and so is everything made of them.

Reference: specification, §6 (the input is a JSON text).

## Main definitions

* `Reader`, `Reader.run` — readers, and running one on a whole text;
* `quoted` — a string behind its opening quote;
* `gather` — digits into a significand, with the number of digits that found room;
* `scaled?` — the significand times a power of ten, unless that is too large;
* `numeral` — a numeral behind its minus sign.
-/

namespace TestFlow.Json

/-!
## Readers

A reader takes a thing off the front of a text and gives it back with the rest of the text, or stops
at a fault.  All readers share the space between symbols, the letters of a fixed word, and the way
they are run on a whole text.

The loops over the items of an array and the fields of an object are bounded by a number of rounds,
called *fuel*.  Every round takes at least one character, so the length of the text is always
enough; `run` measures it once and hands it to the reader.
-/

/-- Takes a thing off the front of a text. -/
abbrev Reader (α : Type) : Type :=
  List Char → Except Fault (α × List Char)

namespace Reader

/-- The characters that may stand between two symbols. -/
def isSpace (c : Char) : Bool :=
  c == ' ' || c == '\n' || c == '\t' || c == '\r'

/-- What is left of a text behind the space that it starts with. -/
def skipSpace (cs : List Char) : List Char :=
  cs.dropWhile isSpace

/-- Passes over the letters of a word, of which the first has chosen the word already. -/
def word : (letters : List Char) → List Char → Except Fault (List Char)
  | [], cs => .ok cs
  | _ :: _, [] => .error (.here .endInValue [])
  | letter :: letters, c :: cs =>
    if c = letter then word letters cs else .error (.ahead .misspeltWord (c :: cs))

/-- Reads a whole text, which may end in space and in nothing else. -/
def whole {α : Type} (reader : Reader α) (cs : List Char) : Except Fault α := do
  let (a, rest) ← reader cs
  match skipSpace rest with
  | [] => .ok a
  | rest => .error (.ahead .trailingCharacters rest)

/-- Reads a whole text, with its length as fuel, and tells the place of a fault by line and
column. -/
def run {α : Type} (reader : (fuel : Nat) → Reader α) (s : String) : Except ReadError α :=
  let cs := s.toList
  (whole (reader cs.length) cs).mapError fun fault => fault.locate cs

end Reader

end TestFlow.Json

namespace TestFlow.Json.Reader

/-!
## Strings

A string goes on to the next quote that is not escaped.  A backslash starts an escape: a single
character, or the letter `u` with the four hexadecimal digits of a UTF-16 unit.  A character beyond
the sixteen bits of one unit takes two such escapes, the halves of a surrogate pair in their order.
Control characters below the space must be escaped.

The four digits are taken as four bytes.  With fewer bytes left the text ends inside the string;
otherwise a fault in them lies behind the fourth byte.
-/

def hexValue? (c : Char) : Option Nat :=
  if c.isDigit then some (c.toNat - '0'.toNat)
  else if 'a' ≤ c ∧ c ≤ 'f' then some (c.toNat - 'a'.toNat + 10)
  else if 'A' ≤ c ∧ c ≤ 'F' then some (c.toNat - 'A'.toNat + 10)
  else none

/-- The value of the four hexadecimal digits that a text starts with. -/
def fourHex? : List Char → Option Nat
  | a :: b :: c :: d :: _ => do
    let a ← hexValue? a
    let b ← hexValue? b
    let c ← hexValue? c
    let d ← hexValue? d
    some (a * 4096 + b * 256 + c * 16 + d)
  | _ => none

/-- The UTF-16 unit whose four hexadecimal digits a text starts with. -/
def unit (cs : List Char) : Except Fault Nat :=
  match fourHex? cs with
  | some n => .ok n
  | none =>
    if byteCount cs < 4 then .error (.here .endInString [])
    else .error (.past 4 .invalidEscape cs)

/-- The first half of a surrogate pair. -/
def isHighSurrogate (n : Nat) : Bool :=
  0xD800 ≤ n && n ≤ 0xDBFF

/-- The second half of a surrogate pair. -/
def isLowSurrogate (n : Nat) : Bool :=
  0xDC00 ≤ n && n ≤ 0xDFFF

/-- The character of a surrogate pair. -/
def pairedChar (high low : Nat) : Char :=
  Char.ofNat (0x10000 + (high - 0xD800) * 1024 + (low - 0xDC00))

/-- The second half of a surrogate pair, whose escape a text starts with. -/
def lowSurrogate : List Char → Except Fault Nat
  | [] => .error (.here .endInString [])
  | ['\\'] => .error (.here .endInString [])
  | '\\' :: 'u' :: rest => do
    let low ← unit rest
    if isLowSurrogate low then .ok low else .error (.here .loneSurrogate (rest.drop 4))
  | '\\' :: rest => .error (.ahead .unfinishedSurrogate rest)
  | rest => .error (.ahead .unfinishedSurrogate rest)

/-- The character whose UTF-16 units a text starts with, and the number of characters that they
take. -/
def unicodeChar (cs : List Char) : Except Fault (Char × Nat) := do
  let first ← unit cs
  if isLowSurrogate first then .error (.here .loneSurrogate (cs.drop 4))
  else if isHighSurrogate first then do
    let low ← lowSurrogate (cs.drop 4)
    -- four digits, the start of the second escape, and four digits more
    .ok (pairedChar first low, 10)
  else .ok (Char.ofNat first, 4)

/-- The character that a letter or mark stands for behind a backslash. -/
def escapeChar? : Char → Option Char
  | '"' => some '"'
  | '\\' => some '\\'
  | '/' => some '/'
  | 'b' => some '\x08'
  | 'f' => some '\x0c'
  | 'n' => some '\n'
  | 'r' => some '\r'
  | 't' => some '\t'
  | _ => none

/-- The character of an escape behind its backslash, and the number of characters that the escape
takes there. -/
def escape : List Char → Except Fault (Char × Nat)
  | [] => .error (.here .endInString [])
  | 'u' :: rest => do
    let (char, length) ← unicodeChar rest
    .ok (char, length + 1)
  | c :: rest =>
    match escapeChar? c with
    | some char => .ok (char, 1)
    | none => .error (.ahead .invalidEscape (c :: rest))

/-- Control characters, which must be escaped. -/
def isControl (c : Char) : Bool :=
  c.toNat < 0x20

/-- The characters of a string up to its closing quote, behind those in `chars`, the last of which
comes first.  The first `skip` characters of the text belong to an escape that has been read. -/
def quotedFrom : (skip : Nat) → (chars : List Char) → Reader String
  | _, _, [] => .error (.here .endInString [])
  | skip + 1, chars, _ :: rest => quotedFrom skip chars rest
  | 0, chars, c :: rest =>
    if c = '"' then .ok (String.ofList chars.reverse, rest)
    else if c = '\\' then
      match escape rest with
      | .ok (char, length) => quotedFrom length (char :: chars) rest
      | .error fault => .error fault
    else if isControl c then .error (.ahead .controlCharacter (c :: rest))
    else quotedFrom 0 (c :: chars) rest

/-- A string behind its opening quote. -/
def quoted : Reader String :=
  quotedFrom 0 []

/-!
## Numerals

A numeral has digits, of which the first is zero only if it is the last, then perhaps a point with
more digits, then perhaps an exponent.  With digits alone it is a whole number, as long as 64 bits
hold it.

All other numerals become floating-point numbers in two steps.  The digits are gathered into a
*significand* of 64 bits.  From the first digit for which there is no room, the digits before the
point only raise the exponent and the digits behind it are dropped.  Then the significand is rounded
to a floating-point number and multiplied by the power of ten, or divided by it for a negative
exponent.  Each step rounds, so the result can differ from the nearest floating-point number in its
last place.
-/

def digitValue (c : Char) : Nat :=
  c.toNat - '0'.toNat

/-- Appends digits to a significand as long as 64 bits hold it, and counts those appended. -/
def gather (significand : Nat) : List Char → Nat × Nat
  | [] => (significand, 0)
  | d :: rest =>
    let next := significand * 10 + digitValue d
    if next < wordLimit then
      let (result, count) := gather next rest
      (result, count + 1)
    else (significand, 0)

/-- The largest power of ten that is a floating-point number. -/
def greatestPower : Nat := 308

/-- A power of ten, rounded to a floating-point number. -/
def powerOfTen (exponent : Nat) : Float :=
  Float.ofScientific 1 false exponent

/-- Divides by a power of ten, in steps of the largest one as long as the exponent exceeds it. -/
def divideByPower (x : Float) (exponent : Nat) : Float :=
  if exponent ≤ greatestPower then x / powerOfTen exponent
  else if x == 0.0 then x
  else divideByPower (x / powerOfTen greatestPower) (exponent - greatestPower)
termination_by exponent
decreasing_by simp only [greatestPower] at *; omega

/-- A significand times a power of ten, unless the product is too large for a floating-point
number. -/
def scaled? (significand : Nat) (exponent : Int) : Option Float :=
  let x := Float.ofNat significand
  if exponent < 0 then some (divideByPower x (-exponent).toNat)
  else if exponent ≤ greatestPower then
    let y := x * powerOfTen exponent.toNat
    if y.isInf then none else some y
  -- zero stays zero, whatever the power
  else if significand = 0 then some x
  else none

/-- A number with the sign given. -/
def signed (negative : Bool) (x : Float) : Float :=
  if negative then -x else x

/-- The number of a numeral that is made of digits alone.  Zero with a minus sign is a
floating-point number, for there is no whole number for it. -/
def wholeNumber (negative : Bool) (significand : Nat) : Number :=
  let value : Int := if negative then -significand else significand
  if negative ∧ significand = 0 then .float (-0.0)
  else if fits : FitsWord value then .integer value fits
  else .float (signed negative (Float.ofNat significand))

/-- The digits behind a point, of which there must be one. -/
def fractionDigits : Reader (List Char) := fun cs =>
  let digits := cs.takeWhile Char.isDigit
  if digits.isEmpty then
    .error (.ahead (if cs.isEmpty then .endInValue else .invalidNumber) cs)
  else .ok (digits, cs.dropWhile Char.isDigit)

/-- The point of a numeral and the digits behind it, if there is a point. -/
def fraction? : Reader (Option (List Char))
  | '.' :: rest => do
    let (digits, rest) ← fractionDigits rest
    .ok (some digits, rest)
  | rest => .ok (none, rest)

/-- The largest exponent of a numeral whose significand is not zero. -/
def greatestExponent : Nat := 0x7FFFFFFF

/-- The digits of an exponent.  A `bounded` one is refused at the digit that makes it larger than
any exponent may be. -/
def exponentDigits (bounded : Bool) (value : Nat) : Reader Nat
  | [] => .ok (value, [])
  | c :: rest =>
    if c.isDigit then
      let next := value * 10 + digitValue c
      if bounded && greatestExponent < next then .error (.here .numberOutOfRange rest)
      else exponentDigits bounded next rest
    else .ok (value, c :: rest)

/-- The sign of an exponent, if it has one, as whether it is negative. -/
def exponentSign : List Char → Bool × List Char
  | '+' :: rest => (false, rest)
  | '-' :: rest => (true, rest)
  | rest => (false, rest)

/-- An exponent behind its mark.  It can be too large only for a significand other than zero. -/
def exponent (significand : Nat) : Reader Int := fun cs =>
  let (negative, rest) := exponentSign cs
  match rest with
  | [] => .error (.here .endInValue [])
  | c :: _ =>
    if c.isDigit then do
      let (value, rest) ← exponentDigits (!negative && significand != 0) 0 rest
      .ok (if negative then -value else value, rest)
    else .error (.ahead .invalidNumber rest)

/-- The mark of an exponent and the exponent behind it, if there is a mark. -/
def exponent? (significand : Nat) : Reader (Option Int)
  | [] => .ok (none, [])
  | c :: rest =>
    if c = 'e' ∨ c = 'E' then do
      let (value, rest) ← exponent significand rest
      .ok (some value, rest)
    else .ok (none, c :: rest)

/-- A numeral behind its minus sign, if it has one. -/
def numeral (negative : Bool) : Reader Number := fun cs =>
  match cs.takeWhile Char.isDigit with
  | [] => .error (if cs.isEmpty then .here .endInValue cs else .ahead .invalidNumber cs)
  -- a zero must not stand before other digits, and the fault lies behind it
  | '0' :: _ :: _ => .error (.ahead .invalidNumber (cs.drop 1))
  | digits => do
    let (significand, kept) := gather 0 digits
    -- digits that found no room are worth a power of ten each
    let overflow := digits.length - kept
    let (fraction, rest) ← fraction? (cs.dropWhile Char.isDigit)
    let (significand, places) := gather significand (fraction.getD [])
    let (power, rest) ← exponent? significand rest
    if overflow = 0 ∧ fraction.isNone ∧ power.isNone then
      .ok (wholeNumber negative significand, rest)
    else
      match scaled? significand (overflow - places + power.getD 0) with
      | some x => .ok (.float (signed negative x), rest)
      | none => .error (.here .numberOutOfRange rest)

end TestFlow.Json.Reader
