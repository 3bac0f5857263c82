/-!
# Texts

What the rest of the library needs to know of texts: which characters are blank, how a text is kept
on one line, how it is divided, which names may stand unquoted in a step, and how bytes are written
in Base64.  Texts are lists of characters wherever something is said about their parts.

Reference: specification, §3.2 (names) and §4.3 (one step to a line, Base64).

## Main definitions

* `isBlankChar`, `isBlank`, `trim`, `trimmed` — blank characters and trimming;
* `oneLine` — a text with a space for each line break;
* `segments`, `splitFirst?` — a text divided at a character;
* `isToken`, `isIdentifier` — the names that stand unquoted;
* `Base64.ofString` — the Base64 of the UTF-8 bytes of a text.
-/

namespace TestFlow.Text

/-!
## Blank characters and trimming

A character is *blank* when it has the Unicode property `White_Space`.  A text is blank when all of
its characters are, so the empty text is blank too.  Trimming takes the blanks off the ends of a
text and leaves those inside it alone.
-/

/-- The characters with the Unicode property `White_Space`. -/
def isBlankChar (c : Char) : Bool :=
  let n := c.toNat
  (0x9 ≤ n && n ≤ 0xD) || n == 0x20 || n == 0x85 || n == 0xA0 || n == 0x1680
    || (0x2000 ≤ n && n ≤ 0x200A) || n == 0x2028 || n == 0x2029 || n == 0x202F || n == 0x205F
    || n == 0x3000

def trimStart (cs : List Char) : List Char :=
  cs.dropWhile isBlankChar

def trimEnd (cs : List Char) : List Char :=
  (cs.reverse.dropWhile isBlankChar).reverse

/-- Drops the blanks at both ends of a text. -/
def trim (cs : List Char) : List Char :=
  trimEnd (trimStart cs)

/-- A string without the blanks at its ends. -/
def trimmed (s : String) : String :=
  String.ofList (trim s.toList)

/-- Whether a string holds nothing but blanks. -/
def isBlank (s : String) : Bool :=
  s.toList.all isBlankChar

/-!
## Single lines

A line of a feature file must not be broken by the text it carries.  `oneLine` puts a single space
in the place of every line break: a carriage return followed by a line feed is one break, and either
of them alone is one as well.
-/

def isLineBreak (c : Char) : Bool :=
  c == '\n' || c == '\r'

/-- Puts one space in the place of every line break. -/
def joinLines : List Char → List Char
  | [] => []
  -- the two characters together are one line break
  | '\r' :: '\n' :: rest => ' ' :: joinLines rest
  | c :: rest => (if isLineBreak c then ' ' else c) :: joinLines rest

/-- A string with one space in the place of every line break. -/
def oneLine (s : String) : String :=
  String.ofList (joinLines s.toList)

/-!
## Texts divided at a character

`segments` divides a text at every occurrence of a character, so that there is always one segment
more than there are dividers.  `splitFirst?` divides it at the first occurrence only.
-/

/-- The parts of a text between the occurrences of a character. -/
def segments (divider : Char) : List Char → List (List Char)
  | [] => [[]]
  | c :: rest =>
    if c = divider then [] :: segments divider rest
    else
      match segments divider rest with
      | [] => [[c]]
      | segment :: others => (c :: segment) :: others

/-- The parts of a text before and behind the first occurrence of a character. -/
def splitFirst? (divider : Char) : List Char → Option (List Char × List Char)
  | [] => none
  | c :: rest =>
    if c = divider then some ([], rest)
    else (splitFirst? divider rest).map fun (before, behind) => (c :: before, behind)

/-!
## Names that may stand unquoted in a step

Two classes of names are written into steps without quotes.  A *token* is the name of a header or of
a query parameter: at least one character, each of them a letter, a digit or one of the marks that
header field names allow.  An *identifier* is the name of a script variable: a letter or underscore,
then letters, digits and underscores.  Letters and digits are those of ASCII in both classes.
-/

/-- The marks that a token may hold besides letters and digits. -/
def tokenMarks : List Char :=
  ['!', '#', '$', '%', '&', '\'', '*', '+', '.', '^', '_', '\x60', '|', '~', '-']

/-- A character that a token may hold. -/
def isTokenChar (c : Char) : Bool :=
  c.isAlphanum || tokenMarks.contains c

/-- Whether a name can stand unquoted as the name of a header or parameter. -/
def isToken (name : String) : Bool :=
  !name.toList.isEmpty && name.toList.all isTokenChar

/-- A character that an identifier may start with. -/
def isIdentifierStart (c : Char) : Bool :=
  c.isAlpha || c == '_'

/-- A character that an identifier may go on with. -/
def isIdentifierChar (c : Char) : Bool :=
  c.isAlphanum || c == '_'

/-- Whether a name can be bound as a script variable. -/
def isIdentifier (name : String) : Bool :=
  match name.toList with
  | [] => false
  | c :: rest => isIdentifierStart c && rest.all isIdentifierChar

end TestFlow.Text

namespace TestFlow.Text.Base64

/-!
## Base64 with padding

Three bytes are written as four characters of the alphabet `A–Z a–z 0–9 + /`, six bits each, most
significant first.  A last group of one or two bytes is filled with zero bits, and `=` stands for
each character that would hold only such bits.
-/

/-- The 64 digits in the order of their values. -/
def alphabet : List Char :=
  "ABCDEFGHIJKLMNOPQRSTUVWXYZabcdefghijklmnopqrstuvwxyz0123456789+/".toList

/-- The digit of a six-bit value. -/
def digit (value : Nat) : Char :=
  alphabet.getD value 'A'

/-- The four digits of a 24-bit value. -/
def quad (value : Nat) : List Char :=
  [digit (value / 262144 % 64), digit (value / 4096 % 64), digit (value / 64 % 64),
    digit (value % 64)]

/-- The written form of a sequence of bytes. -/
def encode : List UInt8 → List Char
  | [] => []
  | [a] => (quad (a.toNat * 65536)).take 2 ++ ['=', '=']
  | [a, b] => (quad (a.toNat * 65536 + b.toNat * 256)).take 3 ++ ['=']
  | a :: b :: c :: rest => quad (a.toNat * 65536 + b.toNat * 256 + c.toNat) ++ encode rest

/-- The written form of the UTF-8 bytes of a string. -/
def ofString (s : String) : String :=
  String.ofList (encode s.toUTF8.toList)

end TestFlow.Text.Base64
