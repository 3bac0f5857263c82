import TestFlow.Json.Basic
import TestFlow.Proofs.Decimal.Numeral

/-!
# Compact JSON texts

The grammar of JSON texts without blanks, and the proof that every value is written by it.  The
grammar says nothing about values: it tells which texts are well formed, and so what a reader of the
script language can meet where a value was written.  In particular a value never brings a line break
into a step, whatever strings it holds.

Reference: specification, §3.2 (literals are kept as JSON values) and §4.3 (literals in steps).

## Main definitions

* `StringInside` — what may stand between the quotes of a string;
* `Grammar` — values, and the parts between the brackets of arrays and objects.

## Main statements

* `grammar_text` — every value is written as a compact JSON text;
* `Grammar.unbroken` — a compact JSON text has no line break.
-/

namespace TestFlow.Json

open Decimal (Numeral)
open Text (Unbroken unbroken_cons unbroken_append unbroken_nil isLineBreak
  isLineBreak_eq_false_of)

/-! ## The grammar -/

/-- A hexadecimal digit in either case. -/
def IsHexDigit (c : Char) : Prop :=
  c ∈ "0123456789abcdefABCDEF".toList

/-- What may stand between the quotes of a string: characters from the space on, other than the
quote and the backslash, and escapes. -/
inductive StringInside : List Char → Prop
  | nil : StringInside []
  | plain {c : Char} {rest : List Char} (hspace : 0x20 ≤ c.toNat) (hquote : c ≠ '"')
      (hbackslash : c ≠ '\\') (hrest : StringInside rest) : StringInside (c :: rest)
  | escape {c : Char} {rest : List Char} (hc : c ∈ ['"', '\\', '/', 'b', 'f', 'n', 'r', 't'])
      (hrest : StringInside rest) : StringInside ('\\' :: c :: rest)
  | codePoint {code rest : List Char} (hlength : code.length = 4) (hcode : ∀ c ∈ code, IsHexDigit c)
      (hrest : StringInside rest) : StringInside ('\\' :: 'u' :: (code ++ rest))

/-- A string with its quotes. -/
inductive StringText : List Char → Prop
  | quoted {inside : List Char} (hinside : StringInside inside) :
      StringText ('"' :: (inside ++ ['"']))

/-- The parts of a JSON text. -/
inductive Part where
  | value
  | items
  | fields

/-- The compact JSON texts: no blanks around values, and no comma behind the last item or field. -/
inductive Grammar : Part → List Char → Prop
  | nullWord : Grammar .value ['n', 'u', 'l', 'l']
  | trueWord : Grammar .value ['t', 'r', 'u', 'e']
  | falseWord : Grammar .value ['f', 'a', 'l', 's', 'e']
  | number {cs : List Char} (h : Numeral cs) : Grammar .value cs
  | string {cs : List Char} (h : StringText cs) : Grammar .value cs
  | emptyArray : Grammar .value ['[', ']']
  | array {cs : List Char} (h : Grammar .items cs) : Grammar .value ('[' :: (cs ++ [']']))
  | emptyObject : Grammar .value ['{', '}']
  | object {cs : List Char} (h : Grammar .fields cs) : Grammar .value ('{' :: (cs ++ ['}']))
  | lastItem {cs : List Char} (h : Grammar .value cs) : Grammar .items cs
  | item {cs rest : List Char} (h : Grammar .value cs) (hrest : Grammar .items rest) :
      Grammar .items (cs ++ ',' :: rest)
  | lastField {key cs : List Char} (hkey : StringText key) (h : Grammar .value cs) :
      Grammar .fields (key ++ ':' :: cs)
  | field {key cs rest : List Char} (hkey : StringText key) (h : Grammar .value cs)
      (hrest : Grammar .fields rest) : Grammar .fields (key ++ ':' :: (cs ++ ',' :: rest))

/-! ## Strings -/

/-- The digits up to fifteen are hexadecimal digits. -/
theorem isHexDigit_digitChar {n : Nat} (h : n < 16) : IsHexDigit (Nat.digitChar n) := by
  have hcases : ∀ m < 16, Nat.digitChar m ∈
      ['0', '1', '2', '3', '4', '5', '6', '7', '8', '9', 'a', 'b', 'c', 'd', 'e', 'f', 'A', 'B',
        'C', 'D', 'E', 'F'] := by decide
  exact hcases n h

/-- Each character of a string is written as part of its inside. -/
theorem stringInside_escapedChar (c : Char) {rest : List Char} (hrest : StringInside rest) :
    StringInside (escapedChar c ++ rest) := by
  unfold escapedChar
  split
  case h_8 _ hquote hbackslash _ _ _ _ _ =>
    split
    · -- a control character without a letter of its own
      rename_i hcontrol
      have hcode : ∀ d ∈ ['0', '0', Nat.digitChar (c.toNat / 16), Nat.digitChar (c.toNat % 16)],
          IsHexDigit d := by
        have hzero : IsHexDigit '0' := isHexDigit_digitChar (by decide : 0 < 16)
        simp only [List.forall_mem_cons]
        exact ⟨hzero, hzero, isHexDigit_digitChar (by omega), isHexDigit_digitChar (by omega),
          fun _ hd => absurd hd List.not_mem_nil⟩
      exact .codePoint rfl hcode hrest
    · rename_i hspace
      exact .plain (by omega) hquote hbackslash hrest
  all_goals exact .escape (by decide) hrest

/-- A string is written with its quotes around its inside. -/
theorem stringText_stringText (s : String) : StringText (stringText s) := by
  have hinside : StringInside (s.toList.flatMap escapedChar) := by
    induction s.toList with
    | nil => exact .nil
    | cons c cs ih => exact stringInside_escapedChar c ih
  exact .quoted hinside

/-! ## Values -/

mutual

/-- Every value is written as a compact JSON text. -/
theorem grammar_text (v : Json) : Grammar .value v.text := by
  match v with
  | .null => exact .nullWord
  | .bool true => exact .trueWord
  | .bool false => exact .falseWord
  | .number n =>
      rcases n.numeral_or_null_text with hnumeral | hnull
      · exact .number hnumeral
      · rw [text, hnull]
        exact .nullWord
  | .string s => exact .string (stringText_stringText s)
  | .array [] => exact .emptyArray
  | .array (item :: rest) =>
      -- An array is written from its first item on, and the grammar has the last one apart; the
      -- lemma on the items behind brings the two together.
      obtain ⟨items, hitems, htext⟩ := grammar_moreItems rest (grammar_text item)
      rw [text, List.cons_append, htext]
      exact .array hitems
  | .object [] => exact .emptyObject
  | .object ((key, value) :: rest) =>
      obtain ⟨fields, hfields, htext⟩ :=
        grammar_moreFields rest (stringText_stringText key) (grammar_text value)
      rw [text, List.cons_append, List.cons_append, htext]
      exact .object hfields

/-- An item and what follows it are the items of an array and its closing bracket. -/
theorem grammar_moreItems (rest : List Json) {cs : List Char} (h : Grammar .value cs) :
    ∃ items, Grammar .items items ∧ cs ++ moreItems rest = items ++ [']'] := by
  match rest with
  | [] => exact ⟨cs, .lastItem h, rfl⟩
  | item :: rest =>
      obtain ⟨items, hitems, htext⟩ := grammar_moreItems rest (grammar_text item)
      refine ⟨cs ++ ',' :: items, .item h hitems, ?_⟩
      rw [moreItems, List.cons_append, htext]
      simp

/-- A field and what follows it are the fields of an object and its closing brace. -/
theorem grammar_moreFields (rest : List (String × Json)) {key cs : List Char}
    (hkey : StringText key) (h : Grammar .value cs) :
    ∃ fields, Grammar .fields fields ∧ (key ++ ':' :: cs) ++ moreFields rest = fields ++ ['}'] := by
  match rest with
  | [] => exact ⟨key ++ ':' :: cs, .lastField hkey h, rfl⟩
  | (name, value) :: rest =>
      obtain ⟨fields, hfields, htext⟩ :=
        grammar_moreFields rest (stringText_stringText name) (grammar_text value)
      refine ⟨key ++ ':' :: (cs ++ ',' :: fields), .field hkey h hfields, ?_⟩
      rw [moreFields, List.cons_append, List.cons_append, htext]
      simp

end

/-! ## No line breaks -/

/-- A hexadecimal digit breaks no line. -/
theorem IsHexDigit.not_isLineBreak {c : Char} (h : IsHexDigit c) : isLineBreak c = false := by
  have hcases : ∀ d ∈ "0123456789abcdefABCDEF".toList, isLineBreak d = false := by
    simp [isLineBreak]
  exact hcases c h

/-- The line breaks of a string are escaped. -/
theorem StringInside.unbroken {cs : List Char} (h : StringInside cs) : Unbroken cs := by
  induction h with
  | nil => exact unbroken_nil
  | @plain c rest hspace hquote hbackslash hrest ih =>
      have hbreak := isLineBreak_eq_false_of (0x20 ≤ ·.toNat) (by decide) (by decide) hspace
      exact unbroken_cons.mpr ⟨hbreak, ih⟩
  | @escape c rest hc hrest ih =>
      have hbreak := isLineBreak_eq_false_of (· ∈ ['"', '\\', '/', 'b', 'f', 'n', 'r', 't'])
        (by decide) (by decide) hc
      exact unbroken_cons.mpr ⟨by decide, unbroken_cons.mpr ⟨hbreak, ih⟩⟩
  | codePoint hlength hcode hrest ih =>
      have hcode : Unbroken _ := fun c hc => (hcode c hc).not_isLineBreak
      exact unbroken_cons.mpr ⟨by decide, unbroken_cons.mpr
        ⟨by decide, unbroken_append.mpr ⟨hcode, ih⟩⟩⟩

theorem StringText.unbroken {cs : List Char} (h : StringText cs) : Unbroken cs := by
  obtain ⟨hinside⟩ := h
  simp [isLineBreak, hinside.unbroken]

/-- A compact JSON text has no line break. -/
theorem Grammar.unbroken {part : Part} {cs : List Char} (h : Grammar part cs) : Unbroken cs := by
  induction h with
  | nullWord | trueWord | falseWord | emptyArray | emptyObject => simp [isLineBreak]
  | number h => exact h.unbroken
  | string h => exact h.unbroken
  | array h ih => simp [isLineBreak, ih]
  | object h ih => simp [isLineBreak, ih]
  | lastItem h ih => exact ih
  | item h hrest ih ihrest => simp [isLineBreak, ih, ihrest]
  | lastField hkey h ih => simp [isLineBreak, hkey.unbroken, ih]
  | field hkey h hrest ih ihrest => simp [isLineBreak, hkey.unbroken, ih, ihrest]

end TestFlow.Json
