import TestFlow.Proofs.Json.Reader.Values
import TestFlow.Proofs.Json.Reader.Yields
import TestFlow.Script

/-!
# Literals are read back

A literal stands in a step together with other text, so a reader must find its end by itself.  The
reader of quoted texts goes from the opening quote to the first quote that is not escaped; behind a
backslash it takes the next character as an escape.  What was quoted comes back whatever stands
behind it, since each quoted character is read as that one character and none of them as the end
(`inside?_quotedChar`).

No JSON text starts with a single quote.  So the first character of a literal tells which of the two
readers to use, and a literal stands for one value only.

Reference: specification, §3.2 (literals are kept as JSON values) and §4.3 (literals in steps).

## Main definitions

* `unquote?` — the reader of quoted texts.

## Main statement

* `literals_are_read_back` — literals are read back as the values that they were written for.
-/

namespace TestFlow.Script

/-! ## Reading quoted texts -/

/-- The character that is meant by a character behind a backslash. -/
def unescaped? : Char → Option Char
  | '\\' => some '\\'
  | '\'' => some '\''
  | 'n' => some '\n'
  | 'r' => some '\r'
  | _ => none

/-- The characters up to the first quote that is not escaped, and the text behind that quote. -/
def inside? : List Char → Option (List Char × List Char)
  | [] => none
  | '\'' :: rest => some ([], rest)
  | ['\\'] => none
  | '\\' :: c :: rest => do
    let d ← unescaped? c
    let (cs, rest) ← inside? rest
    some (d :: cs, rest)
  | c :: rest => do
    let (cs, rest) ← inside? rest
    some (c :: cs, rest)

/-- Takes a quoted text off the front of a text. -/
def unquote? : List Char → Option (String × List Char)
  | '\'' :: rest => (inside? rest).map fun (cs, rest) => (String.ofList cs, rest)
  | _ => none

/-- A quoted character is read as that character. -/
theorem inside?_quotedChar {c : Char} {cs text rest : List Char}
    (h : inside? text = some (cs, rest)) :
    inside? (quotedChar c ++ text) = some (c :: cs, rest) := by
  unfold quotedChar
  split
  -- a character that stands for itself must not be taken for the end or for the start of an escape
  case h_5 hbackslash hquote _ _ =>
    rw [List.singleton_append, inside?, h]
    · rfl
    · exact hquote
    · rintro rfl
      exact absurd rfl hbackslash
    · rintro d rest' rfl
      exact absurd rfl hbackslash
  all_goals
    rw [List.cons_append, List.singleton_append, inside?, h]
    rfl

/-- Quoted characters are read as those characters, up to the closing quote. -/
theorem inside?_flatMap_quotedChar (cs rest : List Char) :
    inside? (cs.flatMap quotedChar ++ '\'' :: rest) = some (cs, rest) := by
  induction cs with
  | nil => rfl
  | cons c cs ih =>
      rw [List.flatMap_cons, List.append_assoc]
      exact inside?_quotedChar ih

/-- A quoted text is read back, whatever stands behind it. -/
theorem unquote?_quote (s : String) (rest : List Char) :
    unquote? ((quote s).toList ++ rest) = some (s, rest) := by
  have hinside := inside?_flatMap_quotedChar s.toList rest
  simp [quote, quoteChars, unquote?, hinside]

/-- A quoted text with nothing behind it is read to the end. -/
theorem unquote?_quote_alone (s : String) : unquote? (quote s).toList = some (s, []) := by
  have hread := unquote?_quote s []
  rwa [List.append_nil] at hread

/-! ## Literals -/

/-- All values but strings are written as compact JSON. -/
theorem literal_of_ne_string {v : Json} (h : ∀ s, v ≠ .string s) : literal v = v.compact := by
  cases v with
  | string s => exact absurd rfl (h s)
  | _ => rfl

/-- The literals in quotes are those of the strings. -/
theorem head?_literal_eq_quote_iff (v : Json) :
    (literal v).toList.head? = some '\'' ↔ ∃ s, v = .string s := by
  constructor
  · intro hhead
    by_contra hstring
    obtain ⟨c, rest, htext, hc⟩ := Json.Reader.exists_text_eq_cons v
    rw [literal_of_ne_string (not_exists.mp hstring), Json.compact, String.toList_ofList, htext,
      List.head?_cons, Option.some_inj] at hhead
    exact hc.ne (by decide) hhead
  · rintro ⟨s, rfl⟩
    simp [literal, quote, quoteChars]

/-- A literal that is no string is read back as JSON, exactly if its value is one that a reader can
give. -/
theorem parse_literal_iff {v : Json} (hfloat : v.FloatFree) (hstring : ∀ s, v ≠ .string s) :
    Json.parse (literal v) = .ok v ↔ v.DistinctKeys ∧ v.depth < 128 := by
  rw [literal_of_ne_string hstring]
  constructor
  · intro hparse
    obtain ⟨hkeys, hdepth⟩ := Json.Reader.distinctKeys_and_depth_of_parse hparse
    exact ⟨hkeys, Nat.lt_succ_of_le hdepth⟩
  · rintro ⟨hkeys, hdepth⟩
    exact Json.Portable.parse_compact ⟨hfloat, hkeys, hdepth⟩

/-- Two portable values with the same literal are the same. -/
theorem literal_inj {v w : Json} (hv : v.Portable) (hw : w.Portable) (h : literal v = literal w) :
    v = w := by
  -- the first character tells that both are strings or neither is
  have hkind : (∃ s, v = .string s) ↔ ∃ s, w = .string s := by
    rw [← head?_literal_eq_quote_iff v, ← head?_literal_eq_quote_iff w, h]
  by_cases hstring : ∃ s, v = .string s
  · obtain ⟨⟨s, rfl⟩, ⟨t, rfl⟩⟩ := And.intro hstring (hkind.mp hstring)
    have hquotes : quote s = quote t := h
    have hread := unquote?_quote_alone s
    rw [hquotes, unquote?_quote_alone t] at hread
    cases hread
    rfl
  · have hleft := (parse_literal_iff hv.floatFree (not_exists.mp hstring)).mpr
      ⟨hv.distinctKeys, hv.depth_lt⟩
    have hright := (parse_literal_iff hw.floatFree (not_exists.mp (hkind.not.mp hstring))).mpr
      ⟨hw.distinctKeys, hw.depth_lt⟩
    rw [h, hright] at hleft
    exact (Except.ok.inj hleft).symm

/-- A quoted text is read back, whatever stands behind it.  A literal starts with a single quote
exactly if its value is a string, and is then read back as that string.  Any other value without
floating-point numbers is read back from its literal as JSON, exactly if its keys are distinct and
fewer than 128 brackets are open at a time.  So no two such values have the same literal. -/
theorem literals_are_read_back :
    (∀ (s : String) (rest : List Char), unquote? ((quote s).toList ++ rest) = some (s, rest)) ∧
      (∀ v : Json, (literal v).toList.head? = some '\'' ↔ ∃ s, v = .string s) ∧
      (∀ s : String, unquote? (literal (.string s)).toList = some (s, [])) ∧
      (∀ v : Json, v.FloatFree → (∀ s, v ≠ .string s) →
        (Json.parse (literal v) = .ok v ↔ v.DistinctKeys ∧ v.depth < 128)) ∧
      ∀ v w : Json, v.Portable → w.Portable → literal v = literal w → v = w :=
  ⟨unquote?_quote, head?_literal_eq_quote_iff, unquote?_quote_alone,
    fun _ hfloat hstring => parse_literal_iff hfloat hstring, fun _ _ hv hw => literal_inj hv hw⟩

/-- A value whose literal has quotes of both kinds, escapes and a number beyond the signed words. -/
def unrulyValue : Json :=
  .object [("it's", .array [.string "a\\'\n", .number (.integer 9223372036854775808 (by decide)),
    .null]), ("", .object [])]

/-- Such a value is read back, and so is a string of escapes with other text behind it. -/
theorem unrulyValue_is_read_back :
    literal unrulyValue =
        "\x7b\"it's\":[\"a\\\\'\\n\",9223372036854775808,null],\"\":\x7b\x7d\x7d" ∧
      Json.parse (literal unrulyValue) = .ok unrulyValue ∧
      literal (.string "\\'\r\n\\n\\") = "'\\\\\\'\\r\\n\\\\n\\\\'" ∧
      unquote? "'\\\\\\'\\r\\n\\\\n\\\\' = 'b'".toList =
        some ("\\'\r\n\\n\\", " = 'b'".toList) := by
  obtain ⟨hquoted, -, -, hjson, -⟩ := literals_are_read_back
  have hfloat : unrulyValue.FloatFree := by simp [unrulyValue]
  have hread := hjson unrulyValue hfloat (by simp [unrulyValue])
  refine ⟨by decide +kernel, hread.mpr ⟨?_, by decide +kernel⟩, by decide +kernel, ?_⟩
  · simp [unrulyValue]
  · exact hquoted "\\'\r\n\\n\\" " = 'b'".toList

end TestFlow.Script
