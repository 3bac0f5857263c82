import TestFlow.Check
import TestFlow.Proofs.Json.Grammar
import TestFlow.Request
import TestFlow.Script
import TestFlow.Text.Basic

/-!
# The lines of the script language

A component may only give instructions of a few forms.  Each form is a fixed wording with places for
texts of certain classes: quoted texts, names, numbers, comparisons and literals.  The classes are
closed: a quoted text ends at its closing quote, a name has no blanks, a literal is quoted or
compact JSON.  So nothing that a user writes into a component can end its place and go on as another
instruction.

The grammar is stated for itself, by the characters that each class allows.  The functions that
write into steps are then shown to stay inside their class.

Reference: specification, §3 (a step is a single line) and §4.3 (the wording of the steps).

## Main definitions

* `IsQuoted`, `IsToken`, `IsIdentifier`, `IsDecimal`, `IsMethod`, `IsOperator`, `IsLiteral` — the
  classes of texts;
* `Sentence` — the instructions, by keyword and text;
* `Draft.Sound` — the drafts whose instructions are sentences.

## Main statement

* `Sentence.unbroken` — an instruction of the language has no line break.
-/

namespace TestFlow.Script

open Text (Unbroken unbroken_cons unbroken_append unbroken_nil isLineBreak
  isLineBreak_eq_false_of)

/-! ## Classes of texts -/

/-- What may stand between single quotes: the quote, the backslash and the two line breaks only by
their escapes. -/
inductive QuotedInside : List Char → Prop
  | nil : QuotedInside []
  | plain {c : Char} {rest : List Char} (hc : c ∉ ['\\', '\'', '\n', '\r'])
      (hrest : QuotedInside rest) : QuotedInside (c :: rest)
  | escape {c : Char} {rest : List Char} (hc : c ∈ ['\\', '\'', 'n', 'r'])
      (hrest : QuotedInside rest) : QuotedInside ('\\' :: c :: rest)

/-- A text in single quotes. -/
def IsQuoted (s : String) : Prop :=
  ∃ inside, QuotedInside inside ∧ s.toList = '\'' :: (inside ++ ['\''])

/-- The name of a header field: letters, digits and fifteen marks, at least one of them. -/
def IsToken (s : String) : Prop :=
  s.toList ≠ [] ∧ ∀ c ∈ s.toList,
    c.isAlphanum = true ∨ c ∈ ['!', '#', '$', '%', '&', '\'', '*', '+', '.', '^', '_', '\x60', '|',
      '~', '-']

/-- The name of a variable: a letter or underscore, then letters, digits and underscores. -/
def IsIdentifier (s : String) : Prop :=
  ∃ first rest, s.toList = first :: rest ∧ (first.isAlpha = true ∨ first = '_') ∧
    ∀ c ∈ rest, c.isAlphanum = true ∨ c = '_'

/-- A number in decimal digits. -/
def IsDecimal (s : String) : Prop :=
  Decimal.Whole s.toList

/-- The name of a request method. -/
def IsMethod (s : String) : Prop :=
  s ∈ ["GET", "POST", "PUT", "PATCH", "DELETE"]

/-- The sign of a comparison. -/
def IsOperator (s : String) : Prop :=
  s ∈ ["==", "!=", ">", "<", ">=", "<=", "contains", "!contains"]

/-- A value: a quoted text or compact JSON. -/
def IsLiteral (s : String) : Prop :=
  IsQuoted s ∨ Json.Grammar .value s.toList

/-! ## Instructions -/

/-- The instructions that a component may give. -/
inductive Sentence : Keyword → String → Prop
  | url {address : String} (haddress : IsQuoted address) :
      Sentence .given ("url " ++ address)
  | header {name value : String} (hname : IsToken name) (hvalue : IsQuoted value) :
      Sentence .and ("header " ++ name ++ " = " ++ value)
  | param {name value : String} (hname : IsToken name) (hvalue : IsQuoted value) :
      Sentence .and ("param " ++ name ++ " = " ++ value)
  | body {value : String} (hvalue : IsLiteral value) :
      Sentence .and ("def requestBody = " ++ value)
  | request : Sentence .and "request requestBody"
  | formFields : Sentence .and "form fields requestBody"
  | method {name : String} (hname : IsMethod name) : Sentence .when ("method " ++ name)
  | status {number : String} (hnumber : IsDecimal number) : Sentence .then ("status " ++ number)
  | statusCheck {operator number : String} (hoperator : IsOperator operator)
      (hnumber : IsDecimal number) :
      Sentence .then ("assert responseStatus " ++ operator ++ " " ++ number)
  | timeCheck {operator number : String} (hoperator : IsOperator operator)
      (hnumber : IsDecimal number) :
      Sentence .and ("assert responseTime " ++ operator ++ " " ++ number)
  | headerCheck {verb name operator value : String} (hverb : verb ∈ ["match", "assert"])
      (hname : IsQuoted name) (hoperator : IsOperator operator) (hvalue : IsLiteral value) :
      Sentence .and
        (verb ++ " karate.response.header(" ++ name ++ ") " ++ operator ++ " " ++ value)
  | schemaCheck {operator value : String} (hoperator : IsOperator operator)
      (hvalue : IsLiteral value) : Sentence .and ("match response " ++ operator ++ " " ++ value)
  | extraction {name path : String} (hname : IsIdentifier name) (hpath : IsQuoted path) :
      Sentence .and ("def " ++ name ++ " = karate.jsonPath(response, " ++ path ++ ")")
  | extractionOr {name path value : String} (hname : IsIdentifier name) (hpath : IsQuoted path)
      (hvalue : IsLiteral value) :
      Sentence .and
        ("def " ++ name ++ " = karate.jsonPath(response, " ++ path ++ ")" ++ " || " ++ value)
  | collection {names : List String} (hne : names ≠ [])
      (hnames : ∀ name ∈ names, IsIdentifier name) :
      Sentence .and ("def extractedVariables = \x7b " ++
        ", ".intercalate (names.map fun name => name ++ ": '#(" ++ name ++ ")'") ++ " \x7d")
  | assignment {name value : String} (hname : IsIdentifier name) (hvalue : IsLiteral value) :
      Sentence .and ("def " ++ name ++ " = " ++ value)
  | print {message : String} (hmessage : IsQuoted message) : Sentence .star ("print " ++ message)

/-! ## Writing stays inside the classes -/

/-- A quoted character may stand between quotes, by itself or by its escape. -/
theorem quotedInside_quotedChar (c : Char) {rest : List Char} (hrest : QuotedInside rest) :
    QuotedInside (quotedChar c ++ rest) := by
  unfold quotedChar
  split
  -- the last case is that of the characters that stand for themselves
  case h_5 hbackslash hquote hlineFeed hreturn =>
    have hc : c ∉ ['\\', '\'', '\n', '\r'] := by
      simp only [List.mem_cons, List.not_mem_nil, or_false, not_or]
      exact ⟨hbackslash, hquote, hlineFeed, hreturn⟩
    exact .plain hc hrest
  all_goals exact .escape (by decide) hrest

/-- Quoting gives a text in single quotes. -/
theorem isQuoted_quote (s : String) : IsQuoted (quote s) := by
  have hinside : QuotedInside (s.toList.flatMap quotedChar) := by
    induction s.toList with
    | nil => exact .nil
    | cons c cs ih => exact quotedInside_quotedChar c ih
  exact ⟨_, hinside, String.toList_ofList⟩

/-- Compact JSON is a literal. -/
theorem isLiteral_compact (v : Json) : IsLiteral v.compact := by
  refine Or.inr ?_
  rw [Json.compact, String.toList_ofList]
  exact Json.grammar_text v

theorem isLiteral_quote (s : String) : IsLiteral (quote s) :=
  Or.inl (isQuoted_quote s)

/-- What is written for a value is a literal. -/
theorem isLiteral_literal (v : Json) : IsLiteral (literal v) := by
  unfold literal
  split
  · exact isLiteral_quote _
  · exact isLiteral_compact _

/-- The names that are checked as tokens are those of the grammar. -/
theorem isToken_iff {name : String} : Text.isToken name = true ↔ IsToken name := by
  simp only [Text.isToken, Bool.and_eq_true, Bool.not_eq_true', List.isEmpty_eq_false_iff,
    List.all_eq_true, Text.isTokenChar, Bool.or_eq_true, List.contains_iff_mem]
  rfl

/-- The names that are checked as names of variables are those of the grammar. -/
theorem isIdentifier_iff {name : String} : Text.isIdentifier name = true ↔ IsIdentifier name := by
  unfold Text.isIdentifier IsIdentifier
  cases name.toList with
  | nil => simp
  | cons first rest =>
      simp only [Bool.and_eq_true, List.all_eq_true, Text.isIdentifierStart, Text.isIdentifierChar,
        Bool.or_eq_true, beq_iff_eq]
      constructor
      · intro h
        exact ⟨first, rest, rfl, h⟩
      · rintro ⟨_, _, ⟨⟩, h⟩
        exact h

theorem isDecimal_repr (n : Nat) : IsDecimal n.repr := by
  rw [IsDecimal, Nat.repr, String.toList_ofList]
  exact Decimal.whole_toDigits n

theorem isMethod_name (method : Method) : IsMethod method.name := by
  unfold IsMethod
  cases method <;> decide

theorem isOperator_token (comparison : Comparison) : IsOperator comparison.token := by
  unfold IsOperator
  cases comparison <;> decide

/-! ## Instructions are unbroken -/

/-- Line breaks stand between quotes only by their escapes. -/
theorem QuotedInside.unbroken {cs : List Char} (h : QuotedInside cs) : Unbroken cs := by
  induction h with
  | nil => exact unbroken_nil
  | @plain c rest hc hrest ih =>
      have hbreak : isLineBreak c = false := by
        simp only [List.mem_cons, List.not_mem_nil, or_false, not_or] at hc
        simp [isLineBreak, hc]
      exact unbroken_cons.mpr ⟨hbreak, ih⟩
  | @escape c rest hc hrest ih =>
      have hbreak := isLineBreak_eq_false_of (· ∈ ['\\', '\'', 'n', 'r']) (by decide) (by decide) hc
      exact unbroken_cons.mpr ⟨by decide, unbroken_cons.mpr ⟨hbreak, ih⟩⟩

theorem IsQuoted.unbroken {s : String} (h : IsQuoted s) : Unbroken s.toList := by
  obtain ⟨inside, hinside, hs⟩ := h
  simp [hs, isLineBreak, hinside.unbroken]

/-- A literal has no line break, be it quoted or JSON. -/
theorem IsLiteral.unbroken {s : String} (h : IsLiteral s) : Unbroken s.toList := by
  rcases h with hquoted | hjson
  · exact hquoted.unbroken
  · exact hjson.unbroken

theorem isLineBreak_of_isAlphanum {c : Char} (h : c.isAlphanum = true) : isLineBreak c = false :=
  isLineBreak_eq_false_of (·.isAlphanum = true) (by decide) (by decide) h

/-- The name of a header field has no line break. -/
theorem IsToken.unbroken {s : String} (h : IsToken s) : Unbroken s.toList := by
  intro c hc
  rcases h.2 c hc with halnum | hmark
  · exact isLineBreak_of_isAlphanum halnum
  · exact isLineBreak_eq_false_of (· ∈ _) (by decide) (by decide) hmark

/-- The name of a variable has no line break. -/
theorem IsIdentifier.unbroken {s : String} (h : IsIdentifier s) : Unbroken s.toList := by
  obtain ⟨first, rest, hs, hfirst, hrest⟩ := h
  have halpha : first.isAlphanum = true ∨ first = '_' := by
    rcases hfirst with halpha | hunderscore
    · exact Or.inl (by simp [Char.isAlphanum, halpha])
    · exact Or.inr hunderscore
  have hchar : ∀ c, c.isAlphanum = true ∨ c = '_' → isLineBreak c = false := by
    rintro c (halnum | rfl)
    · exact isLineBreak_of_isAlphanum halnum
    · decide
  rw [hs, unbroken_cons]
  exact ⟨hchar first halpha, fun c hc => hchar c (hrest c hc)⟩

theorem IsDecimal.unbroken {s : String} (h : IsDecimal s) : Unbroken s.toList :=
  Decimal.Whole.unbroken h

theorem IsMethod.unbroken {s : String} (h : IsMethod s) : Unbroken s.toList := by
  simp only [IsMethod, List.mem_cons, List.not_mem_nil, or_false] at h
  rcases h with rfl | rfl | rfl | rfl | rfl <;> simp [isLineBreak]

theorem IsOperator.unbroken {s : String} (h : IsOperator s) : Unbroken s.toList := by
  simp only [IsOperator, List.mem_cons, List.not_mem_nil, or_false] at h
  rcases h with rfl | rfl | rfl | rfl | rfl | rfl | rfl | rfl <;> simp [isLineBreak]

/-- Parts without line breaks have none when they are joined by a divider without one. -/
theorem unbroken_intercalate {divider : String} {parts : List String}
    (hdivider : Unbroken divider.toList) (hparts : ∀ part ∈ parts, Unbroken part.toList) :
    Unbroken (divider.intercalate parts).toList := by
  rw [String.toList_intercalate]
  induction parts with
  | nil => simp
  | cons part rest ih =>
      obtain ⟨hpart, hrest⟩ := List.forall_mem_cons.mp hparts
      cases rest with
      | nil => simpa using hpart
      | cons next rest =>
          have ih := ih hrest
          simp only [List.map_cons, List.intercalate_cons_cons, unbroken_append] at ih ⊢
          exact ⟨⟨hpart, hdivider⟩, ih⟩

/-- An instruction of the language has no line break. -/
theorem Sentence.unbroken {keyword : Keyword} {text : String} (h : Sentence keyword text) :
    Unbroken text.toList := by
  -- The fixed wording of each form has no line break, and what stands in its places has none by the
  -- class that it belongs to.
  cases h with
  | url haddress => simp [isLineBreak, haddress.unbroken]
  | header hname hvalue => simp [isLineBreak, hname.unbroken, hvalue.unbroken]
  | param hname hvalue => simp [isLineBreak, hname.unbroken, hvalue.unbroken]
  | body hvalue => simp [isLineBreak, hvalue.unbroken]
  | request => simp [isLineBreak]
  | formFields => simp [isLineBreak]
  | method hname => simp [isLineBreak, hname.unbroken]
  | status hnumber => simp [isLineBreak, hnumber.unbroken]
  | statusCheck hoperator hnumber => simp [isLineBreak, hoperator.unbroken, hnumber.unbroken]
  | timeCheck hoperator hnumber => simp [isLineBreak, hoperator.unbroken, hnumber.unbroken]
  | headerCheck hverb hname hoperator hvalue =>
      simp only [List.mem_cons, List.not_mem_nil, or_false] at hverb
      rcases hverb with rfl | rfl <;>
        simp [isLineBreak, hname.unbroken, hoperator.unbroken, hvalue.unbroken]
  | schemaCheck hoperator hvalue => simp [isLineBreak, hoperator.unbroken, hvalue.unbroken]
  | extraction hname hpath => simp [isLineBreak, hname.unbroken, hpath.unbroken]
  | extractionOr hname hpath hvalue =>
      simp [isLineBreak, hname.unbroken, hpath.unbroken, hvalue.unbroken]
  | @collection names hne hnames =>
      have hfields : ∀ part ∈ names.map fun name => name ++ ": '#(" ++ name ++ ")'",
          Unbroken part.toList := by
        intro part hpart
        obtain ⟨name, hname, rfl⟩ := List.mem_map.mp hpart
        simp [isLineBreak, (hnames name hname).unbroken]
      have hjoined := unbroken_intercalate (by simp [isLineBreak] : Unbroken ", ".toList) hfields
      simp only [String.toList_append, unbroken_append]
      exact ⟨⟨by simp [isLineBreak], hjoined⟩, by simp [isLineBreak]⟩
  | assignment hname hvalue => simp [isLineBreak, hname.unbroken, hvalue.unbroken]
  | print hmessage => simp [isLineBreak, hmessage.unbroken]

/-- Making an instruction of the language leaves its text as it is. -/
theorem Sentence.say_eq {keyword : Keyword} {text : String} (h : Sentence keyword text) :
    Step.say keyword text = .instruction keyword text := by
  rw [Step.say, Text.oneLine_of_unbroken h.unbroken]

end TestFlow.Script

namespace TestFlow

/-- A draft is sound if what it instructs is a sentence as it was put together.  A notice may say
anything. -/
def Draft.Sound : Draft → Prop
  | .instruction keyword text => Script.Sentence keyword text
  | .notice _ => True

end TestFlow
