import TestFlow.Proofs.Script.Grammar
import TestFlow.Proofs.Script.Literal
import TestFlow.Proofs.Text.Basic

/-!
# Reading instructions

An instruction begins with a word that says what it does.  Most instructions are *settings*: behind
the word come a name, an equals sign and an expression.  Words and names have no blanks, so the
first two blanks of a setting tell where its word and its name end, whatever the expression holds.

Reference: specification, §4.3 (`And header <k> = …`, `And param <k> = …`, `And def <name> = …`).

## Main definitions

* `Step.instructions` — the steps that are no diagnostics;
* `Step.command?` — the word of an instruction and what stands behind it;
* `Step.setting?` — the parts of a setting;
* `Step.definedNames` — the variables that steps give values;
* `Script.unquoted?`, `Script.value?` — the text of a literal in quotes, and the value of any
  literal.

## Main statement

* `Step.setting?_instruction` — a setting is read back.
-/

namespace TestFlow

/-! ## Names have no blanks -/

namespace Script

theorem IsToken.blank_not_mem {s : String} (h : IsToken s) : ' ' ∉ s.toList := by
  intro hblank
  exact absurd (h.2 ' ' hblank) (by decide)

/-- The name of a variable has no blanks. -/
theorem IsIdentifier.blank_not_mem {s : String} (h : IsIdentifier s) : ' ' ∉ s.toList := by
  obtain ⟨first, rest, hs, hfirst, hrest⟩ := h
  rw [hs, List.mem_cons, not_or]
  constructor
  · rintro rfl
    exact absurd hfirst (by decide)
  · intro hblank
    exact absurd (hrest ' ' hblank) (by decide)

/-- The text of a literal in quotes, with nothing behind the quotes. -/
def unquoted? (cs : List Char) : Option String :=
  match unquote? cs with
  | some (s, []) => some s
  | _ => none

@[simp] theorem unquoted?_quote (s : String) : unquoted? (quote s).toList = some s := by
  rw [unquoted?, unquote?_quote_alone]

/-- What does not start with a quote is no text in quotes. -/
theorem unquoted?_eq_none {cs : List Char} (h : cs.head? ≠ some '\'') : unquoted? cs = none := by
  have hunquote : unquote? cs = none := by
    unfold unquote?
    split
    · exact absurd rfl h
    · rfl
  rw [unquoted?, hunquote]

/-- The value of a literal: a text in quotes, or JSON with any number of brackets. -/
def value? (cs : List Char) : Option Json :=
  match unquoted? cs with
  | some s => some (.string s)
  | none => (Json.parseDeep (String.ofList cs)).toOption

/-- A value without floating-point numbers and repeated keys is read back from its literal. -/
theorem value?_literal {v : Json} (hfloat : v.FloatFree) (hkeys : v.DistinctKeys) :
    value? (literal v).toList = some v := by
  by_cases hstring : ∃ s, v = .string s
  · obtain ⟨s, rfl⟩ := hstring
    rw [value?, literal, unquoted?_quote]
  · have hquote := (head?_literal_eq_quote_iff v).not.mpr hstring
    rw [value?, unquoted?_eq_none hquote, String.ofList_toList,
      literal_of_ne_string (not_exists.mp hstring), Json.parseDeep_compact hfloat hkeys]
    rfl

end Script

/-! ## Instructions -/

namespace Step

/-- The instructions among steps. -/
def instructions (steps : List Step) : List Step :=
  steps.filter fun step => !step.isDiagnostic

@[simp] theorem instructions_nil : instructions [] = [] := rfl

@[simp] theorem instructions_instruction_cons (keyword : Keyword) (text : String)
    (steps : List Step) :
    instructions (.instruction keyword text :: steps) =
      .instruction keyword text :: instructions steps := rfl

@[simp] theorem instructions_warn_cons (subject message : String) (steps : List Step) :
    instructions (warn subject message :: steps) = instructions steps := rfl

@[simp] theorem instructions_append (steps others : List Step) :
    instructions (steps ++ others) = instructions steps ++ instructions others :=
  List.filter_append steps others

theorem mem_of_mem_instructions {step : Step} {steps : List Step} (h : step ∈ instructions steps) :
    step ∈ steps :=
  (List.mem_filter.mp h).1

/-- The keyword and the first word of an instruction, and what stands behind them. -/
def command? : Step → Option (Keyword × String × List Char)
  | .instruction keyword text =>
    (Text.splitFirst? ' ' text.toList).map fun (word, cs) => (keyword, String.ofList word, cs)
  | .diagnostic _ _ => none

/-- A first word without blanks is read back. -/
theorem command?_instruction {word : String} (hword : ' ' ∉ word.toList) (keyword : Keyword)
    (text : String) :
    command? (.instruction keyword (word ++ " " ++ text)) = some (keyword, word, text.toList) := by
  have hsplit := Text.splitFirst?_append hword text.toList
  simp [command?, hsplit]

/-- What an instruction sets: a word for the kind of thing, the name, and the expression. -/
structure Setting where
  word : String
  name : String
  expression : List Char

def setting? (step : Step) : Option Setting :=
  match step.command? with
  | some (.and, word, cs) =>
    match Text.splitFirst? ' ' cs with
    | some (name, '=' :: ' ' :: expression) => some ⟨word, String.ofList name, expression⟩
    | _ => none
  | _ => none

/-- A setting is read back, whatever its expression holds. -/
theorem setting?_instruction {word name : String} (hword : ' ' ∉ word.toList)
    (hname : ' ' ∉ name.toList) (expression : String) :
    setting? (.instruction .and (word ++ " " ++ name ++ " = " ++ expression)) =
      some ⟨word, name, expression.toList⟩ := by
  -- the word ends at the first blank, and only then is the name looked for
  have htext : word ++ " " ++ name ++ " = " ++ expression =
      word ++ " " ++ (name ++ " = " ++ expression) := by
    simp only [String.append_assoc]
  have hsplit := Text.splitFirst?_append hname ('=' :: ' ' :: expression.toList)
  rw [htext, setting?, command?_instruction hword]
  simp [hsplit]

/-- Only instructions with the keyword `And` are settings. -/
theorem setting?_of_ne_and {keyword : Keyword} (h : keyword ≠ .and) (text : String) :
    setting? (.instruction keyword text) = none := by
  rw [setting?, command?]
  cases Text.splitFirst? ' ' text.toList with
  | none => rfl
  | some parts =>
      cases keyword with
      | and => exact absurd rfl h
      | _ => rfl

/-- The word that gives a variable a value. -/
def definitionWord : String := "def"

/-- A definition is read back. -/
theorem setting?_definition {name : String} (hname : ' ' ∉ name.toList) (expression : String) :
    setting? (.instruction .and ("def " ++ name ++ " = " ++ expression)) =
      some ⟨definitionWord, name, expression.toList⟩ := by
  have hword : "def " = definitionWord ++ " " := by decide
  rw [hword]
  exact setting?_instruction (by decide) hname expression

/-- The name of the variable that a step gives a value. -/
def definedName? (step : Step) : Option String :=
  match step.setting? with
  | some setting => if setting.word = definitionWord then some setting.name else none
  | none => none

/-- The names of the variables that steps give values, in the order of the steps. -/
def definedNames (steps : List Step) : List String :=
  steps.filterMap definedName?

/-- A definition gives the variable that it names a value. -/
theorem definedName?_definition {name : String} (hname : ' ' ∉ name.toList) (expression : String) :
    definedName? (.instruction .and ("def " ++ name ++ " = " ++ expression)) = some name := by
  rw [definedName?, setting?_definition hname]
  exact if_pos rfl

/-- If every instruction gives one variable a value, these are all the variables that the steps give
values: diagnostics give none. -/
theorem definedNames_of_instructions {steps : List Step} {names : List String}
    (h : (instructions steps).map definedName? = names.map some) : definedNames steps = names := by
  have hdiagnostic : ∀ step : Step,
      (if !step.isDiagnostic then step.definedName? else none) = step.definedName? := by
    intro step
    cases step with
    | instruction keyword text => rfl
    | diagnostic subject message => rfl
  calc definedNames steps
    _ = (instructions steps).filterMap definedName? := by
        rw [instructions, List.filterMap_filter, definedNames]
        simp only [hdiagnostic]
    _ = ((instructions steps).map definedName?).filterMap id := by
        rw [List.filterMap_map, Function.id_comp]
    _ = names := by
        rw [h, List.filterMap_map, Function.id_comp, List.filterMap_some]

end Step

end TestFlow
