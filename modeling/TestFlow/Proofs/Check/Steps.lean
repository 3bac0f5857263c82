import TestFlow.Proofs.Component.Sentences

/-!
# The step of a check

A check that lacks nothing makes one step.  It has a verb, what is looked at in the response, the
sign of a comparison and the value expected there.  Only the status that is simply expected has
words of its own.

The five kinds of checks differ in what they look at, in the comparison they make if none is named,
and in the comparisons they can make at all.  Numbers contain nothing and documents have no order; a
comparison that a kind of check cannot make becomes equality.

Reference: specification, §4.3 (assertions).

## Main definitions

* `Compares` — a check that lacks nothing, with what it looks at and what it expects there;
* `comparison` — the comparison that a check makes;
* `words` — the step of a check up to the value that is expected.

## Main statement

* `Compares.steps_eq` — the step of a check.
-/

namespace TestFlow

open Script

/-- Documents are not put in order. -/
theorem Comparison.isOrdering_structural (comparison : Comparison) :
    comparison.structural.isOrdering = false := by
  cases comparison <;> rfl

namespace Kind

/-- The comparison that a check makes if none is named. -/
def unnamed : Kind → Comparison
  | .timeCheck => .lessThan
  | _ => .equals

/-- The comparison that a check makes when it is asked for another. -/
def settled : Kind → Comparison → Comparison
  | .statusCheck, comparison => comparison.numeric
  | .timeCheck, comparison => comparison.numeric
  | .schemaCheck, comparison => comparison.structural
  | _, comparison => comparison

/-- The verb of a check that makes a comparison. -/
def verb : Kind → Comparison → String
  | .statusCheck, _ => "assert"
  | .timeCheck, _ => "assert"
  | _, comparison => if comparison.isOrdering then "assert" else "match"

/-- The keyword that opens the step of a check. -/
def checkKeyword : Kind → Keyword
  | .statusCheck => .then
  | _ => .and

end Kind

namespace Component

/-- The name of the comparison that a check is asked for. -/
def operator : Component → Option String
  | .statusCheck check => check.operator
  | .fieldCheck check => check.operator
  | .headerCheck check => check.operator
  | .schemaCheck check => check.operator
  | .timeCheck check => check.operator
  | _ => none

def comparison (check : Component) : Comparison :=
  check.kind.settled (.requested check.kind.unnamed check.operator)

/-- A check that lacks nothing, with what it looks at and the value it expects there, as both are
written. -/
inductive Compares : Component → String → String → Prop
  | status (n : Nat) (operator : Option String) :
      Compares (.statusCheck ⟨some n, operator⟩) "responseStatus" n.repr
  | field (path : String) (expected : Json) (operator : Option String) :
      Compares (.fieldCheck ⟨some path, some expected, operator⟩)
        (Text.oneLine (responsePath path)) (literal expected)
  | header (name : String) (expected : Json) (operator : Option String) :
      Compares (.headerCheck ⟨some name, some expected, operator⟩)
        ("karate.response.header(" ++ quote name ++ ")") (literal expected)
  | schema (schema : Json) (operator : Option String) :
      Compares (.schemaCheck ⟨some schema, operator⟩) "response" (literal schema)
  | time (n : Nat) (operator : Option String) :
      Compares (.timeCheck ⟨some n, operator⟩) "responseTime" n.repr

/-- The step of a check up to the value that is expected. -/
def words (check : Component) (subject : String) : String :=
  if check.kind = .statusCheck ∧ check.comparison = .equals then "status"
  else check.kind.verb check.comparison ++ " " ++ subject ++ " " ++ check.comparison.token

/-- A comparison is written on one line, whatever it looks at. -/
theorem comparisonDraft_step (id expression : String) (comparison : Comparison) (expected : Json) :
    (comparisonDraft expression comparison expected).step id =
      .instruction .and ((if comparison.isOrdering then "assert" else "match") ++ " "
        ++ Text.oneLine expression ++ " " ++ comparison.token ++ " " ++ literal expected) := by
  have hverb : Text.Unbroken
      ((if comparison.isOrdering then "assert" else "match") ++ " ").toList := by
    split <;> simp [Text.isLineBreak]
  have hbehind : Text.Unbroken (" " ++ comparison.token ++ " " ++ literal expected).toList := by
    have htoken := (isOperator_token comparison).unbroken
    have hliteral := (isLiteral_literal expected).unbroken
    simp [htoken, hliteral, Text.isLineBreak]
  -- A line feed at the seam would be joined with a carriage return that the expression ends with.
  have hblank : (" " ++ comparison.token ++ " " ++ literal expected).toList.head? ≠ some '\n' := by
    simp
  have hline := Text.oneLine_append hblank expression
  rw [Text.oneLine_of_unbroken hbehind] at hline
  have hall := Text.oneLine_append_of_unbroken hverb
    (expression ++ (" " ++ comparison.token ++ " " ++ literal expected))
  rw [hline] at hall
  simp only [comparisonDraft, Draft.step, Step.say, String.append_assoc] at hall ⊢
  rw [hall]

/-- Only a status check has words of its own. -/
theorem words_of_ne {check : Component} (h : check.kind ≠ .statusCheck) (subject : String) :
    check.words subject =
      check.kind.verb check.comparison ++ " " ++ subject ++ " " ++ check.comparison.token :=
  if_neg fun hstatus => h hstatus.1

/-- The step of a status check, which has words of its own for equality. -/
theorem status_steps_eq (n : Nat) (operator : Option String) (id : String) :
    (Component.statusCheck ⟨some n, operator⟩).steps id = [.instruction .then
      ((Component.statusCheck ⟨some n, operator⟩).words "responseStatus" ++ " " ++ n.repr)] := by
  have hchecked : ∀ comparison : Comparison,
      Step.say .then ("assert responseStatus " ++ comparison.token ++ " " ++ n.repr) =
        .instruction .then ("assert" ++ " " ++ "responseStatus" ++ " " ++ comparison.token ++ " "
          ++ n.repr) :=
    fun comparison =>
      (Sentence.statusCheck (isOperator_token comparison) (isDecimal_repr n)).say_eq
  have hplain : Step.say .then ("status " ++ n.repr) = .instruction .then ("status " ++ n.repr) :=
    (Sentence.status (isDecimal_repr n)).say_eq
  have hcomparison : (Component.statusCheck ⟨some n, operator⟩).comparison =
      (Comparison.requested .equals operator).numeric := rfl
  simp only [words, hcomparison, steps, drafts, StatusCheck.draft, Component.kind,
    List.map_singleton]
  -- From here on it does not matter which name was asked for, only which comparison is made.
  generalize (Comparison.requested .equals operator).numeric = comparison
  cases comparison with
  | equals => exact congrArg (fun step => [step]) hplain
  | _ => exact congrArg (fun step => [step]) (hchecked _)

/-- The step of a check. -/
theorem Compares.steps_eq {check : Component} {subject expected : String}
    (h : check.Compares subject expected) (id : String) :
    check.steps id =
      [.instruction check.kind.checkKeyword (check.words subject ++ " " ++ expected)] := by
  cases h with
  | status n operator => exact status_steps_eq n operator id
  | field path expected operator =>
      rw [words_of_ne Kind.noConfusion]
      exact congrArg (fun step => [step]) (comparisonDraft_step id _ _ expected)
  | header name expected operator =>
      rw [words_of_ne Kind.noConfusion]
      -- The header is quoted, so nothing has to be joined.
      have hsound := HeaderCheck.sound_comparisonDraft name (.requested .equals operator) expected
      exact congrArg (fun step => [step]) hsound.spoken_instruction.symm
  | schema schema operator =>
      have hverb : Kind.verb .schemaCheck
          (Component.schemaCheck ⟨some schema, operator⟩).comparison = "match" :=
        congrArg (fun ordering : Bool => if ordering then "assert" else "match")
          (Comparison.isOrdering_structural (.requested .equals operator))
      rw [words_of_ne Kind.noConfusion, Component.kind, hverb]
      exact congrArg (fun step => [step])
        (Sentence.schemaCheck (isOperator_token _) (isLiteral_literal schema)).say_eq
  | time n operator =>
      rw [words_of_ne Kind.noConfusion]
      exact congrArg (fun step => [step])
        (Sentence.timeCheck (isOperator_token _) (isDecimal_repr n)).say_eq

end Component

end TestFlow
