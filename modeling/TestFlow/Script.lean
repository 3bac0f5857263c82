import TestFlow.Text.Basic
import TestFlow.Json.Basic

/-!
# Scenarios and their steps

A flow is compiled to a scenario in a script language for testing interfaces.  This module has its
steps, the literals that stand in them, and the document around them.

Reference: specification, §3 (step, compiled document), §4.3 (diagnostic step text) and §4.4
(document assembler).

## Main definitions

* `Step`, `Step.say`, `Step.warn` — steps, and how they are made;
* `Draft`, `Draft.step` — what a component has to say, and the step that says it;
* `Script.quote`, `Script.literal` — texts and values as literals;
* `Script.responsePath` — a path as an expression on the response;
* `Document`, `Document.render` — a document and its text.
-/

namespace TestFlow

/-!
## Steps of a scenario

A step is one line of a scenario: an instruction to the test runner, or a diagnostic that stands in
for instructions which a component could not give.  A diagnostic is written as a comment, so that
the scenario still runs.  Steps are made by `Step.say` and `Step.warn`, which keep a step on one
line.
-/

/-- The keyword that opens an instruction. -/
inductive Keyword where
  | given
  | when
  | then
  | and
  | star
  deriving DecidableEq, Repr

/-- A keyword as it stands in a scenario. -/
def Keyword.text : Keyword → String
  | .given => "Given"
  | .when => "When"
  | .then => "Then"
  | .and => "And"
  | .star => "*"

def Keyword.name : Keyword → String
  | .star => "Star"
  | keyword => keyword.text

/-- One line of a scenario. -/
inductive Step where
  /-- An instruction to the test runner. -/
  | instruction (keyword : Keyword) (text : String)
  /-- A notice about the component or connection with the id `subject`. -/
  | diagnostic (subject : String) (message : String)
  deriving DecidableEq, Repr

namespace Step

/-- An instruction on one line. -/
def say (keyword : Keyword) (text : String) : Step :=
  .instruction keyword (Text.oneLine text)

/-- A diagnostic on one line. -/
def warn (subject message : String) : Step :=
  .diagnostic (Text.oneLine subject) (Text.oneLine message)

def isDiagnostic : Step → Bool
  | .instruction _ _ => false
  | .diagnostic _ _ => true

/-- A step as it stands in a scenario, without indentation. -/
def line : Step → String
  | .instruction keyword text => keyword.text ++ " " ++ text
  | .diagnostic subject message => "# WARNING [" ++ subject ++ "]: " ++ message

end Step

/-- What a component has to say in one step: an instruction, or a notice in its place.  A draft has
the text as it was put together, whatever line breaks it holds. -/
inductive Draft where
  | instruction (keyword : Keyword) (text : String)
  | notice (message : String)

/-- The step of a draft, which is about the component with the id `subject`. -/
def Draft.step (subject : String) : Draft → Step
  | .instruction keyword text => .say keyword text
  | .notice message => .warn subject message

end TestFlow

namespace TestFlow.Script

/-!
## Expressions of the script language

Values are written into steps as literals of the script language.  A text becomes a literal in
single quotes, in which the quote, the backslash and the two line breaks are escaped, so that it
stays on one line.  All other values are written as compact JSON, which the script language reads as
it is.
-/

/-- One character of a quoted text. -/
def quotedChar (c : Char) : List Char :=
  match c with
  | '\\' => ['\\', '\\']
  | '\'' => ['\\', '\'']
  | '\n' => ['\\', 'n']
  | '\r' => ['\\', 'r']
  | c => [c]

/-- The characters of a text in single quotes. -/
def quoteChars (cs : List Char) : List Char :=
  '\'' :: cs.flatMap quotedChar ++ ['\'']

/-- A text in single quotes. -/
def quote (s : String) : String :=
  String.ofList (quoteChars s.toList)

/-- A value as a literal. -/
def literal : Json → String
  | .string s => quote s
  | v => v.compact

/-- Pairs of texts as an object.  A key that comes again keeps its first place and takes its last
value. -/
def objectOf (pairs : List (String × String)) : Json :=
  .object (pairs.foldl (fun fields (key, value) => Fields.insert key (.string value) fields) [])

/-- The variable that holds the body of the response. -/
def responseVariable : String := "response"

/-- A path to a part of the response, as an expression on the variable that holds it.  A path may
start at the root sign, at the variable itself, or at one of its fields. -/
def responsePath (path : String) : String :=
  let cs := Text.trim path.toList
  match cs with
  | [] => responseVariable
  -- the root sign stands for the variable, whatever follows it
  | '$' :: rest => responseVariable ++ String.ofList rest
  | '[' :: _ => responseVariable ++ String.ofList cs
  | cs =>
    if startsAtResponse cs then String.ofList cs
    else responseVariable ++ "." ++ String.ofList cs
where
  /-- Whether a path names the variable, alone or before a field or an index. -/
  startsAtResponse (cs : List Char) : Bool :=
    let name := responseVariable.toList
    cs.take name.length == name &&
      match cs.drop name.length with
      | [] => true
      | c :: _ => c == '.' || c == '['

end TestFlow.Script

namespace TestFlow

/-!
## Feature documents

A flow compiles to a feature with a single scenario.  The document is rendered with the titles of
the feature and of the scenario, a blank line between them, and every step on an indented line of
its own.
-/

/-- A feature with one scenario. -/
structure Document where
  feature : String
  scenario : String
  steps : List Step
  deriving DecidableEq, Repr

namespace Document

/-- The document of the given steps under the titles that every compiled flow has. -/
def ofSteps (steps : List Step) : Document where
  feature := "Generated API Test"
  scenario := "Visual Flow Test"
  steps := steps

def diagnosticCount (document : Document) : Nat :=
  document.steps.countP Step.isDiagnostic

/-- A line of the scenario, indented. -/
def bodyLine (step : Step) : String :=
  "  " ++ step.line ++ "\n"

def render (document : Document) : String :=
  "Feature: " ++ document.feature ++ "\n\nScenario: " ++ document.scenario ++ "\n"
    ++ String.join (document.steps.map bodyLine)

end Document

end TestFlow
