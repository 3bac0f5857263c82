import TestFlow.Json.Decode
import TestFlow.Script

/-!
# Checks of a response

Five kinds of components check a response: its status, one field of its body, one of its headers,
its whole body, and the time it took.  Each has the name of a comparison, which may be left out.

Reference: specification, §3.1 (payload fields) and §4.3 (assertions).

## Main definitions

* `Comparison`, `Comparison.requested` — the comparisons, and the one that a name asks for;
* `StatusCheck`, `FieldCheck`, `HeaderCheck`, `SchemaCheck`, `TimeCheck` — the five payloads, each
  with its `shape` and its `draft`.
-/

namespace TestFlow

/-!
## Comparisons

An assertion compares what came back with what was expected.  The comparison is asked for by name,
and each one goes by several names.  Spaces, hyphens and underscores in a name do not count, nor
does the case of its letters.  A name that no comparison goes by asks for equality, so that the
assertion still checks something.
-/

/-- How two values are compared. -/
inductive Comparison where
  | equals
  | notEquals
  | greaterThan
  | lessThan
  | greaterOrEqual
  | lessOrEqual
  | contains
  | notContains
  deriving DecidableEq, Repr

namespace Comparison

def all : List Comparison :=
  [.equals, .notEquals, .greaterThan, .lessThan, .greaterOrEqual, .lessOrEqual, .contains,
    .notContains]

/-- The names that a comparison goes by, in lower case and without spaces, hyphens and
underscores. -/
def aliases : Comparison → List String
  | .equals => ["equals", "equal", "eq", "is", "==", "="]
  | .notEquals => ["notequals", "notequal", "ne", "neq", "isnot", "!="]
  | .greaterThan => ["greaterthan", "gt", ">"]
  | .lessThan => ["lessthan", "lt", "<"]
  | .greaterOrEqual =>
    ["greaterthanorequal", "greaterthanorequals", "greaterorequal", "gte", "ge", ">="]
  | .lessOrEqual => ["lessthanorequal", "lessthanorequals", "lessorequal", "lte", "le", "<="]
  | .contains => ["contains", "includes"]
  | .notContains => ["notcontains", "doesnotcontain", "excludes", "!contains"]

/-- Whether a character does not count in a name. -/
def isFiller (c : Char) : Bool :=
  c == ' ' || c == '-' || c == '_'

/-- A name as the aliases are written.  Only ASCII letters change their case: of all other
characters, the single one with an ASCII letter alone for its lower case is the sign for kelvin, and
no alias has a `k`. -/
def normalized (name : String) : String :=
  String.ofList ((name.toList.filter fun c => !isFiller c).map Char.toLower)

def ofName? (name : String) : Option Comparison :=
  all.find? fun comparison => comparison.aliases.contains (normalized name)

/-- The comparison asked for: the given one if none is named, and equality if the name is not
known. -/
def requested (unnamed : Comparison) : Option String → Comparison
  | none => unnamed
  | some name => (ofName? name).getD .equals

/-- The name of a comparison that is asked for and not known. -/
def unrecognized? : Option String → Option String
  | none => none
  | some name => if (ofName? name).isNone then some name else none

/-- A comparison in the script language. -/
def token : Comparison → String
  | .equals => "=="
  | .notEquals => "!="
  | .greaterThan => ">"
  | .lessThan => "<"
  | .greaterOrEqual => ">="
  | .lessOrEqual => "<="
  | .contains => "contains"
  | .notContains => "!contains"

/-- Whether a comparison asks which of two values is greater.  These are asserted, and the others
are matched. -/
def isOrdering : Comparison → Bool
  | .greaterThan | .lessThan | .greaterOrEqual | .lessOrEqual => true
  | .equals | .notEquals | .contains | .notContains => false

/-- The comparison of numbers, which contain nothing: there, containment reads as equality. -/
def numeric : Comparison → Comparison
  | .contains | .notContains => .equals
  | comparison => comparison

/-- The comparison of whole documents, which have no order: there, an ordering reads as
equality. -/
def structural (comparison : Comparison) : Comparison :=
  if comparison.isOrdering then .equals else comparison

end Comparison

/-!
## Assertions

Five kinds of components check a response: its status, one field of its body, one of its headers,
its whole body, and the time it took.  Each has the name of a comparison, which may be left out.
-/

open Json (Shape)

/-- Checks the status of a response. -/
structure StatusCheck where
  expected : Option Nat
  operator : Option String

def StatusCheck.shape : Shape StatusCheck where
  name := "StatusAssertionConfig"
  empty := ⟨none, none⟩
  slots := [
    .of "expectedStatus" ["statusCode"] Json.natural? fun n check => { check with expected := n },
    .of "operator" [] Json.text? fun s check => { check with operator := s }]

/-- Checks a field of a response, found by its path. -/
structure FieldCheck where
  path : Option String
  expected : Option Json
  operator : Option String

def FieldCheck.shape : Shape FieldCheck where
  name := "FieldAssertionConfig"
  empty := ⟨none, none, none⟩
  slots := [
    .of "fieldPath" ["jsonPath"] Json.text? fun s check => { check with path := s },
    .of "expectedValue" [] Json.literal? fun v check => { check with expected := v },
    .of "operator" [] Json.text? fun s check => { check with operator := s }]

/-- Checks a header of a response. -/
structure HeaderCheck where
  header : Option String
  expected : Option Json
  operator : Option String

def HeaderCheck.shape : Shape HeaderCheck where
  name := "HeaderAssertionConfig"
  empty := ⟨none, none, none⟩
  slots := [
    .of "headerName" [] Json.text? fun s check => { check with header := s },
    .of "expectedValue" [] Json.literal? fun v check => { check with expected := v },
    .of "operator" [] Json.text? fun s check => { check with operator := s }]

/-- Checks the body of a response against a schema. -/
structure SchemaCheck where
  schema : Option Json
  operator : Option String

def SchemaCheck.shape : Shape SchemaCheck where
  name := "SchemaAssertionConfig"
  empty := ⟨none, none⟩
  slots := [
    .of "schema" [] Json.document? fun v check => { check with schema := v },
    .of "operator" [] Json.text? fun s check => { check with operator := s }]

/-- Checks the time that a response took, in milliseconds. -/
structure TimeCheck where
  limit : Option Nat
  operator : Option String

def TimeCheck.shape : Shape TimeCheck where
  name := "ResponseTimeAssertionConfig"
  empty := ⟨none, none⟩
  slots := [
    .of "maxResponseTime" ["maxTime", "threshold"] Json.natural? fun n check =>
      { check with limit := n },
    .of "operator" [] Json.text? fun s check => { check with operator := s }]

/-!
## Steps of assertions

Each assertion is one step.  An assertion that lacks what it checks or what it expects is reported
instead.  The name of its comparison is looked up only if nothing is lacking: `unrecognized?` gives
the name that was then looked up in vain.
-/

/-- The draft that compares an expression with an expected value: an ordering is asserted, any other
comparison is matched. -/
def comparisonDraft (expression : String) (comparison : Comparison) (expected : Json) : Draft :=
  let verb := if comparison.isOrdering then "assert" else "match"
  .instruction .and (verb ++ " " ++ expression ++ " " ++ comparison.token ++ " "
    ++ Script.literal expected)

namespace StatusCheck

/-- The draft of a status check.  Equality has a form of its own. -/
def draft (check : StatusCheck) : Draft :=
  match check.expected with
  | none => .notice "Status assertion is missing an expected status"
  | some expected =>
    match (Comparison.requested .equals check.operator).numeric with
    | .equals => .instruction .then ("status " ++ expected.repr)
    | comparison =>
      .instruction .then ("assert responseStatus " ++ comparison.token ++ " " ++ expected.repr)

def unrecognized? (check : StatusCheck) : Option String :=
  if check.expected.isSome then Comparison.unrecognized? check.operator else none

end StatusCheck

namespace FieldCheck

def draft (check : FieldCheck) : Draft :=
  match check.path, check.expected with
  | none, _ => .notice "Field assertion is missing a field path"
  | some _, none => .notice "Field assertion is missing an expected value"
  | some path, some expected =>
    comparisonDraft (Script.responsePath path) (.requested .equals check.operator) expected

def unrecognized? (check : FieldCheck) : Option String :=
  if check.path.isSome && check.expected.isSome then Comparison.unrecognized? check.operator
  else none

end FieldCheck

namespace HeaderCheck

def draft (check : HeaderCheck) : Draft :=
  match check.header, check.expected with
  | none, _ => .notice "Header assertion is missing a header name"
  | some _, none => .notice "Header assertion is missing an expected value"
  | some header, some expected =>
    comparisonDraft ("karate.response.header(" ++ Script.quote header ++ ")")
      (.requested .equals check.operator) expected

def unrecognized? (check : HeaderCheck) : Option String :=
  if check.header.isSome && check.expected.isSome then Comparison.unrecognized? check.operator
  else none

end HeaderCheck

namespace SchemaCheck

def draft (check : SchemaCheck) : Draft :=
  match check.schema with
  | none => .notice "Schema assertion is missing a schema"
  | some schema =>
    let comparison := (Comparison.requested .equals check.operator).structural
    .instruction .and ("match response " ++ comparison.token ++ " " ++ Script.literal schema)

def unrecognized? (check : SchemaCheck) : Option String :=
  if check.schema.isSome then Comparison.unrecognized? check.operator else none

end SchemaCheck

namespace TimeCheck

/-- The draft of a time check, which asks for less than the limit unless it names a comparison. -/
def draft (check : TimeCheck) : Draft :=
  match check.limit with
  | none => .notice "Response time assertion is missing a time limit"
  | some limit =>
    let comparison := (Comparison.requested .lessThan check.operator).numeric
    .instruction .and ("assert responseTime " ++ comparison.token ++ " " ++ limit.repr)

def unrecognized? (check : TimeCheck) : Option String :=
  if check.limit.isSome then Comparison.unrecognized? check.operator else none

end TimeCheck

end TestFlow
