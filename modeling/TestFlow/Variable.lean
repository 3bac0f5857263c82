import TestFlow.Json.Decode
import TestFlow.Sift
import TestFlow.Text.Basic

/-!
# Variables

One kind of component takes values out of a response into variables, another gives variables values
of its own, and a third prints a message.

Reference: specification, §3.1 (payload fields) and §4.3 (variable extraction, variable setting, log
message).

## Main definitions

* `Extraction`, `Extraction.decodeAll`, `Extraction.drafts` — values taken out of a response;
* `Assignments`, `Assignments.drafts` — values of a component's own;
* `Extraction.binder`, `Assignment.binder` — how the entries of the two bind their variables;
* `Message`, `Message.draft` — messages.
-/

namespace TestFlow

/-!
## Payloads

An extraction may be listed with others, or stand in the payload itself.  A list that is not empty
counts alone, though the fields beside it must decode too.
-/

open Json (DecodeError Shape)

/-- Takes a value out of a response by its path, or a default if there is none. -/
structure Extraction where
  name : Option String
  path : Option String
  fallback : Option Json

namespace Extraction

def shape : Shape Extraction where
  name := "Extraction"
  empty := ⟨none, none, none⟩
  slots := [
    .of "variableName" [] Json.text? fun s extraction => { extraction with name := s },
    .of "jsonPath" ["path"] Json.text? fun s extraction => { extraction with path := s },
    .of "defaultValue" [] Json.literal? fun v extraction => { extraction with fallback := v }]

/-- Whether none of the fields has a value. -/
def isEmpty (extraction : Extraction) : Bool :=
  extraction.name.isNone && extraction.path.isNone && extraction.fallback.isNone

/-- Decodes the list of extractions of a payload; null is as good as none. -/
def decodeList : Option Json → Except DecodeError (List Extraction)
  | none => .ok []
  | some .null => .ok []
  | some v => Json.list shape.decode v

/-- Decodes the extractions of a payload, which must be an object: those listed, or else the one
whose fields stand in the payload itself. -/
def decodeAll : Json → Except DecodeError (List Extraction)
  | .object fields => do
    let listed ← decodeList (Fields.get? "extractions" fields)
    -- decoded even if there is a list, so that a fault in these fields is not overlooked
    let inline ← Shape.fromFields shape.slots [] shape.empty fields
    if !listed.isEmpty then .ok listed
    else if inline.isEmpty then .ok []
    else .ok [inline]
  | v => .error (.mismatch (.wrongType v.found (.record "ExtractWire")))

end Extraction

/-- Gives a variable a value. -/
structure Assignment where
  name : Option String
  value : Option Json

def Assignment.shape : Shape Assignment where
  name := "VariableEntry"
  empty := ⟨none, none⟩
  slots := [
    .of "name" ["variableName"] Json.text? fun s assignment => { assignment with name := s },
    .of "value" [] Json.literal? fun v assignment => { assignment with value := v }]

/-- The assignments of one component. -/
structure Assignments where
  entries : List Assignment

def Assignments.shape : Shape Assignments where
  name := "SetVariableConfig"
  empty := ⟨[]⟩
  slots := [
    .of "variables" [] (Json.list Assignment.shape.decode) fun list _ => ⟨list⟩]

/-- Prints a message. -/
structure Message where
  text : Option String

def Message.shape : Shape Message where
  name := "LogMessageConfig"
  empty := ⟨none⟩
  slots := [.of "message" [] Json.text? fun s message => { message with text := s }]

/-!
## Steps of variables

Each entry of a list of extractions or assignments is one step, or a notice of why it cannot be
carried out.  The extractions of a component end with a step that collects all extracted variables
in one object.
-/

namespace Extraction

/-- An extraction that can be carried out. -/
structure Binding where
  name : String
  path : String
  fallback : Option Json

/-- Why an extraction cannot be carried out. -/
inductive Problem where
  | incomplete
  | badName (name : String)
  | badPath (path : String)
  | repeated (name : String)

/-- The sign for the root of a response, which every path must start with. -/
def rootSign : Char := '$'

def Problem.message : Problem → String
  | .incomplete => "variable name and JSON path are both required"
  | .badName name => "'" ++ name ++ "' is not a valid variable name"
  | .badPath path => "path '" ++ path ++ "' must start with '" ++ String.ofList [rootSign] ++ "'"
  | .repeated name => "variable '" ++ name ++ "' is already extracted by this node"

/-- What an extraction offers: a name and a path, both without the blanks around them. -/
def offer (extraction : Extraction) : Except Problem Binding :=
  match extraction.name.map Text.trimmed, extraction.path.map Text.trimmed with
  | some name, some path =>
    if !Text.isIdentifier name then .error (.badName name)
    else if path.toList.head? != some rootSign then .error (.badPath path)
    else .ok ⟨name, path, extraction.fallback⟩
  | _, _ => .error .incomplete

/-- The instruction that takes a value out of the response. -/
def Binding.text (binding : Binding) : String :=
  let source := "def " ++ binding.name ++ " = karate.jsonPath(response, "
    ++ Script.quote binding.path ++ ")"
  match binding.fallback with
  | none => source
  | some v => source ++ " || " ++ Script.literal v

def binder : Binder Extraction Binding Problem where
  offer := offer
  name := Binding.name
  repeated := .repeated
  noun := "Extraction"
  text := Binding.text
  reason := Problem.message

/-- The variable that collects all extracted variables. -/
def collectionVariable : String := "extractedVariables"

/-- The field of the collection that holds a variable. -/
def collectionField (name : String) : String :=
  name ++ ": '#(" ++ name ++ ")'"

/-- The draft that collects the variables with the given names. -/
def collection (names : List String) : Draft :=
  .instruction .and ("def " ++ collectionVariable ++ " = \x7b "
    ++ ", ".intercalate (names.map collectionField) ++ " \x7d")

/-- What stands for a list without entries. -/
def unconfigured : Draft :=
  .notice "Variable extraction has no extractions configured"

def drafts (entries : List Extraction) : List Draft :=
  if entries.isEmpty then [unconfigured]
  else
    let names := binder.names entries
    binder.drafts entries ++ if names.isEmpty then [] else [collection names]

def steps (subject : String) (entries : List Extraction) : List Step :=
  (drafts entries).map (Draft.step subject)

end Extraction

namespace Assignment

/-- An assignment that can be carried out. -/
structure Binding where
  name : String
  value : Json

/-- Why an assignment cannot be carried out. -/
inductive Problem where
  | incomplete
  | badName (name : String)
  | repeated (name : String)

def Problem.message : Problem → String
  | .incomplete => "name and value are both required"
  | .badName name => "'" ++ name ++ "' is not a valid variable name"
  | .repeated name => "variable '" ++ name ++ "' is already set by this node"

/-- What an assignment offers: a name without the blanks around it, and a value. -/
def offer (assignment : Assignment) : Except Problem Binding :=
  match assignment.name.map Text.trimmed, assignment.value with
  | some name, some v =>
    if !Text.isIdentifier name then .error (.badName name) else .ok ⟨name, v⟩
  | _, _ => .error .incomplete

/-- The instruction that gives the variable its value. -/
def Binding.text (binding : Binding) : String :=
  "def " ++ binding.name ++ " = " ++ Script.literal binding.value

def binder : Binder Assignment Binding Problem where
  offer := offer
  name := Binding.name
  repeated := .repeated
  noun := "Variable"
  text := Binding.text
  reason := Problem.message

end Assignment

namespace Assignments

/-- What stands for a list without entries. -/
def unconfigured : Draft :=
  .notice "Set variable has no variables configured"

def drafts (assignments : Assignments) : List Draft :=
  if assignments.entries.isEmpty then [unconfigured]
  else Assignment.binder.drafts assignments.entries

def steps (subject : String) (assignments : Assignments) : List Step :=
  assignments.drafts.map (Draft.step subject)

end Assignments

def Message.draft (message : Message) : Draft :=
  match message.text with
  | some s => .instruction .star ("print " ++ Script.quote s)
  | none => .notice "Log message is empty"

end TestFlow
