import TestFlow.Json.Decode
import TestFlow.Text.Basic
import TestFlow.Script

/-!
# Requests

A request component says where to send a request and what goes with it.  Its method belongs to the
kind of the component and is not part of its payload.

Reference: specification, §3.1 (payload fields), §3.2 (normalization) and §4.3 (requests).

## Main definitions

* `Method` — the five methods;
* `KeyValues`, `KeyValues.ofJson` — lists of keys and values, in any of their forms;
* `Body`, `Body.ofJson?` — bodies in their encodings;
* `Request`, `Request.decode` — the payload of a request;
* `Request.steps` — its steps.
-/

namespace TestFlow

/-!
## Request methods

The five methods a request component may have.  Three of them carry a body; the body of a `GET` or
`DELETE` request is never sent.
-/

inductive Method where
  | get
  | post
  | put
  | patch
  | delete
  deriving DecidableEq, Repr

namespace Method

def all : List Method :=
  [.get, .post, .put, .patch, .delete]

/-- The name of a method, as it is sent. -/
def name : Method → String
  | .get => "GET"
  | .post => "POST"
  | .put => "PUT"
  | .patch => "PATCH"
  | .delete => "DELETE"

def ofName? (name : String) : Option Method :=
  all.find? fun method => method.name = name

/-- Whether a request with this method carries a body. -/
def allowsBody : Method → Bool
  | .post | .put | .patch => true
  | .get | .delete => false

end Method

/-!
## Lists of keys and values

Headers, query parameters and form fields are lists of keys and values.  They are given as an
object, as an array of rows with a key and a value each, or as a text that holds one of the two as
JSON.  A row may be disabled or have no key; such rows are left out.  A list that cannot be read
does not spoil the component it belongs to: it is kept with its problem, so that only the list is
reported.
-/

/-- An entry of a list. -/
structure KeyValue where
  key : String
  value : String
  deriving DecidableEq, Repr

/-- What can be wrong with a list. -/
inductive KeyValues.Problem where
  /-- A text is not JSON. -/
  | notJson (reason : Json.ReadError)
  /-- A text holds JSON, but neither an object nor an array. -/
  | notBracketed
  /-- An array has an item that is not an object. -/
  | notRows
  /-- A value has brackets. -/
  | notScalar (key : String)
  /-- The list is a number or a truth value. -/
  | wrongKind

def KeyValues.Problem.message : KeyValues.Problem → String
  | .notJson reason => "could not parse JSON: " ++ reason.message
  | .notBracketed => "expected a JSON object or array"
  | .notRows => "expected rows of \x7bkey, value\x7d"
  | .notScalar key => "value of '" ++ key ++ "' is not a scalar"
  | .wrongKind => "expected an object, an array of rows or a JSON string"

/-- A list of entries, or the problem with it. -/
abbrev KeyValues : Type :=
  Except KeyValues.Problem (List KeyValue)

namespace KeyValues

def ofField (field : String × Json) : Except Problem KeyValue :=
  match field.2.scalarText? with
  | some value => .ok ⟨field.1, value⟩
  | none => .error (.notScalar field.1)

def ofFields (fields : List (String × Json)) : KeyValues :=
  fields.mapM ofField

/-- Whether a row is switched off, for which it must say so with a truth value. -/
def isDisabled (row : List (String × Json)) : Bool :=
  match Fields.get? "enabled" row with
  | some (.bool false) => true
  | _ => false

/-- The key of a row; a key that is missing or has brackets is empty. -/
def rowKey (row : List (String × Json)) : String :=
  ((Fields.get? "key" row).bind Json.scalarText?).getD ""

/-- The value of a row, unless it has brackets; a missing one is empty. -/
def rowValue? (row : List (String × Json)) : Option String :=
  match Fields.get? "value" row with
  | none => some ""
  | some v => v.scalarText?

/-- The entry of a row, unless the row is to be left out. -/
def ofRow : Json → Except Problem (Option KeyValue)
  | .object row =>
    -- a row that is left out may have any value, even one with brackets
    if isDisabled row || Text.isBlank (rowKey row) then .ok none
    else
      match rowValue? row with
      | some value => .ok (some ⟨rowKey row, value⟩)
      | none => .error (.notScalar (rowKey row))
  | _ => .error .notRows

def ofRows (rows : List Json) : KeyValues :=
  (rows.mapM ofRow).map fun entries => entries.filterMap id

/-- The entries of a text that holds JSON.  Blank text holds none. -/
def ofText (s : String) : KeyValues :=
  let trimmed := Text.trimmed s
  if trimmed.isEmpty then .ok []
  else
    match Json.parse trimmed with
    | .ok (.object fields) => ofFields fields
    | .ok (.array rows) => ofRows rows
    | .ok _ => .error .notBracketed
    | .error reason => .error (.notJson reason)

/-- The entries of a list in any of its forms.  Null is the empty list. -/
def ofJson : Json → KeyValues
  | .null => .ok []
  | .string s => ofText s
  | .object fields => ofFields fields
  | .array rows => ofRows rows
  | .bool _ | .number _ => .error .wrongKind

end KeyValues

/-!
## Request bodies

The body of a request is given as a value of any kind, with the name of its encoding.  A JSON body
may be given as the text of the JSON or as the value itself.  A form is given as a list of keys and
values in any of its forms, or as text of the form `a=1&b=2`.  A text body is sent as it is, and the
compact JSON of any other value.  Null and blank text mean that there is no body.

A body that cannot be read is kept with its problem, so that only the body is reported.
-/

/-- How a body is encoded. -/
inductive Encoding where
  | json
  | form
  | text
  deriving DecidableEq, Repr

namespace Encoding

def all : List Encoding :=
  [.json, .form, .text]

/-- The names that an encoding goes by, in lower case. -/
def names : Encoding → List String
  | .json => ["", "json", "application/json", "raw-json", "structured"]
  | .form => ["form", "form-urlencoded", "x-www-form-urlencoded",
      "application/x-www-form-urlencoded", "urlencoded"]
  | .text => ["text", "raw", "plain", "text/plain"]

/-- The encoding of a name, without regard to blanks around it and to the case of ASCII letters. -/
def ofName? (name : String) : Option Encoding :=
  let key := String.ofList ((Text.trim name.toList).map Char.toLower)
  all.find? fun encoding => encoding.names.contains key

end Encoding

/-- A body that can be sent. -/
inductive Body where
  | json (value : Json)
  | form (fields : List KeyValue)
  | text (value : String)

/-- What can be wrong with a body. -/
inductive Body.Problem where
  /-- No encoding has the name. -/
  | unknownEncoding (name : String)
  /-- A text that should hold the JSON of the body is not JSON. -/
  | notJson (reason : Json.ReadError)
  /-- A form cannot be read. -/
  | badForm (problem : KeyValues.Problem)

def Body.Problem.message : Body.Problem → String
  | .unknownEncoding name => "unsupported body type '" ++ name ++ "'"
  | .notJson reason => "body is not valid JSON: " ++ reason.message
  | .badForm problem => "form body: " ++ problem.message

namespace Body

/-- The field of a segment of form text: the key is trimmed, the value is not. -/
def formField (segment : List Char) : KeyValue :=
  match Text.splitFirst? '=' segment with
  | some (key, value) => ⟨String.ofList (Text.trim key), String.ofList value⟩
  | none => ⟨String.ofList (Text.trim segment), ""⟩

/-- The fields of form text, one for each segment that is not blank. -/
def formFields (cs : List Char) : List KeyValue :=
  ((Text.segments '&' cs).filter fun segment => !segment.all Text.isBlankChar).map formField

/-- Whether a text starts like an object or an array, blanks aside. -/
def looksBracketed (cs : List Char) : Bool :=
  match Text.trimStart cs with
  | '{' :: _ => true
  | '[' :: _ => true
  | _ => false

/-- A form, as a list in any of its forms or as form text. -/
def formOf (v : Json) : Except Problem Body :=
  match KeyValues.ofJson v with
  | .ok fields => .ok (.form fields)
  | .error problem => .error (.badForm problem)

/-- A value in an encoding. -/
def encoded (encoding : Encoding) (v : Json) : Except Problem Body :=
  match encoding, v with
  | .json, .string s =>
    match Json.parse s with
    | .ok v => .ok (.json v)
    | .error reason => .error (.notJson reason)
  | .json, v => .ok (.json v)
  | .form, .string s =>
    -- text that looks like JSON is not tried as form text if it cannot be read
    if looksBracketed s.toList then formOf (.string s) else .ok (.form (formFields s.toList))
  | .form, v => formOf v
  | .text, .string s => .ok (.text s)
  | .text, v => .ok (.text v.compact)

/-- The body of a request, if it has one, from the value given and the name of its encoding, which
is JSON if it has no name. -/
def ofJson? (raw : Option Json) (encodingName : Option String) : Option (Except Problem Body) :=
  match raw with
  | none => none
  | some v =>
    if v.isAbsent then none
    else
      match Encoding.ofName? (encodingName.getD "json") with
      | none => some (.error (.unknownEncoding (encodingName.getD "")))
      | some encoding => some (encoded encoding v)

end Body

/-!
## Requests

A request component says where to send a request and what goes with it.  Its method belongs to the
kind of the component and is not part of its payload.
-/

/-- The payload of a request.  The lists and the body are kept with their problems. -/
structure Request where
  url : Option String
  headers : KeyValues
  params : KeyValues
  body : Option (Except Body.Problem Body)

/-- The fields of a payload, before the body is read in its encoding. -/
structure Request.Fields where
  url : Option String
  headers : KeyValues
  params : KeyValues
  body : Option Json
  encoding : Option String

namespace Request

open Json (Shape)

def shape : Shape Request.Fields where
  name := "RequestWire"
  empty := ⟨none, .ok [], .ok [], none, none⟩
  slots := [
    .of "url" [] Json.text? fun s fields => { fields with url := s },
    .of "headers" [] (fun v => .ok (KeyValues.ofJson v)) fun list fields =>
      { fields with headers := list },
    .of "queryParams" ["params"] (fun v => .ok (KeyValues.ofJson v)) fun list fields =>
      { fields with params := list },
    .of "body" [] (fun v => .ok v) fun v fields => { fields with body := some v },
    .of "bodyType" [] Json.text? fun s fields => { fields with encoding := s }]

def ofFields (fields : Request.Fields) : Request where
  url := fields.url.map Text.trimmed
  headers := fields.headers
  params := fields.params
  body := Body.ofJson? fields.body fields.encoding

def decode (data : Json) : Except Json.DecodeError Request :=
  (shape.decode data).map ofFields

end Request

/-!
## Steps of a request

A request sets its address first, then its headers, its query parameters and its body, and is sent
last.  A header or parameter whose name cannot stand in a step is reported in its place, and so are
a list and a body that cannot be read.  A request without an address is reported as a whole.
-/

/-- How the entries of a list are set: the word in a step and the name in a message. -/
structure EntryWords where
  keyword : String
  label : String

def headerWords : EntryWords := ⟨"header", "Header"⟩

def paramWords : EntryWords := ⟨"param", "Query parameter"⟩

def EntryWords.setting (words : EntryWords) (name value : String) : String :=
  words.keyword ++ " " ++ name ++ " = " ++ Script.quote value

namespace Request

def entryDraft (words : EntryWords) (entry : KeyValue) : Draft :=
  if Text.isToken entry.key then .instruction .and (words.setting entry.key entry.value)
  else .notice (words.label ++ " '" ++ entry.key ++ "' skipped: not a valid name")

/-- What stands for a list that could not be read. -/
def unreadList (words : EntryWords) (problem : KeyValues.Problem) : Draft :=
  .notice (words.label ++ "s could not be read: " ++ problem.message)

def listDrafts (words : EntryWords) : KeyValues → List Draft
  | .ok entries => entries.map (entryDraft words)
  | .error problem => [unreadList words problem]

/-- The variable that holds the body until it is attached. -/
def bodyVariable : String := "requestBody"

/-- The draft that gives the body variable its value. -/
def bodyDefinition (value : String) : Draft :=
  .instruction .and ("def " ++ bodyVariable ++ " = " ++ value)

/-- The drafts of a body: it is defined, and then attached as JSON and text are, or as a form. -/
def bodyDrafts : Except Body.Problem Body → List Draft
  | .ok (.json v) =>
    [bodyDefinition (Script.literal v), .instruction .and ("request " ++ bodyVariable)]
  | .ok (.form fields) =>
    [bodyDefinition (Script.objectOf (fields.map fun field => (field.key, field.value))).compact,
      .instruction .and ("form fields " ++ bodyVariable)]
  | .ok (.text s) =>
    [bodyDefinition (Script.quote s), .instruction .and ("request " ++ bodyVariable)]
  | .error problem => [.notice ("Request body could not be read: " ++ problem.message)]

/-- The drafts of the body, if the method allows one and there is one. -/
def attachedBody (method : Method) (request : Request) : List Draft :=
  match request.body with
  | some body => if method.allowsBody then bodyDrafts body else []
  | none => []

def addressDraft (url : String) : Draft :=
  .instruction .given ("url " ++ Script.quote url)

def sendingDraft (method : Method) : Draft :=
  .instruction .when ("method " ++ method.name)

/-- What stands for a request without an address. -/
def addressless (method : Method) : Draft :=
  .notice (method.name ++ " request is missing a URL")

def drafts (method : Method) (request : Request) : List Draft :=
  match request.url with
  | none => [addressless method]
  | some url =>
    [addressDraft url] ++ listDrafts headerWords request.headers
      ++ listDrafts paramWords request.params ++ attachedBody method request
      ++ [sendingDraft method]

def steps (subject : String) (method : Method) (request : Request) : List Step :=
  (request.drafts method).map (Draft.step subject)

end Request

end TestFlow
