import TestFlow.Request
import TestFlow.Check
import TestFlow.Credential
import TestFlow.Variable

/-!
# Components

A component is a kind with the payload that belongs to it.

Reference: specification, §3.1 (component kinds) and §4.3 (step emitter).

## Main definitions

* `Kind`, `Kind.ofTypeName?` — the sixteen kinds;
* `Component`, `Component.decode` — components, and how their payloads are decoded;
* `Component.steps` — the steps of a component.
-/

namespace TestFlow

/-!
## Kinds of components

Every component has one of sixteen kinds.  A node record names the kind by its type name; messages
name it by its label.
-/

inductive Kind where
  | request (method : Method)
  | bearerToken
  | userPassword
  | apiKey
  | statusCheck
  | fieldCheck
  | headerCheck
  | schemaCheck
  | timeCheck
  | extraction
  | assignment
  | message
  deriving DecidableEq, Repr

namespace Kind

def all : List Kind :=
  Method.all.map .request ++
    [.bearerToken, .userPassword, .apiKey, .statusCheck, .fieldCheck, .headerCheck, .schemaCheck,
      .timeCheck, .extraction, .assignment, .message]

/-- The name of a kind in a node record. -/
def typeName : Kind → String
  | .request method => method.name ++ "_REQUEST"
  | .bearerToken => "BEARER_AUTH"
  | .userPassword => "BASIC_AUTH"
  | .apiKey => "API_KEY_AUTH"
  | .statusCheck => "STATUS_ASSERTION"
  | .fieldCheck => "FIELD_ASSERTION"
  | .headerCheck => "HEADER_ASSERTION"
  | .schemaCheck => "SCHEMA_ASSERTION"
  | .timeCheck => "RESPONSE_TIME_ASSERTION"
  | .extraction => "EXTRACT_VARIABLE"
  | .assignment => "SET_VARIABLE"
  | .message => "LOG_MESSAGE"

/-- The name of a kind in a message. -/
def label : Kind → String
  | .request method => method.name ++ " request"
  | .bearerToken => "Bearer auth"
  | .userPassword => "Basic auth"
  | .apiKey => "API key auth"
  | .statusCheck => "Status assertion"
  | .fieldCheck => "Field assertion"
  | .headerCheck => "Header assertion"
  | .schemaCheck => "Schema assertion"
  | .timeCheck => "Response time assertion"
  | .extraction => "Variable extraction"
  | .assignment => "Set variable"
  | .message => "Log message"

def ofTypeName? (name : String) : Option Kind :=
  all.find? fun kind => kind.typeName = name

end Kind

/-!
## Components

A component is a kind with the payload that belongs to it.  A payload is decoded once its kind is
known; null decodes as an object without fields.
-/

open Json (DecodeError)

/-- The kind of a type name, where nothing but a known name is allowed. -/
def Kind.decode (name : String) : Except DecodeError Kind :=
  match Kind.ofTypeName? name with
  | some kind => .ok kind
  | none => .error (.mismatch (.unknownChoice name (Kind.all.map Kind.typeName)))

/-- A component with its payload. -/
inductive Component where
  | request (method : Method) (request : Request)
  | bearerToken (credential : BearerToken)
  | userPassword (credential : UserPassword)
  | apiKey (key : ApiKey)
  | statusCheck (check : StatusCheck)
  | fieldCheck (check : FieldCheck)
  | headerCheck (check : HeaderCheck)
  | schemaCheck (check : SchemaCheck)
  | timeCheck (check : TimeCheck)
  | extraction (entries : List Extraction)
  | assignment (assignments : Assignments)
  | message (message : Message)

namespace Component

def kind : Component → Kind
  | .request method _ => .request method
  | .bearerToken _ => .bearerToken
  | .userPassword _ => .userPassword
  | .apiKey _ => .apiKey
  | .statusCheck _ => .statusCheck
  | .fieldCheck _ => .fieldCheck
  | .headerCheck _ => .headerCheck
  | .schemaCheck _ => .schemaCheck
  | .timeCheck _ => .timeCheck
  | .extraction _ => .extraction
  | .assignment _ => .assignment
  | .message _ => .message

/-- A payload, with an object without fields in the place of null. -/
def payloadOf : Json → Json
  | .null => .object []
  | v => v

/-- Decodes the payload of a component of the given kind. -/
def decodePayload (kind : Kind) (data : Json) : Except DecodeError Component :=
  match kind with
  | .request method => (Request.decode data).map (.request method)
  | .bearerToken => (BearerToken.shape.decode data).map .bearerToken
  | .userPassword => (UserPassword.shape.decode data).map .userPassword
  | .apiKey => (ApiKey.shape.decode data).map .apiKey
  | .statusCheck => (StatusCheck.shape.decode data).map .statusCheck
  | .fieldCheck => (FieldCheck.shape.decode data).map .fieldCheck
  | .headerCheck => (HeaderCheck.shape.decode data).map .headerCheck
  | .schemaCheck => (SchemaCheck.shape.decode data).map .schemaCheck
  | .timeCheck => (TimeCheck.shape.decode data).map .timeCheck
  | .extraction => (Extraction.decodeAll data).map .extraction
  | .assignment => (Assignments.shape.decode data).map .assignment
  | .message => (Message.shape.decode data).map .message

def decode (kind : Kind) (data : Json) : Except DecodeError Component :=
  decodePayload kind (payloadOf data)

end Component

end TestFlow

namespace TestFlow.Component

/-!
## Steps of components

Every component contributes its own steps, at least one, and nothing but its payload and the id of
its node bears on them.
-/

def drafts : Component → List Draft
  | .request method payload => payload.drafts method
  | .bearerToken credential => [credential.draft]
  | .userPassword credential => [credential.draft]
  | .apiKey key => [key.draft]
  | .statusCheck check => [check.draft]
  | .fieldCheck check => [check.draft]
  | .headerCheck check => [check.draft]
  | .schemaCheck check => [check.draft]
  | .timeCheck check => [check.draft]
  | .extraction entries => Extraction.drafts entries
  | .assignment assignments => assignments.drafts
  | .message payload => [payload.draft]

/-- The steps of a component, with the id of its node as the subject of diagnostics. -/
def steps (subject : String) (component : Component) : List Step :=
  component.drafts.map (Draft.step subject)

/-- The name of a comparison that a component looked up in vain. -/
def unrecognized? : Component → Option String
  | .statusCheck check => check.unrecognized?
  | .fieldCheck check => check.unrecognized?
  | .headerCheck check => check.unrecognized?
  | .schemaCheck check => check.unrecognized?
  | .timeCheck check => check.unrecognized?
  | _ => none

end TestFlow.Component
