import TestFlow.Component
import TestFlow.Proofs.Json.Place

/-!
# The records of payloads

The payload of a component is decoded as a record, field by field.  Which fields it may have is told
by the shape of the record, and what the component is by the record alone.  So a law about all kinds
of payloads need not be stated kind by kind: it is stated for the shape of a kind, and the kinds are
told apart in its proof.

Two kinds take a step more.  The fields of a request are settled once they are all there, and
extractions may be listed in place of the one whose fields stand in the payload itself.

Reference: specification, §3.1 (payload fields).

## Main definitions

* `Kind.Record`, `Kind.shape` — the record of a kind, and the fields it may have;
* `Kind.make` — the component of a record.

## Main statement

* `Component.decodePayload_eq` — a payload is decoded as the record of its kind.
-/

namespace TestFlow

open Json (Shape Slot)

namespace Kind

/-- The record that the payload of a kind is decoded to. -/
abbrev Record : Kind → Type
  | .request _ => Request.Fields
  | .bearerToken => BearerToken
  | .userPassword => UserPassword
  | .apiKey => ApiKey
  | .statusCheck => StatusCheck
  | .fieldCheck => FieldCheck
  | .headerCheck => HeaderCheck
  | .schemaCheck => SchemaCheck
  | .timeCheck => TimeCheck
  | .extraction => Extraction
  | .assignment => Assignments
  | .message => Message

/-- The fields that the payload of a kind may have. -/
def shape : (kind : Kind) → Shape kind.Record
  | .request _ => Request.shape
  | .bearerToken => BearerToken.shape
  | .userPassword => UserPassword.shape
  | .apiKey => ApiKey.shape
  | .statusCheck => StatusCheck.shape
  | .fieldCheck => FieldCheck.shape
  | .headerCheck => HeaderCheck.shape
  | .schemaCheck => SchemaCheck.shape
  | .timeCheck => TimeCheck.shape
  | .extraction => Extraction.shape
  | .assignment => Assignments.shape
  | .message => Message.shape

/-- The component of a record.  An extraction stands alone, as it does where none is listed. -/
def make : (kind : Kind) → kind.Record → Component
  | .request method => fun fields => .request method (Request.ofFields fields)
  | .bearerToken => .bearerToken
  | .userPassword => .userPassword
  | .apiKey => .apiKey
  | .statusCheck => .statusCheck
  | .fieldCheck => .fieldCheck
  | .headerCheck => .headerCheck
  | .schemaCheck => .schemaCheck
  | .timeCheck => .timeCheck
  | .extraction => fun entry => .extraction [entry]
  | .assignment => .assignment
  | .message => .message

/-- The names of each field that the payload of a kind may have. -/
def fieldNames (kind : Kind) : List (List String) :=
  kind.shape.slots.map Slot.names

end Kind

namespace Component

/-- A payload is decoded as the record of its kind, unless extractions may be listed in it. -/
theorem decodePayload_eq {kind : Kind} (h : kind ≠ .extraction) (data : Json) :
    decodePayload kind data = (kind.shape.decode data).map kind.make := by
  cases kind with
  | extraction => exact absurd rfl h
  | request method =>
      show ((Request.shape.decode data).map Request.ofFields).map _ =
        (Request.shape.decode data).map _
      cases Request.shape.decode data with
      | error e => rfl
      | ok fields => rfl
  | _ => rfl

/-- So are payloads that differ in the value of one field alone, whatever it is. -/
theorem decode_of_holds {kind : Kind} (hkind : kind ≠ .extraction) {slot : Slot kind.Record}
    {payload : Json → Json} (h : kind.shape.Holds slot payload) (v : Json) :
    decode kind (payload v) = (kind.shape.decode (payload v)).map kind.make := by
  cases h with
  | field hkey before after => exact decodePayload_eq hkind _
  | item front hslots before hbefore after => exact decodePayload_eq hkind _

/-- The component of a decoded payload is that of a record. -/
theorem exists_record_of_decode {kind : Kind} (hkind : kind ≠ .extraction) {data : Json}
    {component : Component} (h : decode kind data = .ok component) :
    ∃ record, kind.shape.decode (payloadOf data) = .ok record ∧ kind.make record = component := by
  rw [decode, decodePayload_eq hkind] at h
  exact Json.map_eq_ok.mp h

end Component

end TestFlow
