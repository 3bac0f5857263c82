import TestFlow.Graph
import TestFlow.Proofs.Json.Place
import TestFlow.Proofs.Request.KeyValues

/-!
# Bodies as values and as texts

The body of a request may be given as a value or as the text of that value.  The encodings go
different ways with the two: JSON reads the text, a form reads it after a look at its first
character, and plain text writes the value.  For an object or array they come to the same, since its
compact text is read as the value again and starts with a bracket.

What holds of the body holds of a node that has it in its payload.  The fields of a payload are
decoded one by one, and no field but the body's own touches the body, so the payload decodes as it
would with any other body and the body is put in behind (`decode_of_holdsBody`).

Reference: specification, §3.2 (a body is structured or a string) and §4.3 (requests).

## Main definition

* `HoldsBody` — the payloads that differ in their body alone.

## Main statement

* `body_text_stands_for_value` — a body and the text of it make the same steps.
-/

namespace TestFlow

open Json (DecodeError Shape Slot)

/-! ## The body alone -/

namespace Body

/-- An array or object is a body, even if it is empty. -/
theorem isAbsent_of_brackets {v : Json} (h : ¬v.IsScalar) : v.isAbsent = false := by
  cases v with
  | array items => rfl
  | object fields => rfl
  | _ => exact absurd trivial h

/-- The text of an array or object is a body too, since a bracket is not blank. -/
theorem isAbsent_compact {v : Json} (h : ¬v.IsScalar) :
    (Json.string v.compact).isAbsent = false := by
  obtain ⟨first, inside, last, htext, hfirst, -⟩ := Json.exists_text_of_brackets h
  simp [Json.isAbsent, Text.isBlank, Json.compact, htext, Json.isBlankChar_opening hfirst]

/-- The text of an array or object looks like JSON. -/
theorem looksBracketed_compact {v : Json} (h : ¬v.IsScalar) :
    looksBracketed v.compact.toList = true := by
  obtain ⟨first, inside, last, htext, hfirst, -⟩ := Json.exists_text_of_brackets h
  rw [Json.compact, String.toList_ofList, htext]
  rcases hfirst with rfl | rfl <;> rfl

/-- As a form, the text of an array or object comes to what the value does. -/
theorem formOf_compact {v : Json} (hbrackets : ¬v.IsScalar) (h : v.Portable) :
    formOf (.string v.compact) = formOf v := by
  have hblank : Text.isBlank "" = true := by decide
  have hlist := KeyValues.ofJson_around hbrackets h hblank hblank
  rw [String.empty_append, String.append_empty] at hlist
  rw [formOf, formOf, hlist]

/-- Every encoding comes to the same with a value that has brackets and with its text. -/
theorem encoded_compact {v : Json} (hbrackets : ¬v.IsScalar) (h : v.Portable)
    (encoding : Encoding) : encoded encoding (.string v.compact) = encoded encoding v := by
  have hvalue : encoded .json v = .ok (.json v) ∧ encoded .form v = formOf v ∧
      encoded .text v = .ok (.text v.compact) := by
    cases v with
    | array items => exact ⟨rfl, rfl, rfl⟩
    | object fields => exact ⟨rfl, rfl, rfl⟩
    | _ => exact absurd trivial hbrackets
  -- JSON reads the text back, a form sees that it is JSON and reads it back, plain text keeps it
  cases encoding with
  | json => rw [encoded, h.parse_compact, hvalue.1]
  | form =>
      rw [encoded, if_pos (looksBracketed_compact hbrackets), formOf_compact hbrackets h,
        hvalue.2.1]
  | text => rw [encoded, hvalue.2.2]

/-- A body is read alike as a value with brackets and as its text, whatever encoding is named. -/
theorem ofJson?_compact {v : Json} (hbrackets : ¬v.IsScalar) (h : v.Portable)
    (encodingName : Option String) :
    ofJson? (some (.string v.compact)) encodingName = ofJson? (some v) encodingName := by
  simp only [ofJson?, isAbsent_compact hbrackets, isAbsent_of_brackets hbrackets,
    encoded_compact hbrackets h]

end Body

/-! ## The body in a payload -/

namespace Request

/-- The fields of a payload with another body. -/
def Fields.withBody (body : Json) (fields : Request.Fields) : Request.Fields :=
  { fields with body := some body }

/-- A field does not touch the body. -/
def KeepsBody (slot : Slot Request.Fields) : Prop :=
  ∀ body v state, slot.put v (Fields.withBody body state) =
    (slot.put v state).map (Fields.withBody body)

/-- A field that puts what it decodes elsewhere does not touch the body. -/
theorem keepsBody_of {α : Type} {name : String} {aliases : List String}
    {decode : Json → Except DecodeError α} {put : α → Request.Fields → Request.Fields}
    (hput : ∀ a body state,
      put a (Fields.withBody body state) = Fields.withBody body (put a state)) :
    KeepsBody (.of name aliases decode put) :=
  Slot.leaves_of fun body a state => hput a body state

/-- No field but the body's own touches the body. -/
theorem keepsBody_of_mem_slots {slot : Slot Request.Fields} (h : slot ∈ shape.slots)
    (hname : slot.name ≠ "body") : KeepsBody slot := by
  simp only [shape, List.mem_cons, List.not_mem_nil, or_false] at h
  rcases h with rfl | rfl | rfl | rfl | rfl
  · exact keepsBody_of fun _ _ _ => rfl
  · exact keepsBody_of fun _ _ _ => rfl
  · exact keepsBody_of fun _ _ _ => rfl
  · exact absurd rfl hname
  · exact keepsBody_of fun _ _ _ => rfl

/-- The field of the body, which takes any value. -/
def bodySlot : Slot Request.Fields :=
  .of "body" [] (fun v => .ok v) fun v fields => { fields with body := some v }

/-- The body has a place of its own. -/
theorem places_body : shape.Places bodySlot .ok Fields.withBody where
  put_eq _ _ := rfl
  fill_fill _ _ _ := rfl
  names := by decide
  leaves _ hmem hname := keepsBody_of_mem_slots hmem hname

/-- The payloads of a request that differ in their body alone, which is a field of an object or the
fourth item of an array. -/
inductive HoldsBody : (Json → Json) → Prop
  | field (before after : List (String × Json)) :
      HoldsBody fun body => .object (before ++ ("body", body) :: after)
  | item (url headers params : Json) (after : List Json) :
      HoldsBody fun body => .array ([url, headers, params] ++ body :: after)

/-- The body stands at its place in such a payload, by name or by number. -/
theorem HoldsBody.holds {payload : Json → Json} (h : HoldsBody payload) :
    shape.Holds bodySlot payload := by
  cases h with
  | field before after => exact .field rfl before after
  | item url headers params after =>
      have hslots : shape.slots = shape.slots.take 3 ++ bodySlot :: shape.slots.drop 4 := rfl
      exact .item _ hslots [url, headers, params] rfl after

/-- A payload decodes as it would with null for the body, and the body is put in behind. -/
theorem decode_of_holdsBody {payload : Json → Json} (h : HoldsBody payload) (body : Json) :
    shape.decode (payload body) =
      (shape.decode (payload .null)).map (Fields.withBody body) :=
  places_body.decode_of_holds h.holds rfl rfl

/-- The request of the fields is the same with the text for the value. -/
theorem ofFields_withBody_compact {v : Json} (hbrackets : ¬v.IsScalar) (h : v.Portable)
    (fields : Request.Fields) :
    ofFields (Fields.withBody (.string v.compact) fields) =
      ofFields (Fields.withBody v fields) := by
  simp only [ofFields, Fields.withBody, Body.ofJson?_compact hbrackets h]

/-- A payload decodes alike with a body that has brackets and with the text of it. -/
theorem decode_compact {payload : Json → Json} (hpayload : HoldsBody payload) {v : Json}
    (hbrackets : ¬v.IsScalar) (h : v.Portable) :
    decode (payload (.string v.compact)) = decode (payload v) := by
  rw [decode, decode, decode_of_holdsBody hpayload (.string v.compact),
    decode_of_holdsBody hpayload v]
  cases shape.decode (payload .null) with
  | error e => rfl
  | ok fields => exact congrArg Except.ok (ofFields_withBody_compact hbrackets h fields)

/-- Such a payload is no null, for which an empty object would stand in. -/
theorem payloadOf_of_holdsBody {payload : Json → Json} (h : HoldsBody payload) (body : Json) :
    Component.payloadOf (payload body) = payload body := by
  cases h <;> rfl

/-! ## Main statement -/

/-- An object or array that can be written and read back is the same body as its compact text,
whatever encoding is named, if any.  So the nodes of a request make the same steps with the one and
with the other in their payload. -/
theorem body_text_stands_for_value (v : Json) (hbrackets : ¬v.IsScalar) (h : v.Portable) :
    (∀ encodingName, Body.ofJson? (some (.string v.compact)) encodingName =
        Body.ofJson? (some v) encodingName) ∧
      ∀ payload, HoldsBody payload → ∀ (id : String) (method : Method),
        Node.steps ⟨id, .request method,
            Component.decode (.request method) (payload (.string v.compact))⟩ =
          Node.steps ⟨id, .request method,
            Component.decode (.request method) (payload v)⟩ := by
  refine ⟨Body.ofJson?_compact hbrackets h, ?_⟩
  intro payload hpayload id method
  have hdecode : Component.decode (.request method) (payload (.string v.compact)) =
      Component.decode (.request method) (payload v) := by
    simp only [Component.decode, Component.decodePayload, payloadOf_of_holdsBody hpayload,
      decode_compact hpayload hbrackets h]
  rw [hdecode]

/-- Rows of which one has a value with brackets. -/
def nestedRows : Json :=
  .array [.object [("key", .string "it's"), ("value", .array [.object []])]]

/-- A payload that names its encoding behind the body. -/
def formPayload (body : Json) : Json :=
  .object ([("url", .string "u")] ++ ("body", body) :: [("bodyType", .string " FORM ")])

/-- The text of such rows is the same body, and as a form it is refused for the same reason. -/
theorem nestedRows_text_stands_for_value :
    nestedRows.compact =
        "[\x7b\"key\":\"it's\",\"value\":[\x7b\x7d]\x7d]" ∧
      Body.ofJson? (some (.string nestedRows.compact)) none = some (.ok (.json nestedRows)) ∧
      Node.steps ⟨"p", .request .post, Component.decode (.request .post)
          (formPayload (.string nestedRows.compact))⟩ =
        [.instruction .given "url 'u'",
          .diagnostic "p"
            "Request body could not be read: form body: value of 'it's' is not a scalar",
          .instruction .when "method POST"] := by
  have hportable : nestedRows.Portable :=
    ⟨by simp [nestedRows], by simp [nestedRows], by decide +kernel⟩
  have hencoding : Encoding.ofName? "json" = some .json := by decide +kernel
  obtain ⟨hbody, hsteps⟩ := body_text_stands_for_value nestedRows id hportable
  refine ⟨by decide +kernel, ?_, ?_⟩
  · rw [hbody]
    simp [Body.ofJson?, Json.isAbsent, hencoding, Body.encoded, nestedRows]
  · rw [hsteps formPayload (.field _ _)]
    decide +kernel

end Request

end TestFlow
