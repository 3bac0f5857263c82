import TestFlow.Proofs.Component.Texts

/-!
# Absent fields of a payload

Null and blank text stand for a field that is left out.  So the fields under which one of them
stands can as well be taken out of a payload: what it decodes to, or what is wrong with it, stays
the same (`Component.decode_present`).  A few keys are strict and take no part in this, since the
lists and the choice under them are not scalars.

Every kind of record takes absent fields on its own.  Requests need one step more, as their body is
kept as it is until its encoding is known: there an absent body is told from a missing one, and both
come to the same only when the body is read (`Request.decode_object`).

Reference: specification, §3.2 (empty string and null mean absent) and §4.3 (missing fields).

## Main definitions

* `Kind.strictKeys` — the keys under which null and blank text do not mean that there is nothing;
* `Kind.NamesOnce` — an object has at most one name of each field.

## Main statements

* `Component.decode_present` — absent fields can be left out;
* `Component.absent_fields_do_not_count` — absent fields can be left out, and what is present is not
  blank.
-/

namespace TestFlow

open Json (Shape Slot)

/-! ## Names of fields -/

/-- The keys that count whatever stands under them. -/
def Kind.strictKeys : Kind → List String
  | .apiKey => ["location", "addTo"]
  | .extraction => ["extractions"]
  | .assignment => ["variables"]
  | _ => []

/-- An object has at most one name of each field that a payload may have. -/
def Kind.NamesOnce (kind : Kind) (fields : List (String × Json)) : Prop :=
  fields.Pairwise fun field other =>
    ∀ names ∈ kind.fieldNames, ¬(field.1 ∈ names ∧ other.1 ∈ names)

instance (kind : Kind) (fields : List (String × Json)) : Decidable (kind.NamesOnce fields) :=
  inferInstanceAs (Decidable (fields.Pairwise _))

/-- Such an object names no field of the record twice. -/
theorem Kind.NamesOnce.oneName {kind : Kind} {fields : List (String × Json)}
    (h : kind.NamesOnce fields) : Shape.OneName kind.shape.slots fields :=
  Shape.oneName_iff.mpr h

/-- A record that takes absent fields decodes without them as it does with them. -/
theorem Json.Shape.Forgiving.decode_present {σ : Type} {strict : List String} {shape : Shape σ}
    (h : shape.Forgiving strict) {fields : List (String × Json)}
    (hone : Shape.OneName shape.slots fields) :
    shape.decode (.object (Shape.present strict fields)) = shape.decode (.object fields) :=
  h.fromFields_present hone

/-! ## Records -/

/-- The records of all kinds but requests take absent fields, except under the strict keys. -/
theorem Kind.forgiving {kind : Kind} (h : ∀ method, kind ≠ .request method) :
    kind.shape.Forgiving kind.strictKeys := by
  cases kind with
  | request method => exact absurd rfl (h method)
  | _ =>
      -- the names of the fields differ, their places differ, and absent values fill no place
      refine ⟨by decide, ?_, ?_⟩
      · simp [shape, BearerToken.shape, UserPassword.shape, ApiKey.shape, StatusCheck.shape,
          FieldCheck.shape, HeaderCheck.shape, SchemaCheck.shape, TimeCheck.shape, Extraction.shape,
          Assignments.shape, Message.shape]
      · simp [shape, strictKeys, BearerToken.shape, UserPassword.shape, ApiKey.shape,
          StatusCheck.shape, FieldCheck.shape, HeaderCheck.shape, SchemaCheck.shape,
          TimeCheck.shape, Extraction.shape, Assignments.shape, Message.shape]

/-! ## Requests -/

/-- Null and blank text are an empty list of keys and values. -/
theorem KeyValues.ofJson_of_absent {v : Json} (h : v.isAbsent = true) : ofJson v = .ok [] := by
  cases v with
  | null => rfl
  -- A list given as text is trimmed first, and there is nothing left of blank text.
  | string s =>
      have hblank : ∀ c ∈ s.toList, Text.isBlankChar c = true := List.all_eq_true.mp h
      have htrim : Text.trimmed s = "" := by
        rw [Text.trimmed, Text.trim_eq_nil_iff.mpr hblank, String.ofList_nil]
      rw [ofJson, ofText, htrim]
      rfl
  | _ => cases h

/-- So a field with such a list takes absent values too. -/
@[simp] theorem KeyValues.idles_ofJson {σ : Type} {name : String} {aliases : List String}
    {put : KeyValues → σ → σ} {state : σ} (hput : put (.ok []) state = state) :
    (Slot.of name aliases (fun v => .ok (ofJson v)) put).Idles state :=
  Slot.idles_of (fun _ hv => congrArg Except.ok (ofJson_of_absent hv)) hput

namespace Request

/-- The fields of a request without a body that is absent. -/
def settle (fields : Request.Fields) : Request.Fields :=
  { fields with body := fields.body.filter fun v => !v.isAbsent }

/-- An absent body is as good as none. -/
theorem ofFields_settle (fields : Request.Fields) : ofFields (settle fields) = ofFields fields := by
  obtain ⟨url, headers, params, _ | v, encoding⟩ := fields
  · rfl
  · cases hv : v.isAbsent <;> simp [ofFields, settle, Body.ofJson?, Option.filter, hv]

/-- A field of a request, where the body is decoded like a scalar: it is none if it is absent. -/
def settledSlot (slot : Slot Request.Fields) : Slot Request.Fields :=
  if slot.name = "body" then
    .of "body" [] Json.literal? fun v fields => { fields with body := v }
  else slot

section Slots

variable {α : Type} {name : String} {aliases : List String}
  {decode : Json → Except Json.DecodeError α} {put : α → Request.Fields → Request.Fields}

@[simp] theorem settledSlot_body :
    settledSlot (.of "body" aliases decode put) =
      .of "body" [] Json.literal? fun v fields => { fields with body := v } :=
  if_pos rfl

@[simp] theorem settledSlot_of (h : name ≠ "body") :
    settledSlot (.of name aliases decode put) = .of name aliases decode put :=
  if_neg h

/-- The other fields of a request do not look at the body. -/
theorem settledSlot_of_put (h : name ≠ "body")
    (hput : ∀ a fields, put a (settle fields) = settle (put a fields)) (v : Json)
    (fields : Request.Fields) :
    (settledSlot (.of name aliases decode put)).put v (settle fields) =
      ((Slot.of name aliases decode put).put v fields).map settle := by
  rw [settledSlot_of h]
  exact Slot.put_of_map hput v fields

end Slots

/-- The fields that the payload of a request may have, with the body decoded like a scalar. -/
def settledShape : Shape Request.Fields :=
  { shape with slots := shape.slots.map settledSlot }

/-- Settling leaves the names of the fields as they are. -/
theorem settledShape_names : settledShape.slots.map Slot.names = shape.slots.map Slot.names := by
  simp [settledShape, shape]

/-- A request takes absent fields, once its body is decoded like a scalar. -/
theorem settledShape_forgiving : settledShape.Forgiving [] :=
  ⟨by decide, by simp [settledShape, shape], by simp [settledShape, shape]⟩

/-- Putting in a value and settling can be done in either order. -/
theorem settledSlot_put {slot : Slot Request.Fields} (hslot : slot ∈ shape.slots) (v : Json)
    (fields : Request.Fields) :
    (settledSlot slot).put v (settle fields) = (slot.put v fields).map settle := by
  simp only [shape, List.mem_cons, List.not_mem_nil, or_false] at hslot
  rcases hslot with rfl | rfl | rfl | rfl | rfl
  · exact settledSlot_of_put (by decide) (fun _ _ => by rfl) v fields
  · exact settledSlot_of_put (by decide) (fun _ _ => by rfl) v fields
  · exact settledSlot_of_put (by decide) (fun _ _ => by rfl) v fields
  · -- an absent body is put in and taken out again on one side, and never put in on the other
    rw [settledSlot_body]
    cases hv : v.isAbsent <;> simp [Slot.of, settle, Json.literal?, Except.map, Option.filter, hv]
  · exact settledSlot_of_put (by decide) (fun _ _ => by rfl) v fields

/-- A request is decoded from an object as if its body were a scalar. -/
theorem decode_object (fields : List (String × Json)) :
    decode (.object fields) = (settledShape.decode (.object fields)).map ofFields := by
  have hnames : ∀ slot ∈ shape.slots,
      (settledSlot slot).name = slot.name ∧ (settledSlot slot).aliases = slot.aliases := by
    simp [shape, Slot.of, settledSlot]
  -- Field by field, decoding with the settled shape keeps in step with settling what the other has
  -- decoded.
  have hsettled : settledShape.decode (.object fields) =
      (shape.decode (.object fields)).map settle :=
    Shape.fromFields_map settle settledSlot hnames (fun _ => settledSlot_put) [] shape.empty fields
  rw [hsettled, decode]
  cases shape.decode (.object fields) with
  | error e => rfl
  | ok decoded => exact congrArg Except.ok (ofFields_settle decoded).symm

/-- Absent fields can be left out of a request. -/
theorem decode_present {fields : List (String × Json)} (hone : Shape.OneName shape.slots fields) :
    decode (.object (Shape.present [] fields)) = decode (.object fields) := by
  have hsettled : Shape.OneName settledShape.slots fields := by
    rw [Shape.oneName_iff] at hone ⊢
    rwa [settledShape_names]
  rw [decode_object, decode_object, settledShape_forgiving.decode_present hsettled]

end Request

/-! ## Components -/

/-- Absent fields can be left out of extractions, but for the list of them. -/
theorem Extraction.decodeAll_present {fields : List (String × Json)}
    (hone : Shape.OneName shape.slots fields) :
    decodeAll (.object (Shape.present ["extractions"] fields)) = decodeAll (.object fields) := by
  have hforgiving : shape.Forgiving ["extractions"] := @Kind.forgiving .extraction (by simp)
  -- The list stands under a strict key, so it is found as before.
  rw [decodeAll, decodeAll, Shape.get?_present List.mem_cons_self,
    hforgiving.fromFields_present hone]

namespace Component

/-- Absent fields can be left out. -/
theorem decode_present {kind : Kind} {fields : List (String × Json)} (h : kind.NamesOnce fields) :
    decode kind (.object (Shape.present kind.strictKeys fields)) =
      decode kind (.object fields) := by
  cases kind with
  | request method =>
      exact congrArg (Except.map _) (Request.decode_present h.oneName)
  | extraction =>
      exact congrArg (Except.map _) (Extraction.decodeAll_present h.oneName)
  | _ =>
      refine (decodePayload_eq (by decide) _).trans
        (Eq.trans ?_ (decodePayload_eq (by decide) _).symm)
      exact congrArg (Except.map _) ((Kind.forgiving (by simp)).decode_present h.oneName)

/-- The address of a decoded request has no blanks around it. -/
theorem isTight_url_of_decode {kind : Kind} {data : Json} {method : Method} {request : Request}
    (h : decode kind data = .ok (.request method request)) :
    ∀ url ∈ request.url, Text.IsTight url.toList := by
  rw [decode] at h
  cases kind with
  | request =>
      obtain ⟨payload, hpayload, heq⟩ := Json.map_eq_ok.mp h
      cases heq
      exact Request.isTight_url_of_decode hpayload
  | _ =>
      obtain ⟨payload, -, heq⟩ := Json.map_eq_ok.mp h
      cases heq

/-- Null and blank text mean that a field is absent, whatever the kind of a component: they can be
left out of a payload that has at most one name of each field, except under the strict keys, without
a change to what it decodes to or what is wrong with it.  What is present in a component is not
blank, the address of a request has no blanks around it, and the steps show no blank address or
credential. -/
theorem absent_fields_do_not_count (kind : Kind) :
    (∀ fields, kind.NamesOnce fields →
      decode kind (.object (Shape.present kind.strictKeys fields)) =
        decode kind (.object fields)) ∧
    ∀ data component, decode kind data = .ok component →
      TextsPresent component.textFields ∧
      (∀ method request, component = .request method request →
        ∀ url ∈ request.url, Text.IsTight url.toList) ∧
      ∀ subject, ∀ step ∈ component.steps subject, Presents kind step := by
  refine ⟨fun fields => decode_present, fun data component h => ⟨textsPresent_of_decode h, ?_,
    presents_of_decode h⟩⟩
  rintro method request rfl
  exact isTight_url_of_decode h

/-- The payload of a request with all kinds of absent fields. -/
def untidyRequest : List (String × Json) :=
  [("note", .null), ("url", .string " /login\n"), ("headers", .string ""), ("params", .null),
    ("body", .null), ("bodyType", .string "\t")]

/-- The payload of a key with an absent name, and a location under one of the strict keys. -/
def untidyKey : List (String × Json) :=
  [("addTo", .string "query"), ("headerName", .string " "), ("note", .null),
    ("apiKey", .string "s3")]

/-- Of the untidy request only the address is left, trimmed, and of the untidy key its location
and its value. -/
theorem untidy_payloads_decode_present :
    (Kind.request .get).NamesOnce untidyRequest ∧
    decode (.request .get) (.object [("url", .string " /login\n")]) =
      decode (.request .get) (.object untidyRequest) ∧
    decode (.request .get) (.object untidyRequest) =
      .ok (.request .get ⟨some "/login", .ok [], .ok [], none⟩) ∧
    Text.IsTight "/login".toList ∧
    Kind.apiKey.NamesOnce untidyKey ∧
    decode .apiKey (.object [("addTo", .string "query"), ("apiKey", .string "s3")]) =
      decode .apiKey (.object untidyKey) ∧
    decode .apiKey (.object untidyKey) = .ok (.apiKey ⟨none, some "s3", .query⟩) ∧
    TextsPresent [none, some "s3"] ∧
    ∀ step ∈ (Component.apiKey ⟨none, some "s3", .query⟩).steps "k", Presents .apiKey step := by
  have hrequest : (Kind.request .get).NamesOnce untidyRequest := by decide
  have hkey : Kind.apiKey.NamesOnce untidyKey := by decide
  have hdecodeRequest : decode (.request .get) (.object untidyRequest) =
      .ok (.request .get ⟨some "/login", .ok [], .ok [], none⟩) := rfl
  have hdecodeKey : decode .apiKey (.object untidyKey) =
      .ok (.apiKey ⟨none, some "s3", .query⟩) := rfl
  obtain ⟨hleft, hright⟩ := absent_fields_do_not_count (.request .get)
  obtain ⟨hkeyLeft, hkeyRight⟩ := absent_fields_do_not_count .apiKey
  obtain ⟨-, htight, -⟩ := hright _ _ hdecodeRequest
  obtain ⟨htexts, -, hsteps⟩ := hkeyRight _ _ hdecodeKey
  exact ⟨hrequest, hleft untidyRequest hrequest, hdecodeRequest, htight _ _ rfl _ rfl, hkey,
    hkeyLeft untidyKey hkey, hdecodeKey, htexts, hsteps "k"⟩

end Component

end TestFlow
