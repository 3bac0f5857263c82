import TestFlow.Proofs.Component.Record
import TestFlow.Proofs.Request.ReadBack

/-!
# The texts of components

Most fields of a payload are texts that may be left out.  They are decoded by one rule, which takes
blank text for none, so a text that is present is not blank, whatever the payload was decoded from.
The address of a request is trimmed as well.

This carries over to the steps: an address or a credential is a text of the component, and where one
is missing there is a diagnostic in place of the step.

Reference: specification, §3.2 (normalization) and §4.3 (missing URL, missing credential fields).

## Main definitions

* `Component.textFields` — the texts of a component, present or not;
* `Presents` — the steps in which addresses and credentials are not blank.

## Main statements

* `Component.textsPresent_of_decode` — a text that is present is not blank;
* `Component.presents_of_decode` — addresses and credentials in steps are not blank.
-/

namespace TestFlow

open Json (DecodeError Shape Slot)
open Json.Reader (bind_eq_ok)
open Script

/-! ## Fields that hold texts -/

/-- The texts that are present are not blank. -/
def TextsPresent (fields : List (Option String)) : Prop :=
  ∀ field ∈ fields, ∀ s ∈ field, Text.isBlank s = false

section Records

variable {σ α : Type} {texts : σ → List (Option String)} {name : String} {aliases : List String}

/-- A field keeps the texts of a record from being blank. -/
def KeepsTexts (texts : σ → List (Option String)) (slot : Slot σ) : Prop :=
  slot.Keeps fun state => TextsPresent (texts state)

/-- A field that is decoded as text is put where it is not blank. -/
@[simp] theorem keepsTexts_text {put : Option String → σ → σ}
    (h : ∀ a state, ∀ field ∈ texts (put a state), field = a ∨ field ∈ texts state) :
    KeepsTexts texts (.of name aliases Json.text? put) := by
  refine Slot.keeps_of fun v a state ha hstate field hfield => ?_
  rcases h a state field hfield with rfl | hbefore
  · exact Json.not_isBlank_of_text? ha
  · exact hstate field hbefore

/-- A field that is put beside the texts leaves them alone. -/
@[simp] theorem keepsTexts_beside {decode : Json → Except DecodeError α} {put : α → σ → σ}
    (h : ∀ a state, texts (put a state) = texts state) :
    KeepsTexts texts (.of name aliases decode put) := by
  refine Slot.keeps_of fun v a state _ hstate => ?_
  rwa [h a state]

/-- A kind of record whose texts are never blank. -/
structure HoldsTexts (texts : σ → List (Option String)) (shape : Shape σ) : Prop where
  empty : TextsPresent (texts shape.empty)
  slots : ∀ slot ∈ shape.slots, KeepsTexts texts slot

/-- Whatever such a record is decoded from, its texts are not blank. -/
theorem HoldsTexts.textsPresent {shape : Shape σ} (h : HoldsTexts texts shape) {data : Json}
    {state : σ} (hdecode : shape.decode data = .ok state) : TextsPresent (texts state) :=
  Shape.decode_keeps (P := fun state => TextsPresent (texts state)) h.empty h.slots hdecode

end Records

/-! ## Texts of records -/

/-- The texts of a component, present or not. -/
def Component.textFields : Component → List (Option String)
  | .request _ payload => [payload.url]
  | .bearerToken credential => [credential.token]
  | .userPassword credential => [credential.username, credential.password]
  | .apiKey key => [key.name, key.value]
  | .statusCheck check => [check.operator]
  | .fieldCheck check => [check.path, check.operator]
  | .headerCheck check => [check.header, check.operator]
  | .schemaCheck check => [check.operator]
  | .timeCheck check => [check.operator]
  | .extraction entries => entries.flatMap fun entry => [entry.name, entry.path]
  | .assignment assignments => assignments.entries.flatMap fun entry => [entry.name]
  | .message payload => [payload.text]

/-- A record is never given a blank text, whatever the kind of the payload.  Requests and lists of
assignments have their texts elsewhere: in the address before it is trimmed, and in each entry. -/
theorem Kind.holdsTexts {kind : Kind} (hrequest : ∀ method, kind ≠ .request method)
    (hassignment : kind ≠ .assignment) :
    HoldsTexts (fun record => (kind.make record).textFields) kind.shape := by
  cases kind with
  | request method => exact absurd rfl (hrequest method)
  | assignment => exact absurd rfl hassignment
  | _ =>
      -- The empty record has no texts, and each field is a text of the record or stands beside its
      -- texts.
      refine ⟨?_, ?_⟩
      · simp [shape, make, Component.textFields, TextsPresent, BearerToken.shape,
          UserPassword.shape, ApiKey.shape, StatusCheck.shape, FieldCheck.shape, HeaderCheck.shape,
          SchemaCheck.shape, TimeCheck.shape, Extraction.shape, Message.shape]
      · simp [shape, make, Component.textFields, BearerToken.shape, UserPassword.shape,
          ApiKey.shape, StatusCheck.shape, FieldCheck.shape, HeaderCheck.shape, SchemaCheck.shape,
          TimeCheck.shape, Extraction.shape, Message.shape]

/-- The address of a request is not blank before it is trimmed. -/
theorem Request.holdsTexts : HoldsTexts (fun fields => [fields.url]) shape :=
  ⟨by simp [shape, TextsPresent], by simp [shape]⟩

/-- The name of an assignment is not blank. -/
theorem Assignment.holdsTexts : HoldsTexts (fun assignment => [assignment.name]) shape :=
  ⟨by simp [shape, TextsPresent], by simp [shape]⟩

/-! ## Texts of a component -/

/-- The texts of extractions are not blank, be they listed or not. -/
theorem Extraction.textsPresent_of_decodeAll {data : Json} {entries : List Extraction}
    (h : decodeAll data = .ok entries) :
    ∀ entry ∈ entries, TextsPresent [entry.name, entry.path] := by
  have hentry : ∀ data entry, shape.decode data = .ok entry →
      TextsPresent [entry.name, entry.path] :=
    fun _ _ => (@Kind.holdsTexts .extraction (by simp) (by decide)).textsPresent
  cases data with
  | object fields =>
      -- The entries are those of the list, if it has any, or the one in the payload itself.
      obtain ⟨listed, hlisted, h⟩ := bind_eq_ok.mp h
      obtain ⟨inline, hinline, h⟩ := bind_eq_ok.mp h
      split at h
      · cases h
        unfold decodeList at hlisted
        split at hlisted
        · cases hlisted
          exact List.forall_mem_nil _
        · cases hlisted
          exact List.forall_mem_nil _
        · exact Json.forall_mem_of_list hentry hlisted
      · split at h
        · cases h
          exact List.forall_mem_nil _
        · cases h
          exact List.forall_mem_singleton.mpr (hentry (.object fields) inline hinline)
  | _ => cases h

/-- The names of assignments are not blank. -/
theorem Assignments.textsPresent_of_decode {data : Json} {assignments : Assignments}
    (h : shape.decode data = .ok assignments) :
    ∀ entry ∈ assignments.entries, TextsPresent [entry.name] := by
  refine Shape.decode_keeps
    (P := fun a : Assignments => ∀ entry ∈ a.entries, TextsPresent [entry.name]) ?_ ?_ h
  · exact List.forall_mem_nil _
  · refine List.forall_mem_singleton.mpr (Slot.keeps_of fun v list state hlist _ => ?_)
    exact Json.forall_mem_of_list (fun _ _ => Assignment.holdsTexts.textsPresent) hlist

/-- The address of a request has no blanks around it. -/
theorem Request.isTight_url_of_decode {data : Json} {request : Request}
    (h : decode data = .ok request) : ∀ url ∈ request.url, Text.IsTight url.toList := by
  obtain ⟨fields, hfields, rfl⟩ := Json.map_eq_ok.mp h
  intro url hurl
  obtain ⟨raw, hraw, rfl⟩ := Option.map_eq_some_iff.mp hurl
  have hpresent := holdsTexts.textsPresent hfields
  exact Text.isTight_trimmed (hpresent fields.url List.mem_cons_self raw hraw)

namespace Component

/-- A text that is present in a decoded component is not blank. -/
theorem textsPresent_of_decode {kind : Kind} {data : Json} {component : Component}
    (h : decode kind data = .ok component) : TextsPresent component.textFields := by
  have hentries : ∀ {α : Type} {texts : α → List (Option String)} {entries : List α},
      (∀ entry ∈ entries, TextsPresent (texts entry)) → TextsPresent (entries.flatMap texts) := by
    intro α texts entries hentries field hfield
    obtain ⟨entry, hentry, hfield⟩ := List.mem_flatMap.mp hfield
    exact hentries entry hentry field hfield
  cases kind with
  | request method =>
      obtain ⟨request, hrequest, rfl⟩ := Json.map_eq_ok.mp h
      have htight := Request.isTight_url_of_decode hrequest
      exact List.forall_mem_singleton.mpr fun url hurl => (htight url hurl).isBlank_eq_false
  | extraction =>
      obtain ⟨entries, hdecode, rfl⟩ := Json.map_eq_ok.mp h
      exact hentries (Extraction.textsPresent_of_decodeAll hdecode)
  | assignment =>
      obtain ⟨assignments, hdecode, rfl⟩ := Json.map_eq_ok.mp h
      exact hentries (Assignments.textsPresent_of_decode hdecode)
  | _ =>
      -- the other kinds hold their texts as they were decoded
      obtain ⟨record, hdecode, rfl⟩ := exists_record_of_decode (by decide) h
      exact (Kind.holdsTexts (by simp) (by decide)).textsPresent hdecode

end Component

/-! ## Addresses and credentials in steps -/

/-- The steps of a component of a kind in which addresses and credentials are not blank.  Of the
steps of a request, the one with the keyword `Given` has the address. -/
inductive Presents : Kind → Step → Prop
  | diagnostic {kind : Kind} (subject message : String) :
      Presents kind (.diagnostic subject message)
  | address {method : Method} {url : String} (hurl : Text.IsTight url.toList) :
      Presents (.request method) (.instruction .given ("url " ++ quote url))
  | detail {method : Method} {keyword : Keyword} (hkeyword : keyword ≠ .given) (text : String) :
      Presents (.request method) (.instruction keyword text)
  | token {token : String} (htoken : Text.isBlank token = false) :
      Presents .bearerToken
        (.instruction .and ("header Authorization = " ++ quote ("Bearer " ++ token)))
  | userPassword {username password : String} (husername : Text.isBlank username = false)
      (hpassword : Text.isBlank password = false) :
      Presents .userPassword (.instruction .and ("header Authorization = " ++
        quote ("Basic " ++ Text.Base64.ofString (username ++ ":" ++ password))))
  | key {word name value : String} (hword : word = "header" ∨ word = "param")
      (hname : Text.isBlank name = false) (hvalue : Text.isBlank value = false) :
      Presents .apiKey (.instruction .and (word ++ " " ++ name ++ " = " ++ quote value))
  | other {kind : Kind} (hrequest : ∀ method, kind ≠ .request method)
      (hcredential : kind ∉ [.bearerToken, .userPassword, .apiKey]) (step : Step) :
      Presents kind step

/-- No step between the first and the last of a request has an address. -/
theorem Request.presents_of_joins {method : Method} {step : Step} (h : Joins step) :
    Presents (.request method) step := by
  cases step with
  | diagnostic subject message => exact .diagnostic subject message
  | instruction keyword text =>
      refine .detail ?_ text
      rw [h keyword text rfl]
      decide

/-- The address that opens a request is tight if the one in the request is. -/
theorem Request.presents_steps (subject : String) (method : Method) {request : Request}
    (h : ∀ url ∈ request.url, Text.IsTight url.toList) :
    ∀ step ∈ request.steps subject method, Presents (.request method) step := by
  cases hurl : request.url with
  | none =>
      rw [steps, drafts, hurl]
      exact List.forall_mem_singleton.mpr (.diagnostic _ _)
  | some url =>
      have hheaders : ShowsList subject "header" request.headers _ :=
        showsList_listDrafts (Or.inl rfl) request.headers
      have hparams : ShowsList subject "param" request.params _ :=
        showsList_listDrafts (Or.inr rfl) request.params
      have hbody := showsBody_attachedBody subject method request
      -- Only the first step opens with `Given`; those in between open with `And`, and the last with
      -- `When`.
      rw [steps_of_url subject hurl method]
      simp only [List.forall_mem_append, List.forall_mem_singleton]
      refine ⟨⟨.address (h url hurl), ⟨?_, ?_⟩, ?_⟩, .detail (by decide) _⟩
      · exact fun step hstep => presents_of_joins (hheaders.joins step hstep)
      · exact fun step hstep => presents_of_joins (hparams.joins step hstep)
      · exact fun step hstep => presents_of_joins (hbody.joins step hstep)

/-- The token in a step is not blank. -/
theorem BearerToken.presents_step (subject : String) {credential : BearerToken}
    (h : TextsPresent [credential.token]) :
    Presents .bearerToken (credential.draft.step subject) := by
  rw [← credential.sound_draft.spoken_instruction]
  obtain ⟨_ | token⟩ := credential
  · exact .diagnostic _ _
  · exact .token (h _ List.mem_cons_self token rfl)

/-- Neither the user name nor the password in a step is blank. -/
theorem UserPassword.presents_step (subject : String) {credential : UserPassword}
    (h : TextsPresent [credential.username, credential.password]) :
    Presents .userPassword (credential.draft.step subject) := by
  rw [← credential.sound_draft.spoken_instruction]
  obtain ⟨_ | username, _ | password⟩ := credential
  · exact .diagnostic _ _
  · exact .diagnostic _ _
  · exact .diagnostic _ _
  · exact .userPassword (h _ List.mem_cons_self username rfl)
      (h _ (List.mem_cons_of_mem _ List.mem_cons_self) password rfl)

/-- A key without a name goes under the default name, which is not blank either. -/
theorem ApiKey.presents_step (subject : String) {key : ApiKey}
    (h : TextsPresent [key.name, key.value]) : Presents .apiKey (key.draft.step subject) := by
  have hname : Text.isBlank (key.name.getD defaultName) = false := by
    cases hkey : key.name with
    | none => decide
    | some name => exact h _ List.mem_cons_self name hkey
  -- Since the draft is sound, its text is in the step as it was put together.
  rw [← key.sound_draft.spoken_instruction]
  unfold ApiKey.draft
  split
  · exact .diagnostic _ _
  · rename_i value hvalue
    have hvalue := h _ (List.mem_cons_of_mem _ List.mem_cons_self) value hvalue
    dsimp only
    split
    · cases key.location with
      | header => exact .key (.inl rfl) hname hvalue
      | query => exact .key (.inr rfl) hname hvalue
    · exact .diagnostic _ _

/-- The addresses and credentials in the steps of a decoded component are not blank. -/
theorem Component.presents_of_decode {kind : Kind} {data : Json} {component : Component}
    (h : decode kind data = .ok component) (subject : String) :
    ∀ step ∈ component.steps subject, Presents kind step := by
  have htexts := textsPresent_of_decode h
  cases kind with
  | request method =>
      obtain ⟨request, hrequest, rfl⟩ := Json.map_eq_ok.mp h
      exact Request.presents_steps subject method (Request.isTight_url_of_decode hrequest)
  | bearerToken =>
      obtain ⟨credential, -, rfl⟩ := Json.map_eq_ok.mp h
      exact List.forall_mem_singleton.mpr (BearerToken.presents_step subject htexts)
  | userPassword =>
      obtain ⟨credential, -, rfl⟩ := Json.map_eq_ok.mp h
      exact List.forall_mem_singleton.mpr (UserPassword.presents_step subject htexts)
  | apiKey =>
      obtain ⟨key, -, rfl⟩ := Json.map_eq_ok.mp h
      exact List.forall_mem_singleton.mpr (ApiKey.presents_step subject htexts)
  | _ => exact fun step _ => .other (by simp) (by decide) step

end TestFlow
