import TestFlow.Proofs.Variable.Assignment
import TestFlow.Proofs.Variable.Extraction

/-!
# Components speak the script language

Every step of a component is a diagnostic about its node or an instruction of the script language,
whatever texts and values its payload holds.  The exception is the check of a field: the path of the
field is written into the step as it is, since it is an expression of the language and not a text.

For the other components the texts are sentences as soon as they are put together, before their
lines are joined.  So joining the lines never changes them, and emission with `Step.instruction`
gives the same steps as emission with `Step.say`.  Both follow from one fact about the drafts of a
component: they are sound.

Reference: specification, §4.3 (step emitter) and §8 (testable properties).

## Main statements

* `Component.sound_drafts` — the drafts of a component are sound;
* `node_instructions_are_sentences` — the instructions of a node are sentences as they stand.
-/

namespace TestFlow

open Script

/-! ## Requests -/

namespace Request

/-- The words for the entries of a list are those for headers or for query parameters. -/
def IsEntryWords (words : EntryWords) : Prop :=
  words = headerWords ∨ words = paramWords

/-- The text that sets a header or a query parameter is a sentence if the name is a token. -/
theorem sentence_setting {words : EntryWords} (hwords : IsEntryWords words) {name : String}
    (hname : Text.isToken name = true) (value : String) :
    Sentence .and (words.setting name value) := by
  rcases hwords with rfl | rfl
  · exact .header (isToken_iff.mp hname) (isQuoted_quote value)
  · exact .param (isToken_iff.mp hname) (isQuoted_quote value)

/-- An entry under a name that is no token is not set but reported. -/
theorem sound_entryDraft {words : EntryWords} (hwords : IsEntryWords words) (entry : KeyValue) :
    (entryDraft words entry).Sound := by
  unfold entryDraft
  split
  · exact sentence_setting hwords (by assumption) _
  · exact trivial

/-- A list is reported as a whole, or each of its entries is set or reported. -/
theorem sound_listDrafts {words : EntryWords} (hwords : IsEntryWords words) (list : KeyValues) :
    ∀ draft ∈ listDrafts words list, draft.Sound := by
  cases list with
  | error problem => exact List.forall_mem_singleton.mpr trivial
  | ok entries => exact List.forall_mem_map.mpr fun entry _ => sound_entryDraft hwords entry

/-- A body is defined as a literal, in whatever form it is sent. -/
theorem sound_bodyDrafts (body : Except Body.Problem Body) :
    ∀ draft ∈ bodyDrafts body, draft.Sound := by
  have hpair : ∀ {value attached : String}, IsLiteral value → Sentence .and attached →
      ∀ draft ∈ [bodyDefinition value, .instruction .and attached], draft.Sound := by
    intro value attached hvalue hattached
    have hdefinition : (bodyDefinition value).Sound := Sentence.body hvalue
    exact List.forall_mem_cons.mpr ⟨hdefinition, List.forall_mem_singleton.mpr hattached⟩
  -- A value, a form and a text are three kinds of literals.
  rcases body with problem | v | fields | s
  · exact List.forall_mem_singleton.mpr trivial
  · exact hpair (isLiteral_literal v) .request
  · exact hpair (isLiteral_compact _) .formFields
  · exact hpair (isLiteral_quote s) .request

/-- All parts of a request are sound. -/
theorem sound_drafts (method : Method) (request : Request) :
    ∀ draft ∈ request.drafts method, draft.Sound := by
  intro draft hdraft
  unfold drafts at hdraft
  split at hdraft
  · exact List.forall_mem_singleton.mpr trivial draft hdraft
  · simp only [List.mem_append, List.mem_singleton] at hdraft
    -- the address, the headers, the query parameters, the body and the sending
    rcases hdraft with (((rfl | hheader) | hparam) | hbody) | rfl
    · exact Sentence.url (isQuoted_quote _)
    · exact sound_listDrafts (Or.inl rfl) _ draft hheader
    · exact sound_listDrafts (Or.inr rfl) _ draft hparam
    · unfold attachedBody at hbody
      split at hbody
      · split at hbody
        · exact sound_bodyDrafts _ draft hbody
        · cases hbody
      · cases hbody
    · exact Sentence.method (isMethod_name method)

end Request

/-! ## Credentials -/

/-- The authorization header is an entry of the headers whose name is a token. -/
theorem sentence_authorization (value : String) :
    Sentence .and ("header Authorization = " ++ quote value) := by
  have htoken : IsToken "Authorization" := isToken_iff.mp (by decide)
  exact .header htoken (isQuoted_quote value)

/-- A token is put into a quoted text. -/
theorem BearerToken.sound_draft (credential : BearerToken) : credential.draft.Sound := by
  obtain ⟨_ | token⟩ := credential
  · exact trivial
  · exact sentence_authorization _

/-- A user name and a password are put into a quoted text, encoded. -/
theorem UserPassword.sound_draft (credential : UserPassword) : credential.draft.Sound := by
  unfold UserPassword.draft
  split
  · exact sentence_authorization _
  · exact trivial

/-- A key is set by the words for a header or for a query parameter, under a name that is a
token. -/
theorem ApiKey.sound_draft (key : ApiKey) : key.draft.Sound := by
  have hwords : Request.IsEntryWords key.location.words := by
    cases key.location with
    | header => exact Or.inl rfl
    | query => exact Or.inr rfl
  unfold ApiKey.draft
  split
  · exact trivial
  · dsimp only
    split
    · exact Request.sentence_setting hwords (by assumption) _
    · exact trivial

/-! ## Checks -/

/-- A status is expected by its digits. -/
theorem StatusCheck.sound_draft (check : StatusCheck) : check.draft.Sound := by
  unfold StatusCheck.draft
  split
  · exact trivial
  · split
    · exact Sentence.status (isDecimal_repr _)
    · exact Sentence.statusCheck (isOperator_token _) (isDecimal_repr _)

/-- A header is compared by its name in quotes. -/
theorem HeaderCheck.sound_comparisonDraft (header : String) (comparison : Comparison)
    (expected : Json) :
    (comparisonDraft ("karate.response.header(" ++ quote header ++ ")") comparison
      expected).Sound := by
  have hverb : (if comparison.isOrdering then "assert" else "match") ∈ ["match", "assert"] := by
    split <;> decide
  -- the sentence has the blanks around the expression in its own words
  have hwords : ∀ verb : String, verb ++ " " ++ ("karate.response.header(" ++ quote header ++ ")")
      ++ " " ++ comparison.token ++ " " ++ literal expected = verb ++ " karate.response.header("
      ++ quote header ++ ") " ++ comparison.token ++ " " ++ literal expected := by
    intro verb
    rw [← String.toList_inj]
    simp
  simp only [comparisonDraft, Draft.Sound, hwords]
  exact Sentence.headerCheck hverb (isQuoted_quote header) (isOperator_token comparison)
    (isLiteral_literal expected)

/-- A check of a header is sound if it lacks nothing, and reported otherwise. -/
theorem HeaderCheck.sound_draft (check : HeaderCheck) : check.draft.Sound := by
  unfold HeaderCheck.draft
  split
  · exact trivial
  · exact trivial
  · exact sound_comparisonDraft _ _ _

/-- A schema is a literal. -/
theorem SchemaCheck.sound_draft (check : SchemaCheck) : check.draft.Sound := by
  obtain ⟨_ | schema, operator⟩ := check
  · exact trivial
  · exact Sentence.schemaCheck (isOperator_token _) (isLiteral_literal schema)

/-- A limit is given by its digits. -/
theorem TimeCheck.sound_draft (check : TimeCheck) : check.draft.Sound := by
  obtain ⟨_ | limit, operator⟩ := check
  · exact trivial
  · exact Sentence.timeCheck (isOperator_token _) (isDecimal_repr limit)

/-! ## Variables -/

/-- Extractions are sound one by one, and the names they collect are names of variables. -/
theorem Extraction.sound_drafts (entries : List Extraction) :
    ∀ draft ∈ Extraction.drafts entries, draft.Sound := by
  unfold Extraction.drafts
  split
  · exact List.forall_mem_singleton.mpr trivial
  · dsimp only
    rw [List.forall_mem_append]
    -- The collection is left out if no name is bound; a sentence needs at least one.
    refine ⟨lawful_binder.sound_drafts, ?_⟩
    split
    · exact fun _ => False.elim ∘ List.not_mem_nil
    · rename_i hne
      exact List.forall_mem_singleton.mpr (sound_collection (by simpa using hne))

/-- Assignments are sound one by one. -/
theorem Assignments.sound_drafts (assignments : Assignments) :
    ∀ draft ∈ assignments.drafts, draft.Sound := by
  unfold Assignments.drafts
  split
  · exact List.forall_mem_singleton.mpr trivial
  · exact Assignment.lawful_binder.sound_drafts

/-- A message is a quoted text. -/
theorem Message.sound_draft (message : Message) : message.draft.Sound := by
  obtain ⟨_ | s⟩ := message
  · exact trivial
  · exact Sentence.print (isQuoted_quote s)

/-! ## Components and nodes -/

/-- Whatever a component says is a notice or a sentence, unless it checks a field. -/
theorem Component.sound_drafts {component : Component} (h : component.kind ≠ .fieldCheck) :
    ∀ draft ∈ component.drafts, draft.Sound := by
  cases component with
  | request method payload => exact payload.sound_drafts method
  | bearerToken credential => exact List.forall_mem_singleton.mpr credential.sound_draft
  | userPassword credential => exact List.forall_mem_singleton.mpr credential.sound_draft
  | apiKey key => exact List.forall_mem_singleton.mpr key.sound_draft
  | statusCheck check => exact List.forall_mem_singleton.mpr check.sound_draft
  | fieldCheck check => exact absurd rfl h
  | headerCheck check => exact List.forall_mem_singleton.mpr check.sound_draft
  | schemaCheck check => exact List.forall_mem_singleton.mpr check.sound_draft
  | timeCheck check => exact List.forall_mem_singleton.mpr check.sound_draft
  | extraction entries => exact Extraction.sound_drafts entries
  | assignment assignments => exact assignments.sound_drafts
  | message payload => exact List.forall_mem_singleton.mpr payload.sound_draft

/-- The same holds of a node, since a payload that could not be decoded gives a notice. -/
theorem Node.sound_drafts {node : Node}
    (h : ∀ component, node.payload = .ok component → component.kind ≠ .fieldCheck) :
    ∀ draft ∈ node.drafts, draft.Sound := by
  unfold Node.drafts
  cases hpayload : node.payload with
  | error e => exact List.forall_mem_singleton.mpr trivial
  | ok component => exact Component.sound_drafts (h component hpayload)

namespace Draft

variable {draft : Draft} {subject : String}

/-- A sentence has no line break, so nothing is changed by joining its lines. -/
theorem Sound.spoken_instruction (h : draft.Sound) :
    draft.spoken Step.instruction subject = draft.step subject := by
  cases draft with
  | instruction keyword text => exact (Sentence.say_eq h).symm
  | notice message => rfl

/-- If the step of a sound draft is an instruction, it is the sentence that the draft has. -/
theorem Sound.sentence_of_step (h : draft.Sound) {keyword : Keyword} {text : String}
    (hstep : draft.step subject = .instruction keyword text) : Sentence keyword text := by
  rw [← h.spoken_instruction] at hstep
  cases draft with
  | notice message => cases hstep
  | instruction keyword' text' =>
      cases hstep
      exact h

/-- So sound drafts are made as they were put together. -/
theorem map_step_of_sound {drafts : List Draft} (h : ∀ draft ∈ drafts, draft.Sound) :
    drafts.map (Draft.step subject) = drafts.map (Draft.spoken Step.instruction subject) :=
  List.map_congr_left fun draft hdraft => (h draft hdraft).spoken_instruction.symm

end Draft

/-- Every instruction of a node that does not check a field is a sentence of the script language,
whatever its payload holds, and the texts of its steps are the same with and without the joining of
their lines. -/
theorem node_instructions_are_sentences (node : Node)
    (h : ∀ component, node.payload = .ok component → component.kind ≠ .fieldCheck) :
    (∀ keyword text, .instruction keyword text ∈ node.steps → Sentence keyword text) ∧
      ∀ made, node.emit Step.say made = made ++ node.steps ∧
        node.emit Step.instruction made = made ++ node.steps := by
  have hsound := Node.sound_drafts h
  refine ⟨?_, fun made => ⟨node.emit_say made, ?_⟩⟩
  · intro keyword text hmem
    obtain ⟨draft, hdraft, hstep⟩ := List.mem_map.mp hmem
    exact (hsound draft hdraft).sentence_of_step hstep
  · rw [node.emits, Node.steps, Draft.map_step_of_sound hsound]

/-- Extractions whose texts hold quotes and line breaks, whose second name is taken and whose third
name is none. -/
def unrulyExtraction : Node where
  id := "take\n1"
  kind := .extraction
  payload := .ok (.extraction [⟨some "total", some "$.it's\nhere", some (.string "a\r")⟩,
    ⟨some "total", some "$.other", none⟩, ⟨some "x\n= 1", some "$.x", none⟩])

/-- The quotes and line breaks are escaped, and the name that is taken and the one that is none
are in no instruction. -/
theorem unrulyExtraction_instructions_are_sentences :
    Sentence .and "def total = karate.jsonPath(response, '$.it\\'s\\nhere') || 'a\\r'" ∧
      Sentence .and "def extractedVariables = \x7b total: '#(total)' \x7d" ∧
      unrulyExtraction.emit Step.instruction [] = unrulyExtraction.steps := by
  have hkind : ∀ component, unrulyExtraction.payload = .ok component →
      component.kind ≠ .fieldCheck := by
    intro component hcomponent
    cases hcomponent
    decide
  obtain ⟨hsentence, hemit⟩ := node_instructions_are_sentences unrulyExtraction hkind
  exact ⟨hsentence _ _ (by decide +kernel), hsentence _ _ (by decide +kernel), (hemit []).2⟩

end TestFlow
