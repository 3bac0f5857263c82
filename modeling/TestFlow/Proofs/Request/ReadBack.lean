import TestFlow.Proofs.Component.Sentences
import TestFlow.Proofs.Script.Setting

/-!
# Requests are read back from their steps

The steps of a request come in four sections between its first and its last step: the address, the
headers, the query parameters and the body, then the method.  An entry that cannot be set, a list
and a body that cannot be read leave one diagnostic in their place, so no section shows in another.

What the instructions tell of a request is read by a reader that knows only their forms.  It takes
the entries of a section as long as the word of the section comes, so it must be shown that nothing
behind the section begins with that word.  A value in quotes may hold what looks like the rest of a
step; reading it to the end of its quotes keeps it from being taken for that.

Reference: specification, §4.3 (requests) and §8 (testable properties).

## Main definitions

* `Reading`, `Reading.ofSteps?` — what the instructions of a request tell, and the reader of them;
* `ShowsEntry`, `ShowsList`, `ShowsBody` — the steps that stand for an entry, for a list and for a
  body.

## Main statement

* `request_is_read_back` — the steps of a request stand in order, and tell all that was accepted.
-/

namespace TestFlow

open Script

/-- How a body shows in the steps of a request: the literal of its value, and whether it is sent as
the fields of a form. -/
structure Attachment where
  literal : String
  isForm : Bool

/-- How a body is attached. -/
def Body.attachment : Body → Attachment
  | .json v => ⟨Script.literal v, false⟩
  | .form fields => ⟨(objectOf (fields.map fun field => (field.key, field.value))).compact, true⟩
  | .text s => ⟨quote s, false⟩

namespace Method

theorem allowsBody_eq_true_iff {method : Method} :
    method.allowsBody = true ↔ method ∈ [.post, .put, .patch] := by
  cases method <;> decide

theorem allowsBody_eq_false_iff {method : Method} :
    method.allowsBody = false ↔ method ∈ [.get, .delete] := by
  cases method <;> decide

theorem ofName?_name (method : Method) : ofName? method.name = some method := by
  cases method <;> decide

end Method

namespace Request

/-! ## The reader -/

/-- What the instructions of a request tell. -/
structure Reading where
  method : Method
  url : String
  headers : List KeyValue
  params : List KeyValue
  body : Option Attachment

def url? (step : Step) : Option String :=
  match step.command? with
  | some (.given, word, cs) => if word = "url" then unquoted? cs else none
  | _ => none

def method? (step : Step) : Option Method :=
  match step.command? with
  | some (.when, word, cs) => if word = "method" then Method.ofName? (String.ofList cs) else none
  | _ => none

/-- Reads a step that sets an entry of the list with the given word. -/
def keyValue? (word : String) (step : Step) : Option KeyValue :=
  match step.setting? with
  | some setting =>
    if setting.word = word then (unquoted? setting.expression).map (⟨setting.name, ·⟩) else none
  | none => none

/-- Reads the entries of a list from the steps that come first, and gives the other steps too. -/
def keyValues (word : String) : List Step → List KeyValue × List Step
  | [] => ([], [])
  | step :: steps =>
    match keyValue? word step with
    | some entry => (entry :: (keyValues word steps).1, (keyValues word steps).2)
    | none => ([], step :: steps)

/-- Reads the literal of the body from the step that defines it. -/
def bodyLiteral? (step : Step) : Option String :=
  match step.setting? with
  | some setting =>
    if setting.word = Step.definitionWord ∧ setting.name = bodyVariable then
      some (String.ofList setting.expression)
    else none
  | none => none

/-- Reads from the step that attaches the body whether it is sent as the fields of a form. -/
def isForm? (step : Step) : Option Bool :=
  if step = .instruction .and "request requestBody" then some false
  else if step = .instruction .and "form fields requestBody" then some true
  else none

/-- Reads a body from the steps that come first, if they are those of a body, and gives the other
steps too. -/
def attachment? : List Step → Option Attachment × List Step
  | definition :: attachment :: steps =>
    match bodyLiteral? definition, isForm? attachment with
    | some literal, some isForm => (some ⟨literal, isForm⟩, steps)
    | _, _ => (none, definition :: attachment :: steps)
  | steps => (none, steps)

/-- Reads the instructions of a request. -/
def Reading.ofSteps? : List Step → Option Reading
  | [] => none
  | first :: steps => do
    let url ← url? first
    let (headers, steps) := keyValues "header" steps
    let (params, steps) := keyValues "param" steps
    let (body, steps) := attachment? steps
    match steps with
    | [last] => do
      let method ← method? last
      some ⟨method, url, headers, params, body⟩
    | _ => none

/-! ## What the steps stand for -/

variable (subject : String)

/-- The step of an entry: an instruction if its key is a token, and a diagnostic otherwise. -/
inductive ShowsEntry (word : String) (entry : KeyValue) : Step → Prop
  | set (hkey : IsToken entry.key) :
      ShowsEntry word entry
        (.instruction .and (word ++ " " ++ entry.key ++ " = " ++ quote entry.value))
  | skipped (hkey : ¬IsToken entry.key) (message : String) :
      ShowsEntry word entry (.warn subject message)

/-- The steps of a list: one for each entry, or a diagnostic for the whole list. -/
inductive ShowsList (word : String) : KeyValues → List Step → Prop
  | entries {entries : List KeyValue} {steps : List Step}
      (h : List.Forall₂ (ShowsEntry subject word) entries steps) :
      ShowsList word (.ok entries) steps
  | unread (problem : KeyValues.Problem) (message : String) :
      ShowsList word (.error problem) [.warn subject message]

/-- The steps of a body: none if there is no body or the method carries none, and otherwise those
that define and attach it, or a diagnostic for it. -/
inductive ShowsBody (method : Method) : Option (Except Body.Problem Body) → List Step → Prop
  | absent : ShowsBody method none []
  | unsent (hmethod : method ∈ [.get, .delete]) (body : Option (Except Body.Problem Body)) :
      ShowsBody method body []
  | attached (hmethod : method ∈ [.post, .put, .patch]) (body : Body) :
      ShowsBody method (some (.ok body))
        [.instruction .and ("def requestBody = " ++ body.attachment.literal),
          .instruction .and (if body.attachment.isForm then "form fields requestBody"
            else "request requestBody")]
  | unread (hmethod : method ∈ [.post, .put, .patch]) (problem : Body.Problem) (message : String) :
      ShowsBody method (some (.error problem)) [.warn subject message]

/-- The entries of a list that are set. -/
def tokenEntries : KeyValues → List KeyValue
  | .ok entries => entries.filter fun entry => Text.isToken entry.key
  | .error _ => []

/-- How the body of a request is attached, if it can be read and the method carries one. -/
def sentBody (method : Method) : Option (Except Body.Problem Body) → Option Attachment
  | some (.ok body) => if method ∈ [.post, .put, .patch] then some body.attachment else none
  | _ => none

/-! ## The steps of a request show its parts -/

variable {subject}

/-- An entry is set if its key is a token, and has a diagnostic in its place if not. -/
theorem showsEntry_entryDraft {words : EntryWords} (hwords : IsEntryWords words)
    (entry : KeyValue) :
    ShowsEntry subject words.keyword entry ((entryDraft words entry).step subject) := by
  unfold entryDraft
  split
  · rename_i hkey
    rw [Draft.step, (sentence_setting hwords hkey entry.value).say_eq]
    exact .set (isToken_iff.mp hkey)
  · rename_i hkey
    exact .skipped (fun htoken => hkey (isToken_iff.mpr htoken)) _

/-- The steps of a list show its entries. -/
theorem showsList_listDrafts {words : EntryWords} (hwords : IsEntryWords words) (list : KeyValues) :
    ShowsList subject words.keyword list ((listDrafts words list).map (Draft.step subject)) := by
  cases list with
  | error problem => exact .unread problem _
  | ok entries =>
      apply ShowsList.entries
      rw [listDrafts, List.map_map, List.forall₂_map_right_iff]
      exact List.forall₂_same.mpr fun entry _ => showsEntry_entryDraft hwords entry

/-- The steps of a body show what it is and how it is attached. -/
theorem showsBody_attachedBody (subject : String) (method : Method) (request : Request) :
    ShowsBody subject method request.body
      ((attachedBody method request).map (Draft.step subject)) := by
  unfold attachedBody
  cases request.body with
  | none => exact .absent
  | some body =>
      dsimp only
      by_cases hallows : method.allowsBody = true
      · have hmethod := Method.allowsBody_eq_true_iff.mp hallows
        rw [if_pos hallows, Draft.map_step_of_sound (sound_bodyDrafts body)]
        rcases body with problem | v | fields | s
        · exact .unread hmethod problem _
        · exact .attached hmethod (.json v)
        · exact .attached hmethod (.form fields)
        · exact .attached hmethod (.text s)
      · have hmethod := Method.allowsBody_eq_false_iff.mp (eq_false_of_ne_true hallows)
        rw [if_neg hallows]
        exact .unsent hmethod _

/-! ## Sections are read back -/

/-- What holds of the steps that set entries and of diagnostics holds of all steps of a list. -/
theorem ShowsList.forall_mem {word : String} {list : KeyValues} {steps : List Step}
    (h : ShowsList subject word list steps) {p : Step → Prop}
    (hset : ∀ entry : KeyValue, IsToken entry.key →
      p (.instruction .and (word ++ " " ++ entry.key ++ " = " ++ quote entry.value)))
    (hwarn : ∀ message, p (.warn subject message)) : ∀ step ∈ steps, p step := by
  cases h with
  | unread problem message => exact List.forall_mem_singleton.mpr (hwarn message)
  | entries hentries =>
      induction hentries with
      | nil => exact List.forall_mem_nil p
      | cons hentry _ ih =>
          refine List.forall_mem_cons.mpr ⟨?_, ih⟩
          cases hentry with
          | set hkey => exact hset _ hkey
          | skipped hkey message => exact hwarn message

theorem keyValue?_warn (word message : String) : keyValue? word (.warn subject message) = none :=
  rfl

/-- A step that sets an entry is read as the entry. -/
theorem keyValue?_set {word : String} (hword : ' ' ∉ word.toList) {entry : KeyValue}
    (hkey : IsToken entry.key) :
    keyValue? word (.instruction .and (word ++ " " ++ entry.key ++ " = " ++ quote entry.value)) =
      some entry := by
  simp [keyValue?, Step.setting?_instruction hword hkey.blank_not_mem]

/-- Nothing that is set under another word is taken for an entry. -/
theorem keyValue?_set_of_ne {word other : String} (hword : ' ' ∉ word.toList) (hne : word ≠ other)
    {entry : KeyValue} (hkey : IsToken entry.key) :
    keyValue? other (.instruction .and (word ++ " " ++ entry.key ++ " = " ++ quote entry.value)) =
      none := by
  simp [keyValue?, Step.setting?_instruction hword hkey.blank_not_mem, hne]

/-- No step of a list is taken for an entry of the list with the other word. -/
theorem ShowsList.keyValue?_eq_none {word other : String} {list : KeyValues} {steps : List Step}
    (h : ShowsList subject word list steps) (hword : ' ' ∉ word.toList) (hne : word ≠ other) :
    ∀ step ∈ steps, keyValue? other step = none :=
  h.forall_mem (fun _ hkey => keyValue?_set_of_ne hword hne hkey) (keyValue?_warn other)

/-- A section without entries leaves all steps to those behind it. -/
theorem keyValues_of_forall_none {word : String} {steps : List Step}
    (h : ∀ step ∈ steps, keyValue? word step = none) : keyValues word steps = ([], steps) := by
  cases steps with
  | nil => rfl
  | cons step steps => rw [keyValues, h step List.mem_cons_self]

/-- A step that sets an entry belongs to the section. -/
theorem keyValues_cons {word : String} {step : Step} {entry : KeyValue}
    (h : keyValue? word step = some entry) (steps : List Step) :
    keyValues word (step :: steps) =
      (entry :: (keyValues word steps).1, (keyValues word steps).2) := by
  rw [keyValues, h]

/-- An entry with a token for a key is set. -/
theorem tokenEntries_cons_of_isToken {entry : KeyValue} (h : IsToken entry.key)
    (entries : List KeyValue) :
    tokenEntries (.ok (entry :: entries)) = entry :: tokenEntries (.ok entries) := by
  simp [tokenEntries, isToken_iff.mpr h]

/-- An entry without a token for a key is not. -/
theorem tokenEntries_cons_of_not_isToken {entry : KeyValue} (h : ¬IsToken entry.key)
    (entries : List KeyValue) :
    tokenEntries (.ok (entry :: entries)) = tokenEntries (.ok entries) := by
  simp [tokenEntries, isToken_iff.not.mpr h]

/-- The entries of a list are read back, and no step behind those of the list is taken for one. -/
theorem ShowsList.keyValues_eq {word : String} {list : KeyValues} {steps rest : List Step}
    (h : ShowsList subject word list steps) (hword : ' ' ∉ word.toList)
    (hrest : ∀ step ∈ rest, keyValue? word step = none) :
    keyValues word (Step.instructions steps ++ rest) = (tokenEntries list, rest) := by
  cases h with
  | unread problem message => exact keyValues_of_forall_none hrest
  | entries hentries =>
      induction hentries with
      | nil => exact keyValues_of_forall_none hrest
      | cons hentry _ ih =>
          cases hentry with
          | set hkey =>
              rw [Step.instructions_instruction_cons, List.cons_append,
                keyValues_cons (keyValue?_set hword hkey), ih, tokenEntries_cons_of_isToken hkey]
          -- the diagnostic is no instruction and the entry is not set, so both sides lose it
          | skipped hkey message =>
              rw [Step.instructions_warn_cons, ih, tokenEntries_cons_of_not_isToken hkey]

/-! ## The body is read back -/

/-- The step that defines the body is a definition of its variable. -/
theorem setting?_bodyDefinition (value : String) :
    Step.setting? (.instruction .and ("def requestBody = " ++ value)) =
      some ⟨Step.definitionWord, bodyVariable, value.toList⟩ := by
  have hwords : "def requestBody = " = "def " ++ bodyVariable ++ " = " := by decide
  rw [hwords]
  exact Step.setting?_definition (by decide) value

/-- The literal of the body is read back from the step that defines it. -/
theorem bodyLiteral?_bodyDefinition (value : String) :
    bodyLiteral? (.instruction .and ("def requestBody = " ++ value)) = some value := by
  simp [bodyLiteral?, setting?_bodyDefinition]

/-- No step of a body is taken for an entry of a list. -/
theorem ShowsBody.keyValue?_eq_none {method : Method} {body : Option (Except Body.Problem Body)}
    {steps : List Step} (h : ShowsBody subject method body steps) {word : String}
    (hne : Step.definitionWord ≠ word) : ∀ step ∈ steps, keyValue? word step = none := by
  cases h with
  | absent => exact List.forall_mem_nil _
  | unsent hmethod body => exact List.forall_mem_nil _
  | unread hmethod problem message =>
      exact List.forall_mem_singleton.mpr (keyValue?_warn word message)
  | attached hmethod body =>
      refine List.forall_mem_cons.mpr ⟨?_, List.forall_mem_singleton.mpr ?_⟩
      · simp [keyValue?, setting?_bodyDefinition, hne]
      · -- neither of the steps that attach a body is a setting
        cases body.attachment.isForm with
        | true => rfl
        | false => rfl

/-- The body is read back, and is not taken for the step behind it. -/
theorem ShowsBody.attachment?_eq {method : Method} {body : Option (Except Body.Problem Body)}
    {steps : List Step} (h : ShowsBody subject method body steps) (last : Step) :
    attachment? (Step.instructions steps ++ [last]) = (sentBody method body, [last]) := by
  cases h with
  | absent => rfl
  | unread hmethod problem message => rfl
  | unsent hmethod body =>
      -- the body is not shown, whatever it is, and the reading has none either
      have hcarries : method ∉ [.post, .put, .patch] := by
        rw [← Method.allowsBody_eq_true_iff, Method.allowsBody_eq_false_iff.mpr hmethod]
        exact Bool.false_ne_true
      have hnone : sentBody method body = none := by
        unfold sentBody
        split
        · exact if_neg hcarries
        · rfl
      rw [hnone]
      rfl
  | attached hmethod body =>
      have hform : isForm? (.instruction .and (if body.attachment.isForm then
          "form fields requestBody" else "request requestBody")) = some body.attachment.isForm := by
        cases body.attachment.isForm with
        | true => decide
        | false => decide
      have hsent : sentBody method (some (.ok body)) = some body.attachment := if_pos hmethod
      rw [hsent, Step.instructions_instruction_cons, Step.instructions_instruction_cons,
        Step.instructions_nil]
      simp only [List.cons_append, List.nil_append, attachment?, bodyLiteral?_bodyDefinition, hform]

/-! ## The first and the last step -/

/-- The address is read back from the first step. -/
theorem url?_given (url : String) :
    url? (.instruction .given ("url " ++ quote url)) = some url := by
  have hword : "url " = "url" ++ " " := by decide
  rw [hword, url?, Step.command?_instruction (by decide)]
  simp

/-- The method is read back from the last step. -/
theorem method?_when (method : Method) :
    method? (.instruction .when ("method " ++ method.name)) = some method := by
  have hword : "method " = "method" ++ " " := by decide
  rw [hword, method?, Step.command?_instruction (by decide)]
  simp [Method.ofName?_name]

/-! ## Main statement -/

/-- A step between the first and the last is no instruction with another keyword than `And`. -/
def Joins (step : Step) : Prop :=
  ∀ keyword text, step = .instruction keyword text → keyword = .and

theorem joins_and (text : String) : Joins (.instruction .and text) := by
  rintro _ _ ⟨⟩
  rfl

theorem joins_warn (message : String) : Joins (.warn subject message) := by
  rintro _ _ ⟨⟩

/-- The steps of a list may stand between the first and the last. -/
theorem ShowsList.joins {word : String} {list : KeyValues} {steps : List Step}
    (h : ShowsList subject word list steps) : ∀ step ∈ steps, Joins step :=
  h.forall_mem (fun _ _ => joins_and _) joins_warn

/-- The steps of a body may stand between the first and the last. -/
theorem ShowsBody.joins {method : Method} {body : Option (Except Body.Problem Body)}
    {steps : List Step} (h : ShowsBody subject method body steps) : ∀ step ∈ steps, Joins step := by
  cases h with
  | absent => exact List.forall_mem_nil _
  | unsent hmethod body => exact List.forall_mem_nil _
  | unread hmethod problem message => exact List.forall_mem_singleton.mpr (joins_warn message)
  | attached hmethod body =>
      exact List.forall_mem_cons.mpr ⟨joins_and _, List.forall_mem_singleton.mpr (joins_and _)⟩

/-- With an address, a request is opened and sent, and its sections stand between. -/
theorem steps_of_url (subject : String) {request : Request} {url : String}
    (hurl : request.url = some url) (method : Method) :
    request.steps subject method = [.instruction .given ("url " ++ quote url)] ++
      ((listDrafts headerWords request.headers).map (Draft.step subject) ++
        (listDrafts paramWords request.params).map (Draft.step subject) ++
        (attachedBody method request).map (Draft.step subject)) ++
      [.instruction .when ("method " ++ method.name)] := by
  have hgiven : (addressDraft url).step subject = .instruction .given ("url " ++ quote url) :=
    Sentence.say_eq (.url (isQuoted_quote url))
  have hwhen : (sendingDraft method).step subject = .instruction .when ("method " ++ method.name) :=
    Sentence.say_eq (.method (isMethod_name method))
  simp only [steps, drafts, hurl, List.map_append, List.map_singleton, hgiven, hwhen,
    List.append_assoc]

/-- Steps that show the parts of a request are read as what was accepted of it. -/
theorem Reading.ofSteps?_of_shows {method : Method} {request : Request}
    {headers params body : List Step}
    (hheaders : ShowsList subject "header" request.headers headers)
    (hparams : ShowsList subject "param" request.params params)
    (hbody : ShowsBody subject method request.body body) (url : String) :
    ofSteps? (Step.instructions ([.instruction .given ("url " ++ quote url)] ++
      (headers ++ params ++ body) ++ [.instruction .when ("method " ++ method.name)])) =
      some ⟨method, url, tokenEntries request.headers, tokenEntries request.params,
        sentBody method request.body⟩ := by
  -- no step behind a section is set under the word of the section
  have hbehind : ∀ word, Step.definitionWord ≠ word → ∀ step ∈ Step.instructions body ++
      [.instruction .when ("method " ++ method.name)], keyValue? word step = none := by
    intro word hne
    rw [List.forall_mem_append]
    refine ⟨fun step hstep => ?_, List.forall_mem_singleton.mpr ?_⟩
    · exact hbody.keyValue?_eq_none hne step (Step.mem_of_mem_instructions hstep)
    · rw [keyValue?, Step.setting?_of_ne_and (by decide)]
  have hbehindHeaders : ∀ step ∈ Step.instructions params ++ (Step.instructions body ++
      [.instruction .when ("method " ++ method.name)]), keyValue? "header" step = none := by
    rw [List.forall_mem_append]
    refine ⟨fun step hstep => ?_, hbehind "header" (by decide)⟩
    exact hparams.keyValue?_eq_none (by decide) (by decide) step
      (Step.mem_of_mem_instructions hstep)
  have hreadHeaders := hheaders.keyValues_eq (by decide) hbehindHeaders
  have hreadParams := hparams.keyValues_eq (by decide) (hbehind "param" (by decide))
  simp [ofSteps?, url?_given, hreadHeaders, hreadParams, hbody.attachment?_eq, method?_when]

/-- With an address, the steps of a request are the only `Given`, the headers, the query parameters,
the body and the only `When`.  What can be set is set by instructions, from which the method, the
address, the entries with a token for a key and the body can be read back; what cannot be set or
read has one diagnostic in its place. -/
theorem request_is_read_back (subject : String) (method : Method) (request : Request) (url : String)
    (hurl : request.url = some url) :
    ∃ headers params body : List Step,
      request.steps subject method = [.instruction .given ("url " ++ quote url)] ++
        (headers ++ params ++ body) ++ [.instruction .when ("method " ++ method.name)] ∧
      (∀ step ∈ headers ++ params ++ body, Joins step) ∧
      ShowsList subject "header" request.headers headers ∧
      ShowsList subject "param" request.params params ∧
      ShowsBody subject method request.body body ∧
      Reading.ofSteps? (Step.instructions (request.steps subject method)) =
        some ⟨method, url, tokenEntries request.headers, tokenEntries request.params,
          sentBody method request.body⟩ := by
  have hsteps := steps_of_url subject hurl method
  have hheaders : ShowsList subject "header" request.headers _ :=
    showsList_listDrafts (Or.inl rfl) request.headers
  have hparams : ShowsList subject "param" request.params _ :=
    showsList_listDrafts (Or.inr rfl) request.params
  have hbody := showsBody_attachedBody subject method request
  refine ⟨_, _, _, hsteps, ?_, hheaders, hparams, hbody, ?_⟩
  · simp only [List.forall_mem_append]
    exact ⟨⟨hheaders.joins, hparams.joins⟩, hbody.joins⟩
  · rw [hsteps]
    exact Reading.ofSteps?_of_shows hheaders hparams hbody url

/-- A request with a name twice, a name that is no token, values that look like the rest of a step,
a list that cannot be read and a form. -/
def unrulyRequest : Request where
  url := some "http://x/'"
  headers := .ok [⟨"X", "a' = 'b"⟩, ⟨"X = y", "1"⟩, ⟨"X", "c\nd\\"⟩]
  params := .error .notRows
  body := some (.ok (.form [⟨"k", "1"⟩, ⟨"k", "2"⟩]))

/-- Such a request is read back without the name that is no token, and a request with another
method also without its body. -/
theorem unrulyRequest_is_read_back :
    unrulyRequest.url = some "http://x/'" ∧
      Reading.ofSteps? (Step.instructions (unrulyRequest.steps "r" .post)) =
        some ⟨.post, "http://x/'", [⟨"X", "a' = 'b"⟩, ⟨"X", "c\nd\\"⟩], [],
          some ⟨"\x7b\"k\":\"2\"\x7d", true⟩⟩ ∧
      Reading.ofSteps? (Step.instructions (unrulyRequest.steps "r" .get)) =
        some ⟨.get, "http://x/'", [⟨"X", "a' = 'b"⟩, ⟨"X", "c\nd\\"⟩], [], none⟩ := by
  have hheaders : tokenEntries unrulyRequest.headers = [⟨"X", "a' = 'b"⟩, ⟨"X", "c\nd\\"⟩] := by
    decide +kernel
  have hbody : (objectOf [("k", "1"), ("k", "2")]).compact = "\x7b\"k\":\"2\"\x7d" := by
    decide +kernel
  obtain ⟨_, _, _, -, -, -, -, -, hpost⟩ :=
    request_is_read_back "r" .post unrulyRequest "http://x/'" rfl
  obtain ⟨_, _, _, -, -, -, -, -, hget⟩ :=
    request_is_read_back "r" .get unrulyRequest "http://x/'" rfl
  rw [hheaders] at hpost hget
  rw [← hbody]
  exact ⟨rfl, hpost, hget⟩

end Request

end TestFlow
