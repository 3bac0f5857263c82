import TestFlow.Graph
import TestFlow.Proofs.Variable.Entries

/-!
# Emission onto the steps made so far

The steps of a component are a block of their own.  A scenario can also be made by handing on the
steps made so far: each component takes them, puts its own steps behind them one at a time, and
hands them to the next.  The components with a list of entries do so in a loop, which keeps the
names bound by the entries before and the number of entries seen.

The two ways agree.  Whatever was made before, emission leaves it in place and puts the block of the
component behind it (`Node.emit_say`): no component reads, drops or reorders the steps of another,
and the state of its loop ends with it.

Emission is stated for any way `say` of making a step of an instruction.  With `Step.say`, which
joins the lines of a text, it gives the steps of a compilation; with `Step.instruction`, it gives
the texts as they were put together.

Reference: specification, §4.3 (step emitter).

## Main definitions

* `Draft.spoken` — the step of a draft, for a way of making steps;
* `Binder.advance` — one turn of the loop over the entries of a component;
* `Component.emit`, `Node.emit` — emission of a component and of a node;
* `Emits` — emission puts the steps of given drafts behind what was made before.

## Main statements

* `Binder.foldl_advance` — the loop gives the same outcomes as sifting the entries;
* `Node.emits` — emission of a node emits its drafts;
* `Node.emit_say` — emission appends the steps of the node.
-/

namespace TestFlow

section Emission

variable (say : Keyword → String → Step) (subject : String)

/-- The step of a draft, where `say` makes the steps of instructions. -/
def Draft.spoken : Draft → Step
  | .instruction keyword text => say keyword text
  | .notice message => .warn subject message

/-- Puts the step of a draft behind the steps made so far. -/
def emitDraft (made : List Step) (draft : Draft) : List Step :=
  made ++ [draft.spoken say subject]

namespace Request

/-- Puts the steps of a list behind the steps made so far. -/
def emitList (words : EntryWords) (list : KeyValues) (made : List Step) : List Step :=
  match list with
  | .ok entries =>
    entries.foldl (fun made entry => emitDraft say subject made (entryDraft words entry)) made
  | .error problem => emitDraft say subject made (unreadList words problem)

/-- Puts the steps of a body behind the steps made so far. -/
def emitBody (body : Except Body.Problem Body) (made : List Step) : List Step :=
  (bodyDrafts body).foldl (emitDraft say subject) made

/-- Puts the steps of a request behind the steps made so far. -/
def emit (method : Method) (request : Request) (made : List Step) : List Step :=
  match request.url with
  | none => emitDraft say subject made (addressless method)
  | some url =>
    let made := emitDraft say subject made (addressDraft url)
    let made := emitList say subject headerWords request.headers made
    let made := emitList say subject paramWords request.params made
    let made :=
      if method.allowsBody then
        match request.body with
        | some body => emitBody say subject body made
        | none => made
      else made
    emitDraft say subject made (sendingDraft method)

end Request

namespace Binder

/-- The state of the loop over a list of entries: the steps made so far, by this component and those
before it, the names bound by the entries accepted so far, and the number of entries seen. -/
structure Progress where
  made : List Step
  names : List String
  seen : Nat

variable {α β ε : Type} (binder : Binder α β ε)

/-- One turn of the loop: the entry is checked against the names bound so far and gives one step; if
it is accepted, its name is bound. -/
def advance (progress : Progress) (entry : α) : Progress :=
  let outcome := binder.check progress.names entry
  { made := emitDraft say subject progress.made (binder.draft progress.seen outcome)
    names := match outcome with
      | .ok b => progress.names ++ [binder.name b]
      | .error _ => progress.names
    seen := progress.seen + 1 }

/-- The loop over a list of entries, onto the steps made so far. -/
def loop (entries : List α) (made : List Step) : Progress :=
  entries.foldl (binder.advance say subject) ⟨made, [], 0⟩

end Binder

/-- Puts the steps of a list of extractions behind the steps made so far. -/
def Extraction.emit (entries : List Extraction) (made : List Step) : List Step :=
  if entries.isEmpty then emitDraft say subject made unconfigured
  else
    let progress := binder.loop say subject entries made
    if progress.names.isEmpty then progress.made
    else emitDraft say subject progress.made (collection progress.names)

/-- Puts the steps of a list of assignments behind the steps made so far. -/
def Assignments.emit (assignments : Assignments) (made : List Step) : List Step :=
  if assignments.entries.isEmpty then emitDraft say subject made unconfigured
  else (Assignment.binder.loop say subject assignments.entries made).made

/-- Puts the steps of a component behind the steps made so far. -/
def Component.emit (component : Component) (made : List Step) : List Step :=
  match component with
  | .request method payload => payload.emit say subject method made
  | .bearerToken credential => emitDraft say subject made credential.draft
  | .userPassword credential => emitDraft say subject made credential.draft
  | .apiKey key => emitDraft say subject made key.draft
  | .statusCheck check => emitDraft say subject made check.draft
  | .fieldCheck check => emitDraft say subject made check.draft
  | .headerCheck check => emitDraft say subject made check.draft
  | .schemaCheck check => emitDraft say subject made check.draft
  | .timeCheck check => emitDraft say subject made check.draft
  | .extraction entries => Extraction.emit say subject entries made
  | .assignment assignments => assignments.emit say subject made
  | .message payload => emitDraft say subject made payload.draft

end Emission

/-- Puts the steps of a node behind the steps made so far. -/
def Node.emit (say : Keyword → String → Step) (node : Node) (made : List Step) : List Step :=
  match node.payload with
  | .ok component => component.emit say node.id made
  | .error e => emitDraft say node.id made (node.kind.unread e)

/-! ## Emission appends -/

/-- Emission of the given drafts: whatever was made before stays in place, and their steps are put
behind it. -/
def Emits (say : Keyword → String → Step) (subject : String) (emit : List Step → List Step)
    (drafts : List Draft) : Prop :=
  ∀ made, emit made = made ++ drafts.map (Draft.spoken say subject)

variable {say : Keyword → String → Step} {subject : String}

/-- A draft alone is emitted as its step. -/
theorem emits_draft (draft : Draft) :
    Emits say subject (fun made => emitDraft say subject made draft) [draft] :=
  fun _ => rfl

/-- Emission of nothing changes nothing. -/
theorem emits_nil : Emits say subject (fun made => made) [] :=
  fun made => (List.append_nil made).symm

/-- One emission after the other emits the drafts of both. -/
theorem Emits.append {first second : List Step → List Step} {drafts others : List Draft}
    (hfirst : Emits say subject first drafts) (hsecond : Emits say subject second others) :
    Emits say subject (fun made => second (first made)) (drafts ++ others) := by
  intro made
  dsimp only
  rw [hsecond, hfirst, List.map_append, List.append_assoc]

/-- A loop that emits a draft for each entry of a list emits them all. -/
theorem emits_foldl {α : Type} (draftOf : α → Draft) (entries : List α) :
    Emits say subject
      (fun made => entries.foldl
        (fun made entry => emitDraft say subject made (draftOf entry)) made)
      (entries.map draftOf) := by
  induction entries with
  | nil => exact emits_nil
  | cons entry rest ih => exact (emits_draft (draftOf entry)).append ih

namespace Request

/-- The loop over the headers or the query parameters emits their drafts. -/
theorem emits_list (words : EntryWords) (list : KeyValues) :
    Emits say subject (emitList say subject words list) (listDrafts words list) := by
  cases list with
  | error problem => exact emits_draft _
  | ok entries => exact emits_foldl (entryDraft words) entries

/-- A body is defined and attached, or reported, or not there. -/
theorem emits_attachedBody (method : Method) (request : Request) :
    Emits say subject
      (fun made => if method.allowsBody then
          match request.body with
          | some body => emitBody say subject body made
          | none => made
        else made)
      (attachedBody method request) := by
  unfold attachedBody
  cases request.body with
  | none => cases method.allowsBody <;> exact emits_nil
  | some body =>
      cases method.allowsBody with
      | false => exact emits_nil
      | true =>
          have hbody : Emits say subject (emitBody say subject body) ((bodyDrafts body).map id) :=
            emits_foldl id (bodyDrafts body)
          rwa [List.map_id] at hbody

/-- A request emits its address, headers, query parameters and body, and is sent. -/
theorem emits (method : Method) (request : Request) :
    Emits say subject (request.emit say subject method) (request.drafts method) := by
  unfold Request.emit Request.drafts
  cases request.url with
  | none => exact emits_draft _
  | some url =>
      -- The parts follow each other, so their emissions are put together from the first to the
      -- last.
      exact ((((emits_draft (addressDraft url)).append
        (emits_list headerWords request.headers)).append
        (emits_list paramWords request.params)).append
        (emits_attachedBody method request)).append (emits_draft (sendingDraft method))

end Request

/-! ## The loop over a list of entries -/

namespace Binder

variable {α β ε : Type} (binder : Binder α β ε)

/-- The loop puts the steps of the sifted entries behind the steps made before, and binds the names
of the accepted ones. -/
theorem foldl_advance (entries : List α) (progress : Progress) :
    entries.foldl (binder.advance say subject) progress =
      { made := progress.made ++
          (sift binder.check binder.name progress.names.reverse entries).mapIdx fun i outcome =>
            (binder.draft (progress.seen + i) outcome).spoken say subject
        names := progress.names ++
          (accepted (sift binder.check binder.name progress.names.reverse entries)).map binder.name
        seen := progress.seen + entries.length } := by
  induction entries generalizing progress with
  | nil => simp [sift]
  | cons entry rest ih =>
      -- sifting has the names in the reverse order, which makes no difference to the check
      have hreverse : binder.check progress.names = binder.check progress.names.reverse :=
        check_congr fun name => List.mem_reverse.symm
      rw [List.foldl_cons, ih, sift]
      cases houtcome : binder.check progress.names.reverse entry with
      | ok b =>
          simp only [advance, hreverse, houtcome, List.reverse_append, List.reverse_singleton]
          simp [emitDraft, Nat.add_assoc, Nat.add_comm 1]
      | error e =>
          simp only [advance, hreverse, houtcome]
          simp [emitDraft, Nat.add_assoc, Nat.add_comm 1]

/-- The loop binds the names that the entries bind. -/
theorem names_loop (entries : List α) (made : List Step) :
    (binder.loop say subject entries made).names = binder.names entries := by
  rw [loop, foldl_advance]
  rfl

/-- The loop emits the drafts of the entries. -/
theorem emits_loop (entries : List α) :
    Emits say subject (fun made => (binder.loop say subject entries made).made)
      (binder.drafts entries) := by
  intro made
  dsimp only
  rw [loop, foldl_advance]
  refine congrArg (made ++ ·) (List.ext_getElem? fun i => ?_)
  rw [drafts, outcomes, List.getElem?_map, List.getElem?_mapIdx, List.getElem?_mapIdx,
    Option.map_map, Nat.zero_add]
  rfl

end Binder

/-- Extractions emit what is said of each, and collect the names that were bound, if any. -/
theorem Extraction.emits (entries : List Extraction) :
    Emits say subject (Extraction.emit say subject entries) (Extraction.drafts entries) := by
  unfold Extraction.emit Extraction.drafts
  cases entries.isEmpty with
  | true => exact emits_draft unconfigured
  | false =>
      -- the names that the loop hands on to the collection do not depend on what was made before
      simp only [Bool.false_eq_true, if_false, Binder.names_loop]
      cases (binder.names entries).isEmpty with
      | true => exact (binder.emits_loop entries).append emits_nil
      | false => exact (binder.emits_loop entries).append (emits_draft _)

/-- Assignments emit what is said of each. -/
theorem Assignments.emits (assignments : Assignments) :
    Emits say subject (assignments.emit say subject) assignments.drafts := by
  unfold Assignments.emit Assignments.drafts
  cases assignments.entries.isEmpty with
  | true => exact emits_draft unconfigured
  | false => exact Assignment.binder.emits_loop assignments.entries

/-! ## Components and nodes -/

/-- A component emits its drafts, in whatever way steps are made. -/
theorem Component.emits (component : Component) :
    Emits say subject (component.emit say subject) component.drafts := by
  cases component with
  | request method payload => exact payload.emits method
  | extraction entries => exact Extraction.emits entries
  | assignment assignments => exact assignments.emits
  | _ => exact emits_draft _

/-- A node emits its drafts: those of its component, or the notice that stands for its payload. -/
theorem Node.emits (node : Node) : Emits say node.id (node.emit say) node.drafts := by
  unfold Node.emit Node.drafts
  cases node.payload with
  | ok component => exact component.emits
  | error e => exact emits_draft _

/-- With its lines joined, a draft is spoken as its step. -/
theorem Draft.spoken_say (subject : String) :
    Draft.spoken Step.say subject = Draft.step subject := by
  funext draft
  cases draft <;> rfl

/-- Emission of assignments puts their block behind the steps made so far. -/
theorem Assignments.emit_say (subject : String) (assignments : Assignments) (made : List Step) :
    assignments.emit Step.say subject made = made ++ assignments.steps subject := by
  rw [assignments.emits, Draft.spoken_say, Assignments.steps]

/-- Emission puts the block of a node behind the steps made so far. -/
theorem Node.emit_say (node : Node) (made : List Step) :
    node.emit Step.say made = made ++ node.steps := by
  rw [node.emits, Draft.spoken_say, Node.steps]

end TestFlow
