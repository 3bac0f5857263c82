import TestFlow.Proofs.Request.ReadBack
import TestFlow.Proofs.Variable.Assignment
import TestFlow.Proofs.Variable.Extraction

/-!
# How many steps a node makes

Every node makes a step, and the number of its steps is told by its payload.  Most components make a
single step, be it an instruction or a diagnostic that stands in its place.  A request makes one
step for each header and parameter, and up to two for its body, between the step that opens it and
the one that sends it.  A list of entries makes one step for each entry, whether it is accepted or
not.

A diagnostic of a node always names the node.

Reference: specification, §4.3 (step emitter) and §8 (step count).

## Main definitions

* `Component.stepCount`, `Node.stepCount` — the number of steps;
* `Node.Faulty` — the nodes that make nothing but one diagnostic;
* `Step.Names` — a step does not name another subject.

## Main statements

* `Node.length_steps` — a node makes as many steps;
* `Node.steps_names` — its diagnostics name the node.
-/

namespace TestFlow

/-! ## Counting -/

namespace Extraction

/-- A name is bound as soon as an entry has something to offer. -/
theorem names_ne_nil_iff {entries : List Extraction} :
    binder.names entries ≠ [] ↔ ∃ entry ∈ entries, ∃ name path, entry.Offers name path := by
  constructor
  · intro hne
    obtain ⟨name, hname⟩ := List.exists_mem_of_ne_nil _ hne
    obtain ⟨entry, hentry, path, hoffers⟩ := mem_names_iff.mp hname
    exact ⟨entry, hentry, name, path, hoffers⟩
  · rintro ⟨entry, hentry, name, path, hoffers⟩
    exact List.ne_nil_of_mem (mem_names_iff.mpr ⟨entry, hentry, path, hoffers⟩)

instance (entries : List Extraction) :
    Decidable (∃ entry ∈ entries, ∃ name path, entry.Offers name path) :=
  decidable_of_iff (binder.names entries ≠ []) names_ne_nil_iff

def stepCount (entries : List Extraction) : Nat :=
  if entries = [] then 1
  else if ∃ entry ∈ entries, ∃ name path, entry.Offers name path then entries.length + 1
  else entries.length

/-- Extractions make a step for each entry, and one more if any entry binds a name. -/
theorem length_drafts (entries : List Extraction) :
    (drafts entries).length = stepCount entries := by
  by_cases hne : entries = []
  · subst hne
    rfl
  · rw [drafts, if_neg (by simpa using hne), stepCount, if_neg hne]
    simp only [List.length_append, Binder.length_drafts]
    -- The collection stands behind the entries exactly if there is a name to collect.
    by_cases hnames : binder.names entries = []
    · have hnone : ¬∃ entry ∈ entries, ∃ name path, entry.Offers name path :=
        fun h => names_ne_nil_iff.mpr h hnames
      rw [if_neg hnone, hnames]
      rfl
    · have hsome : ¬(binder.names entries).isEmpty = true := by
        rwa [List.isEmpty_iff]
      rw [if_pos (names_ne_nil_iff.mp hnames), if_neg hsome, List.length_singleton]

end Extraction

/-- The number of steps of a list of assignments: one for each, or one if there are none. -/
def Assignments.stepCount (assignments : Assignments) : Nat :=
  max 1 assignments.entries.length

/-- Assignments make a step for each entry. -/
theorem Assignments.length_drafts (assignments : Assignments) :
    assignments.drafts.length = assignments.stepCount := by
  by_cases hne : assignments.entries = []
  · rw [Assignments.drafts, Assignments.stepCount, hne]
    rfl
  · have hpos := List.length_pos_iff.mpr hne
    rw [Assignments.drafts, if_neg (by simpa using hne), Binder.length_drafts,
      Assignments.stepCount]
    omega

namespace Request

/-- The number of steps of a list of keys and values: one for each, or one if it is malformed. -/
def listCount : KeyValues → Nat
  | .ok entries => entries.length
  | .error _ => 1

/-- The number of steps of a body that is attached: two, or one if it is malformed. -/
def attachedCount : Except Body.Problem Body → Nat
  | .ok _ => 2
  | .error _ => 1

/-- The number of steps of a body: none if there is no body or the method does not allow one. -/
def bodyCount (method : Method) : Option (Except Body.Problem Body) → Nat
  | none => 0
  | some body => if method ∈ [.get, .delete] then 0 else attachedCount body

def stepCount (method : Method) (request : Request) : Nat :=
  match request.url with
  | none => 1
  | some _ => 2 + listCount request.headers + listCount request.params +
      bodyCount method request.body

/-- Headers or parameters make a step for each entry. -/
theorem length_listDrafts (words : EntryWords) (list : KeyValues) :
    (listDrafts words list).length = listCount list := by
  cases list with
  | ok entries => exact List.length_map _
  | error problem => rfl

/-- A body that is attached is first defined. -/
theorem length_bodyDrafts (body : Except Body.Problem Body) :
    (bodyDrafts body).length = attachedCount body := by
  cases body with
  | error problem => rfl
  | ok body => cases body <;> rfl

/-- A body makes no step if the method does not allow one. -/
theorem length_attachedBody (method : Method) (request : Request) :
    (attachedBody method request).length = bodyCount method request.body := by
  rw [attachedBody]
  cases request.body with
  | none => rfl
  | some body =>
      rw [bodyCount]
      cases hallows : method.allowsBody with
      | true =>
          have hmethod : method ∉ [.get, .delete] := by
            rw [← Method.allowsBody_eq_false_iff, hallows]
            exact Bool.noConfusion
          rw [if_neg hmethod]
          exact length_bodyDrafts body
      | false => exact (if_pos (Method.allowsBody_eq_false_iff.mp hallows)).symm

/-- A request makes the steps of its parts between the address and the sending. -/
theorem length_drafts (method : Method) (request : Request) :
    (request.drafts method).length = stepCount method request := by
  unfold drafts stepCount
  cases request.url with
  | none => rfl
  | some url =>
      simp only [List.length_append, length_listDrafts, length_attachedBody, List.length_singleton]
      omega

end Request

namespace Component

def stepCount : Component → Nat
  | .request method payload => payload.stepCount method
  | .extraction entries => Extraction.stepCount entries
  | .assignment assignments => assignments.stepCount
  | _ => 1

/-- A component has as many drafts as its payload tells. -/
theorem length_drafts (component : Component) : component.drafts.length = component.stepCount := by
  cases component with
  | request method payload => exact payload.length_drafts method
  | extraction entries => exact Extraction.length_drafts entries
  | assignment assignments => exact assignments.length_drafts
  | _ => rfl

/-- Every component makes a step. -/
theorem stepCount_pos (component : Component) : 1 ≤ component.stepCount := by
  cases component with
  | request method payload =>
      -- With an address there are two steps even if all other parts are empty.
      rw [stepCount, Request.stepCount]
      split <;> omega
  | extraction entries =>
      rw [stepCount, Extraction.stepCount]
      split
      · exact Nat.le_refl 1
      · rename_i hne
        have hpos := List.length_pos_iff.mpr hne
        split <;> omega
  | assignment assignments => exact Nat.le_max_left 1 _
  | _ => exact Nat.le_refl 1

end Component

/-- The number of steps of a node: one if its payload is malformed. -/
def Node.stepCount (node : Node) : Nat :=
  match node.payload with
  | .ok component => component.stepCount
  | .error _ => 1

namespace Node

/-- A node makes as many steps as its payload tells. -/
theorem length_steps (node : Node) : node.steps.length = node.stepCount := by
  rw [steps, List.length_map]
  unfold drafts stepCount
  cases node.payload with
  | error e => rfl
  | ok component => exact component.length_drafts

/-- Every node makes a step. -/
theorem stepCount_pos (node : Node) : 1 ≤ node.stepCount := by
  unfold stepCount
  cases node.payload with
  | error e => exact Nat.le_refl 1
  | ok component => exact component.stepCount_pos

/-- Why a node makes nothing but one diagnostic: its payload is malformed, or it is a request
without an address. -/
inductive Faulty : Node → Prop
  | malformed {node : Node} {e : Json.DecodeError} (h : node.payload = .error e) : Faulty node
  | addressless {node : Node} {method : Method} {request : Request}
      (h : node.payload = .ok (.request method request)) (hurl : request.url = none) : Faulty node

/-- A faulty node makes one diagnostic, which names it. -/
theorem Faulty.steps_eq {node : Node} (h : node.Faulty) :
    ∃ message, node.steps = [.diagnostic (Text.oneLine node.id) message] := by
  cases h with
  | malformed h =>
      rw [steps, drafts, h]
      exact ⟨_, rfl⟩
  | addressless h hurl =>
      simp only [steps, drafts, h, Component.drafts, Request.drafts, hurl]
      exact ⟨_, rfl⟩

end Node

/-! ## Subjects -/

/-- A step does not name another subject. -/
def Step.Names (subject : String) (step : Step) : Prop :=
  ∀ other message, step = .diagnostic other message → other = Text.oneLine subject

/-- A draft is about the node that it comes from. -/
theorem Draft.names_step (subject : String) (draft : Draft) :
    (draft.step subject).Names subject := by
  intro other message heq
  cases draft with
  | instruction keyword text => cases heq
  | notice message => exact (Step.diagnostic.inj heq).1.symm

/-- The diagnostics of a node name the node. -/
theorem Node.steps_names (node : Node) : ∀ step ∈ node.steps, step.Names node.id :=
  List.forall_mem_map.mpr fun draft _ => draft.names_step node.id

end TestFlow
