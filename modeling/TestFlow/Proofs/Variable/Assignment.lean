import TestFlow.Proofs.Component.Emit

/-!
# Assignments, entry by entry

The assignments of a component have one step each, as its extractions have, and nothing behind them.
An entry is accepted if it offers a name and a value, and if no entry that was accepted before it
has the same name.

The step of an accepted entry holds nothing but its name and its value.  So the name and the value
can be read back: a name has no blanks, and a literal tells by its first character how it is read.

Reference: specification, §4.3 (variable setting).

## Main definitions

* `Offers` — the name and the value that an assignment has to offer;
* `EntryAccount` — every assignment has the step that it deserves;
* `acceptedBindings` — the names and values of the accepted assignments;
* `Step.assigned?` — the reader of the step of an assignment.

## Main statement

* `assignments_are_accounted_for` — the steps of assignments, entry by entry.
-/

namespace TestFlow

open Script
open Binder (Accepted)

namespace Assignment

/-! ## What an assignment offers -/

/-- What an assignment has to offer: a name and a value are given, and without the blanks around it
the name is that of a variable. -/
structure Offers (assignment : Assignment) (binding : Binding) : Prop where
  name_eq : assignment.name.map Text.trimmed = some binding.name
  value_eq : assignment.value = some binding.value
  isIdentifier : IsIdentifier binding.name

/-- An assignment offers a binding with its name and its value. -/
theorem offer_eq_ok_iff (assignment : Assignment) (binding : Binding) :
    assignment.offer = .ok binding ↔ assignment.Offers binding := by
  constructor
  · intro h
    unfold offer at h
    -- both are given, and then the name is looked at
    split at h
    · rename_i name v hname hvalue
      split at h
      · cases h
      · rename_i hidentifier
        cases h
        exact ⟨hname, hvalue, isIdentifier_iff.mp (by simpa using hidentifier)⟩
    · cases h
  · intro hoffers
    simp [offer, hoffers.name_eq, hoffers.value_eq, isIdentifier_iff.mpr hoffers.isIdentifier]

/-- Assignments bind variables by sentences. -/
theorem lawful_binder : binder.Lawful where
  isIdentifier h := ((offer_eq_ok_iff _ _).mp h).isIdentifier
  sentence h := .assignment h (isLiteral_literal _)
  defines binding := ⟨literal binding.value, rfl⟩
  unbroken_noun := by simp [binder, Text.isLineBreak]

/-! ## The account -/

/-- Every assignment has a step in its place, and it is the one that the assignment deserves. -/
structure EntryAccount (subject : String) (entries : List Assignment) (steps : List Step) :
    Prop where
  length_eq : steps.length = entries.length
  accepted_iff : ∀ i entry, entries[i]? = some entry →
    (Accepted steps i ↔ ∃ binding, entry.Offers binding ∧
      ∀ j < i, ∀ earlier, entries[j]? = some earlier → Accepted steps j →
        earlier.name.map Text.trimmed ≠ some binding.name)
  accepted_step : ∀ i entry binding, entries[i]? = some entry → entry.Offers binding →
    Accepted steps i → steps[i]? = some (.instruction .and
      ("def " ++ binding.name ++ " = " ++ literal binding.value))
  refused_step : ∀ i < entries.length, ¬Accepted steps i → ∃ reason,
    steps[i]? = some (.diagnostic (Text.oneLine subject)
      ("Variable " ++ (i + 1).repr ++ " skipped: " ++ reason))

/-- The name and the value of the entry in a place, without the blanks around the name. -/
def bindingAt? (entries : List Assignment) (i : Nat) : Option Binding := do
  let entry ← entries[i]?
  let name ← entry.name
  let value ← entry.value
  some ⟨Text.trimmed name, value⟩

/-- The names and values of the accepted entries, in their order. -/
def acceptedBindings (entries : List Assignment) (steps : List Step) : List Binding :=
  (steps.mapIdx fun i step =>
    if step.isDiagnostic then none else bindingAt? entries i).filterMap id

/-- What is accepted in a place can be read off the entry there. -/
theorem bindingAt?_of_outcome {entries : List Assignment} {i : Nat} {binding : Binding}
    (h : (binder.outcomes entries)[i]? = some (.ok binding)) :
    bindingAt? entries i = some binding := by
  obtain ⟨entry, hentry, hoffer⟩ := Binder.offer_of_outcome h
  have hoffers := (offer_eq_ok_iff entry binding).mp hoffer
  obtain ⟨name, hname, htrimmed⟩ := Option.map_eq_some_iff.mp hoffers.name_eq
  simp [bindingAt?, hentry, hname, hoffers.value_eq, htrimmed]

/-- The steps of assignments account for each of them. -/
theorem entryAccount_entrySteps (subject : String) (entries : List Assignment) :
    EntryAccount subject entries (binder.entrySteps subject entries) where
  length_eq := Binder.length_entrySteps
  accepted_iff := by
    intro i entry hentry
    have hname : ∀ entry (binding : Binding), binder.offer entry = .ok binding →
        entry.name.map Text.trimmed = some binding.name :=
      fun entry binding h => ((offer_eq_ok_iff entry binding).mp h).name_eq
    -- the name of an accepted entry is its own, so the earlier names can be read off the entries
    rw [Binder.accepted_entrySteps_iff_offer hname hentry]
    exact exists_congr fun binding => and_congr_left' (offer_eq_ok_iff entry binding)
  accepted_step := by
    intro i entry binding hentry hoffers haccepted
    obtain ⟨other, hother⟩ := Binder.accepted_entrySteps_iff.mp haccepted
    obtain ⟨entry', hentry', hoffer⟩ := Binder.offer_of_outcome hother
    obtain rfl : entry' = entry := by simpa [hentry'] using hentry
    -- an assignment has one binding to offer
    obtain rfl : other = binding :=
      Except.ok.inj (hoffer.symm.trans ((offer_eq_ok_iff entry' binding).mpr hoffers))
    exact lawful_binder.getElem?_entrySteps_of_ok hother
  refused_step i hi hrefused := lawful_binder.exists_refusal hi hrefused

end Assignment

namespace Assignments

open Assignment

variable {assignments : Assignments}

theorem steps_of_ne_nil (subject : String) (h : assignments.entries ≠ []) :
    assignments.steps subject = binder.entrySteps subject assignments.entries := by
  rw [steps, drafts, if_neg (by simpa using h), Binder.entrySteps]

/-- The accepted names and values are those that passed the check. -/
theorem acceptedBindings_steps (subject : String) (h : assignments.entries ≠ []) :
    acceptedBindings assignments.entries (assignments.steps subject) =
      accepted (binder.outcomes assignments.entries) := by
  rw [steps_of_ne_nil subject h, ← List.map_id (accepted (binder.outcomes assignments.entries))]
  exact Binder.filterMap_entrySteps fun _ _ => bindingAt?_of_outcome

/-- The variables that assignments give values are those of the accepted entries. -/
theorem definedNames_steps (subject : String) (h : assignments.entries ≠ []) :
    Step.definedNames (assignments.steps subject) = binder.names assignments.entries := by
  apply Step.definedNames_of_instructions
  rw [steps_of_ne_nil subject h, lawful_binder.map_definedName?_instructions]

end Assignments

/-! ## Reading the steps back -/

/-- Reads the name of a variable and the value that a step gives it. -/
def Step.assigned? (step : Step) : Option Assignment.Binding :=
  match step.setting? with
  | some setting =>
    if setting.word = definitionWord then (value? setting.expression).map (⟨setting.name, ·⟩)
    else none
  | none => none

/-- The instruction of an assignment is read back. -/
theorem Assignment.Binding.assigned?_text {binding : Binding}
    (hname : IsIdentifier binding.name) (hfloat : binding.value.FloatFree)
    (hkeys : binding.value.DistinctKeys) :
    (Step.instruction .and binding.text).assigned? = some binding := by
  simp [Step.assigned?, Binding.text, Step.setting?_definition hname.blank_not_mem,
    value?_literal hfloat hkeys]

namespace Assignments

open Assignment

/-- Emission puts one step for each entry of a list that is not empty behind the steps made before.
An entry is accepted exactly if it offers a name and a value, and no entry that was accepted before
it has the name; then its step gives the variable the value, and otherwise its step is a diagnostic
with its position, counted from one.  No variable is given a value twice.  If the accepted values
have no floating-point numbers and no key twice, the instructions are read back as the accepted
names and values, in their order. -/
theorem assignments_are_accounted_for (subject : String) (assignments : Assignments)
    (hne : assignments.entries ≠ []) :
    (∀ made, assignments.emit Step.say subject made = made ++ assignments.steps subject) ∧
      EntryAccount subject assignments.entries (assignments.steps subject) ∧
      Step.definedNames (assignments.steps subject) =
        (acceptedBindings assignments.entries (assignments.steps subject)).map Binding.name ∧
      (Step.definedNames (assignments.steps subject)).Nodup ∧
      ((∀ binding ∈ acceptedBindings assignments.entries (assignments.steps subject),
          binding.value.FloatFree ∧ binding.value.DistinctKeys) →
        (Step.instructions (assignments.steps subject)).map Step.assigned? =
          (acceptedBindings assignments.entries (assignments.steps subject)).map some) := by
  rw [acceptedBindings_steps subject hne, definedNames_steps subject hne]
  refine ⟨assignments.emit_say subject, ?_, rfl, Binder.nodup_names assignments.entries, ?_⟩
  · rw [steps_of_ne_nil subject hne]
    exact entryAccount_entrySteps subject assignments.entries
  · intro hvalues
    rw [steps_of_ne_nil subject hne, Binder.instructions_entrySteps, List.map_map]
    apply List.map_congr_left
    intro binding hbinding
    obtain ⟨hfloat, hkeys⟩ := hvalues binding hbinding
    have hname := lawful_binder.isIdentifier_of_mem_accepted hbinding
    rw [Function.comp_apply, (lawful_binder.sentence hname).say_eq]
    exact binding.assigned?_text hname hfloat hkeys

/-- Assignments with blanks around a name, a name that is none, a value that is missing, a name that
is taken, a name that only a refused entry had before, and a value that looks like a step. -/
def untidyAssignments : Assignments where
  entries := [⟨some " a ", some (.object [("k'", .array [.null, .string "x\n"])])⟩,
    ⟨some "1", some .null⟩, ⟨some "b", none⟩, ⟨some "a", some (.bool true)⟩,
    ⟨some "b", some (.string "it's = 'c'")⟩]

/-- Such assignments are accounted for, and the two that are accepted are read back. -/
theorem untidyAssignments_are_accounted_for :
    untidyAssignments.entries ≠ [] ∧
      EntryAccount "s" untidyAssignments.entries (untidyAssignments.steps "s") ∧
      untidyAssignments.steps "s" = [
        .instruction .and "def a = \x7b\"k'\":[null,\"x\\n\"]\x7d",
        .diagnostic "s" "Variable 2 skipped: '1' is not a valid variable name",
        .diagnostic "s" "Variable 3 skipped: name and value are both required",
        .diagnostic "s" "Variable 4 skipped: variable 'a' is already set by this node",
        .instruction .and "def b = 'it\\'s = \\'c\\''"] ∧
      (Step.instructions (untidyAssignments.steps "s")).map Step.assigned? =
        [some ⟨"a", .object [("k'", .array [.null, .string "x\n"])]⟩,
          some ⟨"b", .string "it's = 'c'"⟩] := by
  have hne : untidyAssignments.entries ≠ [] := by simp [untidyAssignments]
  have hsteps : untidyAssignments.steps "s" = [
      .instruction .and "def a = \x7b\"k'\":[null,\"x\\n\"]\x7d",
      .diagnostic "s" "Variable 2 skipped: '1' is not a valid variable name",
      .diagnostic "s" "Variable 3 skipped: name and value are both required",
      .diagnostic "s" "Variable 4 skipped: variable 'a' is already set by this node",
      .instruction .and "def b = 'it\\'s = \\'c\\''"] := by
    decide +kernel
  have htrimmed : Text.trimmed " a " = "a" ∧ Text.trimmed "b" = "b" := by decide +kernel
  have haccepted : acceptedBindings untidyAssignments.entries (untidyAssignments.steps "s") =
      [⟨"a", .object [("k'", .array [.null, .string "x\n"])]⟩, ⟨"b", .string "it's = 'c'"⟩] := by
    rw [hsteps]
    simp [acceptedBindings, bindingAt?, untidyAssignments, Step.isDiagnostic, htrimmed]
  obtain ⟨-, haccount, -, -, hread⟩ := assignments_are_accounted_for "s" untidyAssignments hne
  rw [haccepted] at hread
  exact ⟨hne, haccount, hsteps, hread (by simp)⟩

end Assignments

end TestFlow
