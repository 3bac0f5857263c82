import TestFlow.Proofs.Script.Setting
import TestFlow.Proofs.Sift
import TestFlow.Variable

/-!
# Entries that bind variables

Extractions and assignments are lists of entries that bind variables.  What is accepted, which names
are bound and what the step of an entry is depends on their binder alone, and is stated here for
any.

Each entry has a step of its own, which tells whether the entry was accepted: it is an instruction
if so, and a diagnostic with the position of the entry if not.  So what is accepted can be said of
the steps alone.

Reference: specification, §4.3 (variable extraction, variable setting).

## Main definitions

* `Binder.Accepted` — the step in a place is an instruction;
* `Binder.entrySteps` — the steps of entries, one each;
* `Binder.Lawful` — what a binder owes to the script language.

## Main statements

* `Binder.accepted_entrySteps_iff_offer` — an entry is accepted for what it offers, unless an entry
  accepted before it has the name;
* `Binder.Lawful.sound_drafts` — a lawful binder makes sentences only;
* `Binder.Lawful.map_definedName?_instructions` — the instructions give the bound names values.
-/

namespace TestFlow

open Script

namespace Binder

variable {α β ε : Type} {binder : Binder α β ε} {entries : List α}

/-! ## Which entries are accepted -/

/-- An entry passes the check for what it offers, unless the name is taken. -/
theorem check_eq_ok_iff (taken : List String) (entry : α) (b : β) :
    binder.check taken entry = .ok b ↔ binder.offer entry = .ok b ∧ binder.name b ∉ taken := by
  unfold check
  cases binder.offer entry with
  | error e => simp [bind, Except.bind]
  | ok offered =>
      simp only [bind, Except.bind, List.contains_iff_mem, Except.ok.injEq]
      constructor
      · intro h
        split at h
        · cases h
        · cases h
          exact ⟨rfl, by assumption⟩
      · rintro ⟨rfl, htaken⟩
        exact if_neg htaken

/-- The check asks which names are taken, not in which order. -/
theorem check_congr {taken others : List String} (h : ∀ name, name ∈ taken ↔ name ∈ others) :
    binder.check taken = binder.check others := by
  funext entry
  have hcontains : ∀ name, taken.contains name = others.contains name := by
    intro name
    rw [Bool.eq_iff_iff, List.contains_iff_mem, List.contains_iff_mem, h name]
  simp only [check, hcontains]

/-- The outcome in a place is the binding that the entry offers, unless an entry accepted before it
has the name. -/
theorem getElem?_outcomes_eq_ok_iff {i : Nat} {b : β} :
    (binder.outcomes entries)[i]? = some (.ok b) ↔
      ∃ entry, entries[i]? = some entry ∧ binder.offer entry = .ok b ∧
        ∀ j < i, ∀ other, (binder.outcomes entries)[j]? = some (.ok other) →
          binder.name other ≠ binder.name b :=
  getElem?_sift_eq_ok_iff check_eq_ok_iff

/-- What is accepted in a place was offered there. -/
theorem offer_of_outcome {i : Nat} {b : β} (h : (binder.outcomes entries)[i]? = some (.ok b)) :
    ∃ entry, entries[i]? = some entry ∧ binder.offer entry = .ok b := by
  obtain ⟨entry, hentry, hoffer, -⟩ := getElem?_outcomes_eq_ok_iff.mp h
  exact ⟨entry, hentry, hoffer⟩

/-- What is accepted was offered by some entry. -/
theorem offer_of_mem_accepted {b : β} (h : b ∈ accepted (binder.outcomes entries)) :
    ∃ entry ∈ entries, binder.offer entry = .ok b := by
  obtain ⟨i, hi⟩ := List.mem_iff_getElem?.mp (mem_accepted.mp h)
  obtain ⟨entry, hentry, hoffer⟩ := offer_of_outcome hi
  exact ⟨entry, List.mem_of_getElem? hentry, hoffer⟩

/-- No name is bound twice. -/
theorem nodup_names (entries : List α) : (binder.names entries).Nodup :=
  nodup_keys_sift (fun taken entry b h => ((check_eq_ok_iff taken entry b).mp h).2) entries []
    List.nodup_nil

/-- The names that are bound are those that some entry offers, wherever it stands. -/
theorem mem_names_iff {name : String} :
    name ∈ binder.names entries ↔
      ∃ entry ∈ entries, ∃ b, binder.offer entry = .ok b ∧ binder.name b = name := by
  constructor
  · intro h
    obtain ⟨b, hb, rfl⟩ := List.mem_map.mp h
    obtain ⟨entry, hentry, hoffer⟩ := offer_of_mem_accepted hb
    exact ⟨entry, hentry, b, hoffer, rfl⟩
  · rintro ⟨entry, hentry, b, hoffer, rfl⟩
    obtain ⟨i, hi⟩ := List.mem_iff_getElem?.mp hentry
    by_contra hname
    have hbound : ∀ {j : Nat} {other : β}, (binder.outcomes entries)[j]? = some (.ok other) →
        binder.name other ∈ binder.names entries :=
      fun h => List.mem_map_of_mem (mem_accepted.mpr (List.mem_of_getElem? h))
    -- if no entry is accepted under the name, nothing stands in the way of this one
    have haccepted : (binder.outcomes entries)[i]? = some (.ok b) := by
      refine getElem?_outcomes_eq_ok_iff.mpr ⟨entry, hi, hoffer, ?_⟩
      intro j _ other hother hsame
      exact hname (hsame ▸ hbound hother)
    exact hname (hbound haccepted)

/-! ## The steps of entries -/

/-- The step in a place tells that the entry in this place was accepted: it is an instruction. -/
def Accepted (steps : List Step) (i : Nat) : Prop :=
  ∃ keyword text, steps[i]? = some (.instruction keyword text)

/-- The steps of the entries, without what a component may say behind them. -/
def entrySteps (binder : Binder α β ε) (subject : String) (entries : List α) : List Step :=
  (binder.drafts entries).map (Draft.step subject)

variable {subject : String}

@[simp] theorem length_drafts : (binder.drafts entries).length = entries.length := by
  rw [drafts, List.length_mapIdx, outcomes, length_sift]

@[simp] theorem length_entrySteps :
    (binder.entrySteps subject entries).length = entries.length := by
  rw [entrySteps, List.length_map, length_drafts]

/-- The step in a place is that of the outcome there. -/
theorem getElem?_entrySteps (i : Nat) :
    (binder.entrySteps subject entries)[i]? =
      (binder.outcomes entries)[i]?.map fun outcome => (binder.draft i outcome).step subject := by
  rw [entrySteps, drafts, List.getElem?_map, List.getElem?_mapIdx, Option.map_map]
  rfl

/-- The steps are those of the outcomes, each with its position. -/
theorem entrySteps_eq_mapIdx :
    binder.entrySteps subject entries =
      (binder.outcomes entries).mapIdx fun i outcome => (binder.draft i outcome).step subject := by
  apply List.ext_getElem?
  intro i
  rw [getElem?_entrySteps, List.getElem?_mapIdx]

/-- The step of an entry is an instruction if the entry passed its check. -/
theorem accepted_entrySteps_iff {i : Nat} :
    Accepted (binder.entrySteps subject entries) i ↔
      ∃ b, (binder.outcomes entries)[i]? = some (.ok b) := by
  rw [Accepted, getElem?_entrySteps]
  cases (binder.outcomes entries)[i]? with
  | none => simp
  | some outcome =>
      cases outcome with
      | ok b => simp [draft, Draft.step, Step.say]
      | error e => simp [draft, Draft.step, Step.warn]

/-- An entry is accepted if it offers a binding, and no entry that was accepted before it has the
name.  What name an earlier entry had can be read off the entry itself. -/
theorem accepted_entrySteps_iff_offer {nameOf : α → Option String}
    (hname : ∀ entry b, binder.offer entry = .ok b → nameOf entry = some (binder.name b))
    {i : Nat} {entry : α} (hentry : entries[i]? = some entry) :
    Accepted (binder.entrySteps subject entries) i ↔
      ∃ b, binder.offer entry = .ok b ∧ ∀ j < i, ∀ earlier, entries[j]? = some earlier →
        Accepted (binder.entrySteps subject entries) j →
          nameOf earlier ≠ some (binder.name b) := by
  simp only [accepted_entrySteps_iff]
  exact exists_ok_sift_iff check_eq_ok_iff hname hentry

/-- The outcome of an entry that was not accepted is a problem. -/
theorem exists_problem_of_not_accepted {i : Nat} (hi : i < entries.length)
    (h : ¬Accepted (binder.entrySteps subject entries) i) :
    ∃ problem, (binder.outcomes entries)[i]? = some (.error problem) := by
  rw [accepted_entrySteps_iff] at h
  have hlength : i < (binder.outcomes entries).length := by
    rwa [outcomes, length_sift]
  have hget := List.getElem?_eq_getElem hlength
  cases houtcome : (binder.outcomes entries)[i] with
  | ok b => exact absurd ⟨b, houtcome ▸ hget⟩ h
  | error problem => exact ⟨problem, houtcome ▸ hget⟩

/-- A name is bound if and only if an entry is accepted. -/
theorem names_eq_nil_iff :
    binder.names entries = [] ↔ ¬∃ i, Accepted (binder.entrySteps subject entries) i := by
  rw [names, List.map_eq_nil_iff, List.eq_nil_iff_forall_not_mem]
  simp only [mem_accepted]
  simp only [List.mem_iff_getElem?, accepted_entrySteps_iff, not_exists]
  exact forall_comm

/-- What the steps tell of the accepted entries, if it can be read off each entry in its place. -/
theorem filterMap_entrySteps {γ : Type} {entryAt? : Nat → Option γ} {view : β → γ}
    (h : ∀ i b, (binder.outcomes entries)[i]? = some (.ok b) → entryAt? i = some (view b)) :
    ((binder.entrySteps subject entries).mapIdx fun i step =>
      if step.isDiagnostic then none else entryAt? i).filterMap id =
      (accepted (binder.outcomes entries)).map view := by
  rw [entrySteps_eq_mapIdx, List.mapIdx_mapIdx]
  apply filterMap_mapIdx_eq_accepted
  · intro i b hb
    exact h i b hb
  · intro i e
    rfl

/-- The instructions are those of the accepted entries. -/
theorem instructions_entrySteps :
    Step.instructions (binder.entrySteps subject entries) =
      (accepted (binder.outcomes entries)).map fun b => .say .and (binder.text b) := by
  -- steps and outcomes go together, and the step of an outcome is an instruction if it accepts
  rw [Step.instructions, ← List.filterMap_eq_filter, entrySteps_eq_mapIdx]
  apply filterMap_mapIdx_eq_accepted
  · intro i b _
    rfl
  · intro i e
    rfl

/-! ## Lawful binders -/

/-- What a binder owes to the script language: the names it offers are names of variables, and under
such a name its text is a sentence that gives the variable a value. -/
structure Lawful (binder : Binder α β ε) : Prop where
  isIdentifier : ∀ {entry b}, binder.offer entry = .ok b → IsIdentifier (binder.name b)
  sentence : ∀ {b}, IsIdentifier (binder.name b) → Sentence .and (binder.text b)
  defines : ∀ b, ∃ expression, binder.text b = "def " ++ binder.name b ++ " = " ++ expression
  unbroken_noun : Text.Unbroken binder.noun.toList

namespace Lawful

/-- The accepted entries have names of variables. -/
theorem isIdentifier_of_mem_accepted (h : binder.Lawful) {b : β}
    (hb : b ∈ accepted (binder.outcomes entries)) : IsIdentifier (binder.name b) := by
  obtain ⟨entry, -, hoffer⟩ := offer_of_mem_accepted hb
  exact h.isIdentifier hoffer

/-- So the names that are bound are names of variables. -/
theorem isIdentifier_of_mem_names (h : binder.Lawful) {name : String}
    (hname : name ∈ binder.names entries) : IsIdentifier name := by
  obtain ⟨b, hb, rfl⟩ := List.mem_map.mp hname
  exact h.isIdentifier_of_mem_accepted hb

/-- Every draft of an entry is a notice or a sentence. -/
theorem sound_drafts (h : binder.Lawful) : ∀ draft ∈ binder.drafts entries, draft.Sound := by
  intro draft hdraft
  obtain ⟨i, hi, rfl⟩ := List.mem_mapIdx.mp hdraft
  cases houtcome : (binder.outcomes entries)[i] with
  | error e => exact trivial
  | ok b =>
      have hb : b ∈ accepted (binder.outcomes entries) :=
        mem_accepted.mpr (houtcome ▸ List.getElem_mem hi)
      exact h.sentence (h.isIdentifier_of_mem_accepted hb)

/-- The step of an accepted entry has its text as it is. -/
theorem getElem?_entrySteps_of_ok (h : binder.Lawful) {i : Nat} {b : β}
    (hb : (binder.outcomes entries)[i]? = some (.ok b)) :
    (binder.entrySteps subject entries)[i]? = some (.instruction .and (binder.text b)) := by
  obtain ⟨entry, -, hoffer⟩ := offer_of_outcome hb
  rw [getElem?_entrySteps, hb, Option.map_some]
  exact congrArg some (h.sentence (h.isIdentifier hoffer)).say_eq

/-- The step of a refused entry is a diagnostic that tells its position, counted from one. -/
theorem exists_refusal (h : binder.Lawful) {i : Nat} (hi : i < entries.length)
    (hrefused : ¬Accepted (binder.entrySteps subject entries) i) :
    ∃ reason, (binder.entrySteps subject entries)[i]? = some (.diagnostic (Text.oneLine subject)
      (binder.noun ++ " " ++ (i + 1).repr ++ " skipped: " ++ reason)) := by
  obtain ⟨problem, hproblem⟩ := exists_problem_of_not_accepted hi hrefused
  refine ⟨Text.oneLine (binder.reason problem), ?_⟩
  -- only the reason may hold line breaks: it quotes what the entry has
  have hdigits := (Decimal.whole_toDigits (i + 1)).unbroken
  have hskipped : Text.Unbroken (binder.noun ++ " " ++ (i + 1).repr ++ " skipped: ").toList := by
    simp [Text.isLineBreak, hdigits, h.unbroken_noun]
  rw [getElem?_entrySteps, hproblem, Option.map_some, draft, Draft.step, Step.warn,
    Text.oneLine_append_of_unbroken hskipped]

/-- Each instruction gives one variable a value, and these are the variables that are bound. -/
theorem map_definedName?_instructions (h : binder.Lawful) :
    (Step.instructions (binder.entrySteps subject entries)).map Step.definedName? =
      (binder.names entries).map some := by
  rw [instructions_entrySteps, names, List.map_map, List.map_map]
  apply List.map_congr_left
  intro b hb
  have hname := h.isIdentifier_of_mem_accepted hb
  obtain ⟨expression, htext⟩ := h.defines b
  rw [Function.comp_apply, (h.sentence hname).say_eq, htext,
    Step.definedName?_definition hname.blank_not_mem, Function.comp_apply]

end Lawful

end Binder

end TestFlow
