import TestFlow.Proofs.Variable.Entries

/-!
# Extractions, entry by entry

Each extraction of a component has a step of its own, which tells whether the extraction was
accepted: it is an instruction if so, and a diagnostic with the position of the entry if not.  So
what is accepted can be said of the steps alone.  An entry is accepted if it offers a name and a
path that can be used, and if no entry that was accepted before it has the same name.

One more step collects the accepted names in a variable of its own.  An entry may offer the name of
this variable too, and then the variable is given two values.

Reference: specification, §4.3 (variable extraction).

## Main definitions

* `Offers` — the name and the path that an extraction has to offer;
* `EntryAccount` — every extraction has the step that it deserves;
* `acceptedNames` — the names of the accepted extractions;
* `definitions` — the variables that the steps of extractions give values.

## Main statements

* `extractions_are_accounted_for` — the steps of extractions, entry by entry;
* `definitions_distinct_iff` — when no variable is given a value twice.
-/

namespace TestFlow

open Script
open Binder (Accepted)

namespace Extraction

/-! ## What an extraction offers -/

/-- What an extraction has to offer: a name and a path are given, and without the blanks around them
the name is that of a variable and the path starts at the root of the response. -/
structure Offers (extraction : Extraction) (name path : String) : Prop where
  name_eq : extraction.name.map Text.trimmed = some name
  path_eq : extraction.path.map Text.trimmed = some path
  isIdentifier : IsIdentifier name
  head?_eq : path.toList.head? = some '$'

/-- An extraction offers a binding with its name, its path and its default. -/
theorem offer_eq_ok_iff (extraction : Extraction) (binding : Binding) :
    extraction.offer = .ok binding ↔
      extraction.Offers binding.name binding.path ∧ extraction.fallback = binding.fallback := by
  constructor
  · intro h
    unfold offer at h
    -- the checks in their order: both are given, the name is one, the path starts at the root
    split at h
    · rename_i name path hname hpath
      split at h
      · cases h
      · rename_i hidentifier
        split at h
        · cases h
        · rename_i hroot
          cases h
          exact ⟨⟨hname, hpath, isIdentifier_iff.mp (by simpa using hidentifier),
            by simpa [rootSign] using hroot⟩, rfl⟩
    · cases h
  · rintro ⟨hoffers, hfallback⟩
    simp [offer, hoffers.name_eq, hoffers.path_eq, isIdentifier_iff.mpr hoffers.isIdentifier,
      hoffers.head?_eq, rootSign, hfallback]

/-- A name is that of an offer if it is offered with some path. -/
theorem exists_offer_iff {extraction : Extraction} {name : String} :
    (∃ binding, extraction.offer = .ok binding ∧ binding.name = name) ↔
      ∃ path, extraction.Offers name path := by
  simp only [offer_eq_ok_iff]
  constructor
  · rintro ⟨binding, ⟨hoffers, -⟩, rfl⟩
    exact ⟨binding.path, hoffers⟩
  · rintro ⟨path, hoffers⟩
    exact ⟨⟨name, path, extraction.fallback⟩, ⟨hoffers, rfl⟩, rfl⟩

/-- The expression that takes a value out of the response. -/
def expression (path : String) (fallback : Option Json) : String :=
  "karate.jsonPath(response, " ++ quote path ++ ")" ++
    match fallback with
    | none => ""
    | some v => " || " ++ literal v

/-- An extraction gives the variable with its name the value of its expression. -/
theorem Binding.text_eq (binding : Binding) :
    binding.text = "def " ++ binding.name ++ " = " ++ expression binding.path binding.fallback := by
  rw [← String.toList_inj]
  unfold Binding.text expression
  cases binding.fallback with
  | none => simp
  | some v => simp

/-- Extractions bind variables by sentences. -/
theorem lawful_binder : binder.Lawful where
  isIdentifier h := ((offer_eq_ok_iff _ _).mp h).1.isIdentifier
  sentence := by
    intro binding h
    show Sentence .and binding.text
    unfold Binding.text
    split
    · exact .extraction h (isQuoted_quote _)
    · exact .extractionOr h (isQuoted_quote _) (isLiteral_literal _)
  defines binding := ⟨_, binding.text_eq⟩
  unbroken_noun := by simp [binder, Text.isLineBreak]

/-! ## The account -/

/-- The name of the entry in a place, without the blanks around it. -/
def nameAt? (entries : List Extraction) (i : Nat) : Option String :=
  entries[i]?.bind fun entry => entry.name.map Text.trimmed

/-- The names of the accepted entries, in their order. -/
def acceptedNames (entries : List Extraction) (steps : List Step) : List String :=
  (steps.mapIdx fun i step => if step.isDiagnostic then none else nameAt? entries i).filterMap id

/-- Every extraction has a step in its place, and it is the one that the extraction deserves. -/
structure EntryAccount (subject : String) (entries : List Extraction) (steps : List Step) :
    Prop where
  length_eq : steps.length = entries.length
  accepted_iff : ∀ i entry, entries[i]? = some entry →
    (Accepted steps i ↔ ∃ name path, entry.Offers name path ∧
      ∀ j < i, Accepted steps j → nameAt? entries j ≠ some name)
  accepted_step : ∀ i entry name path, entries[i]? = some entry → entry.Offers name path →
    Accepted steps i → steps[i]? = some (.instruction .and
      ("def " ++ name ++ " = " ++ expression path entry.fallback))
  refused_step : ∀ i < entries.length, ¬Accepted steps i → ∃ reason,
    steps[i]? = some (.diagnostic (Text.oneLine subject)
      ("Extraction " ++ (i + 1).repr ++ " skipped: " ++ reason))

section

variable {subject : String} {entries : List Extraction}

/-- What is accepted in a place is what the entry there has to offer. -/
theorem offers_of_outcome {i : Nat} {binding : Binding}
    (h : (binder.outcomes entries)[i]? = some (.ok binding)) :
    ∃ entry, entries[i]? = some entry ∧ entry.Offers binding.name binding.path ∧
      entry.fallback = binding.fallback := by
  obtain ⟨entry, hentry, hoffer⟩ := Binder.offer_of_outcome h
  exact ⟨entry, hentry, (offer_eq_ok_iff entry binding).mp hoffer⟩

/-- What is accepted in a place has the name of the entry there. -/
theorem nameAt?_of_outcome {i : Nat} {binding : Binding}
    (h : (binder.outcomes entries)[i]? = some (.ok binding)) :
    nameAt? entries i = some binding.name := by
  obtain ⟨entry, hentry, hoffers, -⟩ := offers_of_outcome h
  rw [nameAt?, hentry, Option.bind_some, hoffers.name_eq]

/-- The steps of extractions account for each of them. -/
theorem entryAccount_entrySteps (subject : String) (entries : List Extraction) :
    EntryAccount subject entries (binder.entrySteps subject entries) where
  length_eq := Binder.length_entrySteps
  accepted_iff := by
    intro i entry hentry
    have hname : ∀ entry (binding : Binding), binder.offer entry = .ok binding →
        entry.name.map Text.trimmed = some binding.name :=
      fun entry binding h => ((offer_eq_ok_iff entry binding).mp h).1.name_eq
    rw [Binder.accepted_entrySteps_iff_offer hname hentry]
    constructor
    · rintro ⟨binding, hoffer, hfresh⟩
      refine ⟨binding.name, binding.path, ((offer_eq_ok_iff entry binding).mp hoffer).1, ?_⟩
      intro j hj haccepted hsame
      obtain ⟨earlier, hearlier, hnamed⟩ := Option.bind_eq_some_iff.mp hsame
      exact hfresh j hj earlier hearlier haccepted hnamed
    · rintro ⟨name, path, hoffers, hfresh⟩
      refine ⟨⟨name, path, entry.fallback⟩, (offer_eq_ok_iff entry _).mpr ⟨hoffers, rfl⟩, ?_⟩
      intro j hj earlier hearlier haccepted hnamed
      exact hfresh j hj haccepted (by rw [nameAt?, hearlier, Option.bind_some, hnamed]; rfl)
  accepted_step := by
    intro i entry name path hentry hoffers haccepted
    obtain ⟨binding, hbinding⟩ := Binder.accepted_entrySteps_iff.mp haccepted
    obtain ⟨entry', hentry', hoffers', hfallback⟩ := offers_of_outcome hbinding
    obtain rfl : entry' = entry := by simpa [hentry'] using hentry
    -- an extraction has one name and one path to offer
    obtain rfl : binding.name = name := by simpa [hoffers'.name_eq] using hoffers.name_eq
    obtain rfl : binding.path = path := by simpa [hoffers'.path_eq] using hoffers.path_eq
    rw [lawful_binder.getElem?_entrySteps_of_ok hbinding, hfallback]
    exact congrArg (fun text => some (Step.instruction .and text)) binding.text_eq
  refused_step i hi hrefused := lawful_binder.exists_refusal hi hrefused

/-! ## The collected names -/

/-- The names of the accepted entries are the names that are bound. -/
theorem acceptedNames_entrySteps (subject : String) (entries : List Extraction) :
    acceptedNames entries (binder.entrySteps subject entries) = binder.names entries :=
  Binder.filterMap_entrySteps fun _ _ => nameAt?_of_outcome

/-- The collection of names of variables is a sentence. -/
theorem sound_collection (h : binder.names entries ≠ []) :
    (collection (binder.names entries)).Sound :=
  Sentence.collection h fun _ hname => lawful_binder.isIdentifier_of_mem_names hname

/-- The step that collects the names, if there are any. -/
def collectionSteps (subject : String) (names : List String) : List Step :=
  if names = [] then [] else [(collection names).step subject]

/-- The step that collects names is written as it was put together. -/
theorem collectionSteps_names (h : binder.names entries ≠ []) :
    collectionSteps subject (binder.names entries) =
      [.instruction .and ("def extractedVariables = \x7b " ++ ", ".intercalate
        ((binder.names entries).map fun name => name ++ ": '#(" ++ name ++ ")'") ++ " \x7d")] := by
  have hsentence : Sentence .and _ := sound_collection h
  rw [collectionSteps, if_neg h, collection, Draft.step, hsentence.say_eq]
  rfl

/-- The steps of extractions are those of the entries, and the one that collects the names. -/
theorem steps_of_ne_nil (subject : String) (h : entries ≠ []) :
    steps subject entries =
      binder.entrySteps subject entries ++ collectionSteps subject (binder.names entries) := by
  rw [steps, drafts, if_neg (by simpa using h), List.map_append]
  refine congrArg (binder.entrySteps subject entries ++ ·) ?_
  simp only [collectionSteps, List.isEmpty_iff]
  split <;> rfl

/-! ## Refused entries leave no trace -/

/-- The instructions are those of the accepted entries, and the one that collects their names. -/
theorem instructions_steps (subject : String) (entries : List Extraction) :
    Step.instructions (steps subject entries) =
      Step.instructions (binder.entrySteps subject entries) ++
        collectionSteps subject (binder.names entries) := by
  have hcollection : Step.instructions (collectionSteps subject (binder.names entries)) =
      collectionSteps subject (binder.names entries) := by
    unfold collectionSteps
    split <;> rfl
  by_cases hne : entries = []
  · subst hne
    rfl
  · rw [steps_of_ne_nil subject hne, Step.instructions_append, hcollection]

/-- Without a refused entry the instructions are the same. -/
theorem instructions_steps_eraseIdx {i : Nat} (hi : i < entries.length)
    (h : ¬Accepted (binder.entrySteps subject entries) i) :
    Step.instructions (steps subject (entries.eraseIdx i)) =
      Step.instructions (steps subject entries) := by
  -- the instructions and the collection are made from what was accepted, and nothing else
  obtain ⟨problem, hproblem⟩ := Binder.exists_problem_of_not_accepted hi h
  have haccepted : accepted (binder.outcomes (entries.eraseIdx i)) =
      accepted (binder.outcomes entries) :=
    accepted_sift_eraseIdx hproblem
  rw [instructions_steps, instructions_steps, Binder.instructions_entrySteps,
    Binder.instructions_entrySteps, Binder.names, Binder.names, haccepted]

/-! ## The variables that extractions give values -/

/-- The variables that the steps of extractions give values: those of the accepted entries, and the
one that collects them if there are any. -/
def definitions (entries : List Extraction) : List String :=
  binder.names entries ++ if binder.names entries = [] then [] else [collectionVariable]

/-- The step that collects the names gives its own variable a value. -/
theorem map_definedName?_collectionSteps :
    (collectionSteps subject (binder.names entries)).map Step.definedName? =
      (if binder.names entries = [] then [] else [collectionVariable]).map some := by
  by_cases h : binder.names entries = []
  · rw [if_pos h, collectionSteps, if_pos h]
    rfl
  · -- the braces of the collection belong to its expression
    have htext : ∀ fields : String, "def extractedVariables = \x7b " ++ fields ++ " \x7d" =
        "def " ++ collectionVariable ++ " = " ++ ("\x7b " ++ fields ++ " \x7d") := by
      intro fields
      rw [← String.toList_inj]
      simp [collectionVariable]
    rw [if_neg h, collectionSteps_names h, htext, List.map_singleton, List.map_singleton,
      Step.definedName?_definition (by decide)]

/-- Each instruction of extractions gives one variable a value. -/
theorem map_definedName?_instructions_steps (subject : String) (entries : List Extraction) :
    (Step.instructions (steps subject entries)).map Step.definedName? =
      (definitions entries).map some := by
  rw [instructions_steps, List.map_append, lawful_binder.map_definedName?_instructions,
    map_definedName?_collectionSteps, definitions, List.map_append]

/-- The names that are bound are those that some entry has to offer, wherever it stands. -/
theorem mem_names_iff {name : String} :
    name ∈ binder.names entries ↔ ∃ entry ∈ entries, ∃ path, entry.Offers name path := by
  rw [Binder.mem_names_iff]
  exact exists_congr fun entry => and_congr_right fun _ => exists_offer_iff

/-- No variable is given a value twice, unless an entry binds the name of the collection. -/
theorem nodup_definitions_iff :
    (definitions entries).Nodup ↔ collectionVariable ∉ binder.names entries := by
  rw [definitions]
  split
  · rename_i hnil
    simp [hnil]
  · rw [List.nodup_append_comm, List.singleton_append, List.nodup_cons]
    exact and_iff_left (Binder.nodup_names entries)

/-- No other variable than that of the collection is given a value twice. -/
theorem count_definitions_le_one {name : String} (h : name ≠ collectionVariable) :
    (definitions entries).count name ≤ 1 := by
  have hcollection :
      (if binder.names entries = [] then [] else [collectionVariable]).count name = 0 := by
    rw [List.count_eq_zero]
    split
    · exact List.not_mem_nil
    · simpa using h
  rw [definitions, List.count_append, hcollection, Nat.add_zero]
  exact List.nodup_iff_count_le_one.mp (Binder.nodup_names entries) name

end

/-! ## Main statements -/

/-- Every extraction of a list that is not empty has one step in its place.  It is accepted exactly
if it offers a name and a path, and no entry that was accepted before it has the name; then its step
binds the name, and otherwise its step is a diagnostic with its position, counted from one.  If an
entry is accepted, one more step collects the names of the accepted entries, which are distinct.  A
refused entry leaves no trace: without it the instructions are the same. -/
theorem extractions_are_accounted_for (subject : String) (entries : List Extraction)
    (hne : entries ≠ []) :
    ∃ made : List Step, EntryAccount subject entries made ∧
      (acceptedNames entries made).Nodup ∧
      ((∃ i, Accepted made i) → steps subject entries = made ++ [.instruction .and
        ("def extractedVariables = \x7b " ++ ", ".intercalate
          ((acceptedNames entries made).map fun name => name ++ ": '#(" ++ name ++ ")'") ++
          " \x7d")]) ∧
      ((¬∃ i, Accepted made i) → steps subject entries = made) ∧
      ∀ i < entries.length, ¬Accepted made i →
        Step.instructions (steps subject (entries.eraseIdx i)) =
          Step.instructions (steps subject entries) := by
  refine ⟨binder.entrySteps subject entries, entryAccount_entrySteps subject entries, ?_, ?_, ?_,
    ?_⟩
  · rw [acceptedNames_entrySteps]
    exact Binder.nodup_names entries
  · intro haccepted
    have hnames : binder.names entries ≠ [] := fun h => Binder.names_eq_nil_iff.mp h haccepted
    rw [steps_of_ne_nil subject hne, acceptedNames_entrySteps, collectionSteps_names hnames]
  · intro hnone
    rw [steps_of_ne_nil subject hne, Binder.names_eq_nil_iff.mpr hnone]
    exact List.append_nil _
  · intro i hi hrefused
    exact instructions_steps_eraseIdx hi hrefused

/-- Extractions with blanks around a name, a name that is taken, names that are none, a path that
does not start at the root, and a name that only a refused entry had before. -/
def untidyExtractions : List Extraction :=
  [⟨some " a ", some "$.x'y", some (.string "n")⟩, ⟨some "1", some "$", none⟩,
    ⟨some "a", some "$.z", none⟩, ⟨some "b", some "c", none⟩, ⟨some "b", some "$", none⟩,
    ⟨none, some "$", none⟩]

/-- Such extractions are accounted for: the name of a refused entry is still free, and two names
are collected. -/
theorem untidyExtractions_are_accounted_for :
    untidyExtractions ≠ [] ∧ ∃ made : List Step, EntryAccount "e" untidyExtractions made ∧
      Accepted made 4 ∧ ¬Accepted made 3 ∧
      steps "e" untidyExtractions = made ++
        [.instruction .and "def extractedVariables = \x7b a: '#(a)', b: '#(b)' \x7d"] := by
  have hne : untidyExtractions ≠ [] := by simp [untidyExtractions]
  obtain ⟨made, haccount, -, hsome, hnone, -⟩ :=
    extractions_are_accounted_for "e" untidyExtractions hne
  have hsteps : steps "e" untidyExtractions = [
      .instruction .and "def a = karate.jsonPath(response, '$.x\\'y') || 'n'",
      .diagnostic "e" "Extraction 2 skipped: '1' is not a valid variable name",
      .diagnostic "e" "Extraction 3 skipped: variable 'a' is already extracted by this node",
      .diagnostic "e" "Extraction 4 skipped: path 'c' must start with '$'",
      .instruction .and "def b = karate.jsonPath(response, '$')",
      .diagnostic "e" "Extraction 6 skipped: variable name and JSON path are both required"] ++
      [.instruction .and "def extractedVariables = \x7b a: '#(a)', b: '#(b)' \x7d"] := by
    decide +kernel
  have hlength : made.length = 6 := haccount.length_eq
  by_cases haccepted : ∃ i, Accepted made i
  · have hmade := hsome haccepted
    rw [hsteps] at hmade
    obtain ⟨rfl, hlast⟩ := List.append_inj hmade hlength.symm
    exact ⟨hne, _, haccount, ⟨.and, _, rfl⟩, by simp [Accepted], hsteps⟩
  · have hmade := congrArg List.length (hnone haccepted)
    rw [hsteps, hlength] at hmade
    cases hmade

/-- Each instruction of extractions gives one variable a value.  No variable is given a value twice,
exactly if no entry offers the name of the variable that collects the others; and any other variable
is given a value once at most, whatever the entries are. -/
theorem definitions_distinct_iff (subject : String) (entries : List Extraction) :
    (Step.instructions (steps subject entries)).map Step.definedName? =
        (Step.definedNames (steps subject entries)).map some ∧
      ((Step.definedNames (steps subject entries)).Nodup ↔
        ∀ entry ∈ entries, ∀ path, ¬entry.Offers "extractedVariables" path) ∧
      ∀ name, name ≠ "extractedVariables" →
        (Step.definedNames (steps subject entries)).count name ≤ 1 := by
  have hinstructions := map_definedName?_instructions_steps subject entries
  rw [Step.definedNames_of_instructions hinstructions]
  refine ⟨hinstructions, ?_, fun name => count_definitions_le_one⟩
  rw [nodup_definitions_iff, mem_names_iff, collectionVariable]
  simp only [not_exists, not_and]

/-- The collection overwrites an extraction of its name. -/
theorem collection_overwrites_extraction :
    ¬(Step.definedNames
      (steps "e" [⟨some "extractedVariables", some "$.a", none⟩])).Nodup := by
  have hnames : Step.definedNames (steps "e" [⟨some "extractedVariables", some "$.a", none⟩]) =
      ["extractedVariables", "extractedVariables"] := by
    decide +kernel
  rw [hnames]
  decide

end Extraction

end TestFlow
