import TestFlow.Graph
import TestFlow.Proofs.Check.Steps
import TestFlow.Proofs.Component.Record

/-!
# The comparison of a check

The comparison of a check is asked for by name.  Names are alike if they differ only in the case of
their letters and in spaces, hyphens and underscores.  Alike names come to the same once they are
written as the aliases are (`Alike.letters_eq`), and each comparison goes by its aliases
(`ofName?_alias`).  So a name asks for the comparison that has an alias like it, and for
equality if there is no such alias (`asks_requested`).

Which verb goes with which comparison is a matter of the kind of the check and of the comparison
alone, so it is settled case by case (`Component.Compares.disciplined`).

In a payload the name stands in a field that has a place of its own.  A blank name is no name.

Reference: specification, §4.3 (assertions: the closed mapping of operators, and unrecognized ones)
and §7 (silent default).

## Main definitions

* `Comparison.Alike`, `Comparison.IsUnknown` — names that come to the same, and names of nothing;
* `Comparison.Asks` — the comparison that a check is asked for;
* `Kind.Disciplined` — the verbs and signs that go together;
* `HoldsOperator` — the payloads that differ in the name of their comparison alone.

## Main statement

* `checks_keep_discipline` — the step of a check, and which names make the same step.
-/

namespace TestFlow

open Json (Slot text?)

namespace Comparison

/-! ## Names -/

/-- Names that differ only in the case of their letters, and in spaces, hyphens and underscores. -/
inductive Alike : List Char → List Char → Prop
  | nil : Alike [] []
  | left {c : Char} {cs ds : List Char} (hc : c ∈ [' ', '-', '_']) (h : Alike cs ds) :
      Alike (c :: cs) ds
  | right {d : Char} {cs ds : List Char} (hd : d ∈ [' ', '-', '_']) (h : Alike cs ds) :
      Alike cs (d :: ds)
  | letter {c d : Char} {cs ds : List Char} (hcd : c.toLower = d.toLower) (h : Alike cs ds) :
      Alike (c :: cs) (d :: ds)

/-- The characters that do not count in a name are the three that may be left out of it. -/
theorem isFiller_iff {c : Char} : isFiller c = true ↔ c ∈ [' ', '-', '_'] := by
  simp [isFiller, or_assoc]

/-- In lower case, only the codes of the capital letters are others. -/
theorem toNat_toLower (c : Char) :
    c.toLower.toNat = if 65 ≤ c.toNat ∧ c.toNat ≤ 90 then c.toNat + 32 else c.toNat := by
  delta Char.toLower
  split
  · rename_i h
    have hcapital : 65 ≤ c.toNat ∧ c.toNat ≤ 90 := by
      simpa [UInt32.le_iff_toNat_le] using h
    rw [if_pos hcapital]
    show (c.val + 32).toNat = c.val.toNat + 32
    have hcode : c.val.toNat ≤ 90 := hcapital.2
    rw [UInt32.toNat_add]
    simp only [UInt32.reduceToNat]
    omega
  · rename_i h
    have hother : ¬(65 ≤ c.toNat ∧ c.toNat ≤ 90) := by
      simpa [UInt32.le_iff_toNat_le] using h
    rw [if_neg hother]

/-- What is in lower case stays as it is. -/
theorem toLower_toLower (c : Char) : c.toLower.toLower = c.toLower := by
  rw [← Char.toNat_inj, toNat_toLower, toNat_toLower]
  split
  · rw [if_neg (by omega)]
  · rfl

/-- Whether a character counts does not depend on its case: those that do not count are no
letters. -/
theorem isFiller_toLower (c : Char) : isFiller c.toLower = isFiller c := by
  have hcode : ∀ d : Char, isFiller d = true ↔ d.toNat = 32 ∨ d.toNat = 45 ∨ d.toNat = 95 := by
    intro d
    simp [isFiller_iff, ← Char.toNat_inj]
  rw [Bool.eq_iff_iff, hcode, hcode, toNat_toLower]
  split
  · omega
  · rfl

/-- The characters of a name as the aliases are written. -/
def letters (cs : List Char) : List Char :=
  (cs.filter fun c => !isFiller c).map Char.toLower

theorem letters_of_filler {c : Char} (hc : isFiller c = true) (cs : List Char) :
    letters (c :: cs) = letters cs := by
  simp [letters, hc]

theorem letters_of_not_filler {c : Char} (hc : isFiller c = false) (cs : List Char) :
    letters (c :: cs) = c.toLower :: letters cs := by
  simp [letters, hc]

/-- Alike names have the same letters. -/
theorem Alike.letters_eq {cs ds : List Char} (h : Alike cs ds) : letters cs = letters ds := by
  induction h with
  | nil => rfl
  | left hc _ ih => rw [letters_of_filler (isFiller_iff.mpr hc), ih]
  | right hd _ ih => rw [letters_of_filler (isFiller_iff.mpr hd), ih]
  -- A letter may stand against a letter in another case.  Neither then counts or both do, since the
  -- characters that do not count have no case.
  | @letter c d _ _ hcd _ ih =>
      have hfiller : isFiller c = isFiller d := by
        rw [← isFiller_toLower c, hcd, isFiller_toLower d]
      cases hd : isFiller d with
      | true => rw [letters_of_filler (hfiller.trans hd), letters_of_filler hd, ih]
      | false =>
          rw [letters_of_not_filler (hfiller.trans hd), letters_of_not_filler hd, hcd, ih]

/-- A name is like its letters. -/
theorem alike_letters (cs : List Char) : Alike cs (letters cs) := by
  induction cs with
  | nil => exact .nil
  | cons c cs ih =>
      cases hc : isFiller c with
      | true =>
          rw [letters_of_filler hc]
          exact .left (isFiller_iff.mp hc) ih
      | false =>
          rw [letters_of_not_filler hc]
          exact .letter (toLower_toLower c).symm ih

/-- The normal form of a name is made of its letters. -/
theorem normalized_eq (name : String) : normalized name = String.ofList (letters name.toList) :=
  rfl

theorem alike_normalized (name : String) : Alike name.toList (normalized name).toList := by
  rw [normalized_eq, String.toList_ofList]
  exact alike_letters name.toList

/-- Alike names are those of the same comparison, if of any. -/
theorem Alike.ofName?_eq {name other : String} (h : Alike name.toList other.toList) :
    ofName? name = ofName? other := by
  rw [ofName?, ofName?, normalized_eq, normalized_eq, h.letters_eq]

/-- A comparison goes by each of its aliases. -/
theorem ofName?_alias (comparison : Comparison) :
    ∀ name ∈ comparison.aliases, ofName? name = some comparison := by
  cases comparison <;> decide +kernel

/-- A name that is like no alias. -/
def IsUnknown (name : String) : Prop :=
  ∀ (comparison : Comparison), ∀ other ∈ comparison.aliases, ¬Alike name.toList other.toList

/-- No comparison goes by a name exactly if the name is like no alias. -/
theorem ofName?_eq_none_iff {name : String} : ofName? name = none ↔ IsUnknown name := by
  constructor
  · intro hnone comparison other hother halike
    rw [halike.ofName?_eq, ofName?_alias comparison other hother] at hnone
    cases hnone
  -- A comparison that is found has the normal form of the name among its aliases, and the name is
  -- like its normal form.
  · intro hunknown
    refine List.find?_eq_none.mpr fun comparison _ hcontains => ?_
    exact hunknown comparison _ (List.contains_iff_mem.mp hcontains) (alike_normalized name)

/-- The comparison that a check is asked for, with the one that it makes if it is asked for none. -/
inductive Asks (unnamed : Comparison) : Option String → Comparison → Prop
  | unnamed : Asks unnamed none unnamed
  | named {name other : String} {comparison : Comparison} (hother : other ∈ comparison.aliases)
      (h : Alike name.toList other.toList) : Asks unnamed (some name) comparison
  | unknown {name : String} (h : IsUnknown name) : Asks unnamed (some name) .equals

/-- A check makes the comparison that it is asked for. -/
theorem asks_requested (unnamed : Comparison) (operator : Option String) :
    Asks unnamed operator (requested unnamed operator) := by
  cases operator with
  | none => exact .unnamed
  | some name =>
      cases hname : ofName? name with
      | none =>
          rw [requested, hname]
          exact .unknown (ofName?_eq_none_iff.mp hname)
      | some comparison =>
          rw [requested, hname]
          have hcontains := List.find?_some hname
          exact .named (List.contains_iff_mem.mp hcontains) (alike_normalized name)

/-- An unknown name asks for what `equals` asks for. -/
theorem requested_of_isUnknown {name : String} (h : IsUnknown name) (unnamed : Comparison) :
    requested unnamed (some name) = requested unnamed (some "equals") := by
  have hequals : ofName? "equals" = some .equals := ofName?_alias .equals "equals" (by decide)
  rw [requested, requested, ofName?_eq_none_iff.mpr h, hequals]
  rfl

theorem Alike.requested_eq {name other : String} (h : Alike name.toList other.toList)
    (unnamed : Comparison) : requested unnamed (some name) = requested unnamed (some other) := by
  rw [requested, requested, h.ofName?_eq]

/-! ## Signs -/

/-- The signs that ask which of two values is greater. -/
def orderingTokens : List String := [">", "<", ">=", "<="]

/-- The signs that ask whether a value is part of another. -/
def containmentTokens : List String := ["contains", "!contains"]

/-- The sign of equality is that of no other comparison. -/
theorem token_eq_equals_iff (comparison : Comparison) :
    comparison.token = "==" ↔ comparison = .equals := by
  cases comparison <;> decide

/-- The signs of order are those of the comparisons by order. -/
theorem token_mem_orderingTokens_iff (comparison : Comparison) :
    comparison.token ∈ orderingTokens ↔ comparison.isOrdering = true := by
  cases comparison <;> decide

/-- A comparison by order does not ask what a value contains. -/
theorem token_not_mem_containmentTokens {comparison : Comparison}
    (h : comparison.isOrdering = true) : comparison.token ∉ containmentTokens := by
  cases comparison <;> cases h <;> decide

/-- Numbers are not asked what they contain. -/
theorem token_numeric_not_mem_containmentTokens (comparison : Comparison) :
    comparison.numeric.token ∉ containmentTokens := by
  cases comparison <;> decide

end Comparison

/-! ## Verbs -/

namespace Kind

open Comparison (orderingTokens containmentTokens)

/-- The verb and the sign that the step of a check may have. -/
structure Disciplined (kind : Kind) (verb token : String) : Prop where
  verb_mem : verb ∈ ["match", "assert"]
  token_mem : Script.IsOperator token
  match_not_ordering : verb = "match" → token ∉ orderingTokens
  assert_not_containment : verb = "assert" → token ∉ containmentTokens
  assert_iff_ordering : kind ∈ [.fieldCheck, .headerCheck] →
    (verb = "assert" ↔ token ∈ orderingTokens)
  schema_match : kind = .schemaCheck → verb = "match"
  number_assert : kind ∈ [.statusCheck, .timeCheck] → verb ≠ "match"

/-- An assertion keeps the discipline, unless it is one of a schema, if its sign is none of
containment and, for a field or a header, one of order. -/
theorem disciplined_of_assert {kind : Kind} {comparison : Comparison}
    (hkind : kind ∉ [.fieldCheck, .headerCheck] ∨ comparison.isOrdering = true)
    (hschema : kind ≠ .schemaCheck) (htoken : comparison.token ∉ containmentTokens) :
    kind.Disciplined "assert" comparison.token where
  verb_mem := by decide
  token_mem := Script.isOperator_token comparison
  match_not_ordering h := absurd h (by decide)
  assert_not_containment _ := htoken
  assert_iff_ordering h :=
    iff_of_true rfl ((Comparison.token_mem_orderingTokens_iff comparison).mpr
      (hkind.resolve_left fun hnot => hnot h))
  schema_match h := absurd h hschema
  number_assert _ := by decide

/-- A match keeps the discipline in every check but those of numbers, if its sign is none of
order. -/
theorem disciplined_of_match {kind : Kind} {comparison : Comparison}
    (hkind : kind ∉ [.statusCheck, .timeCheck]) (hordering : comparison.isOrdering = false) :
    kind.Disciplined "match" comparison.token := by
  have htoken : comparison.token ∉ orderingTokens := by
    rw [Comparison.token_mem_orderingTokens_iff, hordering]
    exact Bool.false_ne_true
  exact {
    verb_mem := by decide
    token_mem := Script.isOperator_token comparison
    match_not_ordering := fun _ => htoken
    assert_not_containment := fun h => absurd h (by decide)
    assert_iff_ordering := fun _ => iff_of_false (by decide) htoken
    schema_match := fun _ => rfl
    number_assert := fun h => absurd h hkind }

/-- Whether a comparison is asserted or matched is settled by the kind of the check. -/
theorem disciplined_verb {kind : Kind} (hkind : kind ∉ [.statusCheck, .timeCheck])
    {comparison : Comparison} (hschema : kind = .schemaCheck → comparison.isOrdering = false) :
    kind.Disciplined (if comparison.isOrdering then "assert" else "match") comparison.token := by
  cases hordering : comparison.isOrdering with
  | true =>
      refine disciplined_of_assert (Or.inr hordering) (fun h => ?_)
        (Comparison.token_not_mem_containmentTokens hordering)
      rw [hschema h] at hordering
      cases hordering
  | false => exact disciplined_of_match hkind hordering

end Kind

namespace Component

/-- A check that lacks nothing keeps the discipline. -/
theorem Compares.disciplined {check : Component} {subject expected : String}
    (h : check.Compares subject expected) :
    check.kind.Disciplined (check.kind.verb check.comparison) check.comparison.token := by
  cases h with
  | status n operator =>
      have hkind : Kind.statusCheck ∉ [Kind.fieldCheck, Kind.headerCheck] := by decide
      exact Kind.disciplined_of_assert (Or.inl hkind) Kind.noConfusion
        (Comparison.token_numeric_not_mem_containmentTokens _)
  | field path expected operator =>
      have hkind : Kind.fieldCheck ∉ [Kind.statusCheck, Kind.timeCheck] := by decide
      exact Kind.disciplined_verb hkind Kind.noConfusion
  | header name expected operator =>
      have hkind : Kind.headerCheck ∉ [Kind.statusCheck, Kind.timeCheck] := by decide
      exact Kind.disciplined_verb hkind Kind.noConfusion
  | schema schema operator =>
      have hkind : Kind.schemaCheck ∉ [Kind.statusCheck, Kind.timeCheck] := by decide
      exact Kind.disciplined_verb hkind fun _ => Comparison.isOrdering_structural _
  | time n operator =>
      have hkind : Kind.timeCheck ∉ [Kind.fieldCheck, Kind.headerCheck] := by decide
      exact Kind.disciplined_of_assert (Or.inl hkind) Kind.noConfusion
        (Comparison.token_numeric_not_mem_containmentTokens _)

/-- The words of a check, with the short form that equality of the status has. -/
theorem words_append (check : Component) (subject expected : String) :
    check.words subject ++ " " ++ expected =
      if check.kind = .statusCheck ∧ check.comparison.token = "==" then "status " ++ expected
      else check.kind.verb check.comparison ++ " " ++ subject ++ " " ++ check.comparison.token
        ++ " " ++ expected := by
  simp only [words, Comparison.token_eq_equals_iff]
  split
  · rfl
  · rfl

/-! ## Names in a check -/

/-- A check with another name of a comparison, or with none. -/
def withOperator (operator : Option String) : Component → Component
  | .statusCheck check => .statusCheck { check with operator }
  | .fieldCheck check => .fieldCheck { check with operator }
  | .headerCheck check => .headerCheck { check with operator }
  | .schemaCheck check => .schemaCheck { check with operator }
  | .timeCheck check => .timeCheck { check with operator }
  | component => component

/-- Names that ask for the same comparison make the same steps. -/
theorem steps_withOperator_congr {operator other : Option String}
    (h : ∀ unnamed, Comparison.requested unnamed operator = Comparison.requested unnamed other)
    (component : Component) (id : String) :
    (component.withOperator operator).steps id = (component.withOperator other).steps id := by
  cases component with
  | statusCheck check => simp only [withOperator, steps, drafts, StatusCheck.draft, h]
  | fieldCheck check => simp only [withOperator, steps, drafts, FieldCheck.draft, h]
  | headerCheck check => simp only [withOperator, steps, drafts, HeaderCheck.draft, h]
  | schemaCheck check => simp only [withOperator, steps, drafts, SchemaCheck.draft, h]
  | timeCheck check => simp only [withOperator, steps, drafts, TimeCheck.draft, h]
  | _ => rfl

end Component

/-! ## Names in a payload -/

namespace Kind

/-- The record of a check with another name of a comparison, or with none. -/
def fillOperator : (kind : Kind) → Option String → kind.Record → kind.Record
  | .statusCheck => fun operator record => { record with operator }
  | .fieldCheck => fun operator record => { record with operator }
  | .headerCheck => fun operator record => { record with operator }
  | .schemaCheck => fun operator record => { record with operator }
  | .timeCheck => fun operator record => { record with operator }
  | _ => fun _ record => record

/-- The field for the name of a comparison. -/
def operatorSlot (kind : Kind) : Slot kind.Record :=
  .of "operator" [] text? kind.fillOperator

/-- The name of a comparison has a place of its own in every check. -/
theorem places_operator {kind : Kind}
    (h : kind ∈ [.statusCheck, .fieldCheck, .headerCheck, .schemaCheck, .timeCheck]) :
    kind.shape.Places kind.operatorSlot text? kind.fillOperator := by
  -- The five shapes differ in their other fields only, and none of those writes to the name.
  simp only [List.mem_cons, List.not_mem_nil, or_false] at h
  rcases h with rfl | rfl | rfl | rfl | rfl
  all_goals
    refine ⟨fun _ _ => rfl, fun _ _ _ => rfl, by decide, ?_⟩
    simp [shape, operatorSlot, StatusCheck.shape, FieldCheck.shape, HeaderCheck.shape,
      SchemaCheck.shape, TimeCheck.shape, fillOperator]

/-- What is filled in there is the name that the component has. -/
theorem make_fillOperator (kind : Kind) (operator : Option String) (record : kind.Record) :
    kind.make (kind.fillOperator operator record) = (kind.make record).withOperator operator := by
  cases kind <;> rfl

end Kind

/-- The payloads of a check that differ in the name of their comparison alone.  It comes last among
the fields, so its place in an array depends on how many others there are. -/
inductive HoldsOperator : Kind → (Json → Json) → Prop
  | field {kind : Kind}
      (hkind : kind ∈ [.statusCheck, .fieldCheck, .headerCheck, .schemaCheck, .timeCheck])
      (before after : List (String × Json)) :
      HoldsOperator kind fun v => .object (before ++ ("operator", v) :: after)
  | second {kind : Kind} (hkind : kind ∈ [.statusCheck, .schemaCheck, .timeCheck]) (first : Json)
      (after : List Json) : HoldsOperator kind fun v => .array ([first] ++ v :: after)
  | third {kind : Kind} (hkind : kind ∈ [.fieldCheck, .headerCheck]) (first second : Json)
      (after : List Json) : HoldsOperator kind fun v => .array ([first, second] ++ v :: after)

/-- A payload decodes as it would without a name, and the name is put in behind. -/
def TakesOperator (kind : Kind) (payload : Json → Json) : Prop :=
  ∀ {v : Json} {operator : Option String}, text? v = .ok operator →
    Component.decode kind (payload v) =
      (Component.decode kind (payload .null)).map (Component.withOperator operator)

/-- A payload takes a name wherever the field for it may stand. -/
theorem takesOperator_of_holds {kind : Kind}
    (hkind : kind ∈ [.statusCheck, .fieldCheck, .headerCheck, .schemaCheck, .timeCheck])
    {payload : Json → Json} (h : kind.shape.Holds kind.operatorSlot payload) :
    TakesOperator kind payload := by
  intro v operator hv
  -- Extractions are the one kind that is not decoded by its shape alone, and no check.
  have hextraction : kind ≠ .extraction := by
    rintro rfl
    exact absurd hkind (by decide)
  have hfilled := (Kind.places_operator hkind).decode_of_holds h hv (w := .null) rfl
  rw [Component.decode_of_holds hextraction h, Component.decode_of_holds hextraction h, hfilled]
  cases kind.shape.decode (payload .null) with
  | error e => rfl
  | ok record => exact congrArg Except.ok (kind.make_fillOperator operator record)

/-- The payloads that differ in the name of their comparison alone take it. -/
theorem HoldsOperator.takesOperator {kind : Kind} {payload : Json → Json}
    (h : HoldsOperator kind payload) : TakesOperator kind payload := by
  cases h with
  | field hkind before after =>
      refine takesOperator_of_holds hkind (.field ?_ before after)
      simp only [List.mem_cons, List.not_mem_nil, or_false] at hkind
      rcases hkind with rfl | rfl | rfl | rfl | rfl <;> rfl
  | second hkind first after =>
      -- one field comes before the name
      simp only [List.mem_cons, List.not_mem_nil, or_false] at hkind
      rcases hkind with rfl | rfl | rfl
      all_goals
        exact takesOperator_of_holds (by decide)
          (.item ((Kind.shape _).slots.take 1) rfl [first] rfl after)
  | third hkind first second after =>
      -- two fields come before it
      simp only [List.mem_cons, List.not_mem_nil, or_false] at hkind
      rcases hkind with rfl | rfl
      all_goals
        exact takesOperator_of_holds (by decide)
          (.item ((Kind.shape _).slots.take 2) rfl [first, second] rfl after)

/-- A text that is not blank decodes to itself. -/
theorem text?_of_not_isBlank {s : String} (h : Text.isBlank s = false) :
    text? (.string s) = .ok (some s) := by
  have hpresent : ¬(Json.string s).isAbsent = true := by
    rw [Json.isAbsent, h]
    exact Bool.false_ne_true
  rw [text?, if_neg hpresent]
  rfl

/-- Names that ask for the same comparison make the same steps in a payload. -/
theorem TakesOperator.steps_congr {kind : Kind} {payload : Json → Json}
    (h : TakesOperator kind payload) {s t : String} (hs : Text.isBlank s = false)
    (ht : Text.isBlank t = false)
    (hrequested : ∀ unnamed,
      Comparison.requested unnamed (some s) = Comparison.requested unnamed (some t)) (id : String) :
    Node.steps ⟨id, kind, Component.decode kind (payload (.string s))⟩ =
      Node.steps ⟨id, kind, Component.decode kind (payload (.string t))⟩ := by
  rw [h (text?_of_not_isBlank hs), h (text?_of_not_isBlank ht)]
  cases Component.decode kind (payload .null) with
  | error e => rfl
  | ok component => exact component.steps_withOperator_congr hrequested id

/-! ## Main statement -/

/-- A check that lacks nothing makes one step, which compares what it looks at with the value it
expects there, in the words that the test runner knows.  A name that is like no alias makes the same
step as `equals`, and so do names that are alike.  In a payload the same holds of all names that are
not blank; a blank one is no name. -/
theorem checks_keep_discipline :
    (∀ check subject expected, Component.Compares check subject expected → ∀ id,
      ∃ asked verb token,
        Comparison.Asks check.kind.unnamed check.operator asked ∧
        token = (check.kind.settled asked).token ∧
        check.kind.Disciplined verb token ∧
        check.steps id = [.instruction check.kind.checkKeyword
          (if check.kind = .statusCheck ∧ token = "==" then "status " ++ expected
            else verb ++ " " ++ subject ++ " " ++ token ++ " " ++ expected)]) ∧
    (∀ (check : Component) id name, Comparison.IsUnknown name →
      (check.withOperator (some name)).steps id = (check.withOperator (some "equals")).steps id) ∧
    (∀ (check : Component) id name other, Comparison.Alike name.toList other.toList →
      (check.withOperator (some name)).steps id = (check.withOperator (some other)).steps id) ∧
    ∀ kind payload, HoldsOperator kind payload → ∀ id s,
      (Text.isBlank s = true →
        Node.steps ⟨id, kind, Component.decode kind (payload (.string s))⟩ =
          Node.steps ⟨id, kind, Component.decode kind (payload .null)⟩) ∧
      (Text.isBlank s = false → Comparison.IsUnknown s →
        Node.steps ⟨id, kind, Component.decode kind (payload (.string s))⟩ =
          Node.steps ⟨id, kind, Component.decode kind (payload (.string "equals"))⟩) ∧
      ∀ t, Text.isBlank s = false → Text.isBlank t = false →
        Comparison.Alike s.toList t.toList →
        Node.steps ⟨id, kind, Component.decode kind (payload (.string s))⟩ =
          Node.steps ⟨id, kind, Component.decode kind (payload (.string t))⟩ := by
  refine ⟨?_, ?_, ?_, ?_⟩
  · intro check subject expected hcompares id
    refine ⟨.requested check.kind.unnamed check.operator, check.kind.verb check.comparison, _,
      Comparison.asks_requested _ _, rfl, hcompares.disciplined, ?_⟩
    rw [hcompares.steps_eq id]
    exact congrArg (fun text => [Step.instruction check.kind.checkKeyword text])
      (check.words_append subject expected)
  · exact fun check id name hunknown =>
      check.steps_withOperator_congr (Comparison.requested_of_isUnknown hunknown) id
  · exact fun check id name other halike =>
      check.steps_withOperator_congr halike.requested_eq id
  · intro kind payload hholds id s
    have htakes : TakesOperator kind payload := hholds.takesOperator
    refine ⟨fun hs => ?_, fun hs hunknown => ?_, fun t hs ht halike => ?_⟩
    -- A blank name decodes to none, as null does.
    · have habsent := htakes (Json.lenient_text (.string s) hs)
      have hnull := htakes (v := .null) rfl
      rw [habsent, ← hnull]
    · exact htakes.steps_congr hs (by decide) (Comparison.requested_of_isUnknown hunknown) id
    · exact htakes.steps_congr hs ht halike.requested_eq id

/-- A check of a field whose path is broken and whose comparison has an untidy name. -/
def brokenPathCheck : Component :=
  .fieldCheck ⟨some "a\r\nb", some (.string "it's"), some "Greater_Than -or EQUAL"⟩

/-- The check asserts an order on one line, takes alike names for one, and takes an unknown name
for equality in a list of values too. -/
theorem brokenPathCheck_keeps_discipline :
    brokenPathCheck.steps "f" = [.instruction .and "assert response.a b >= 'it\\'s'"] ∧
      (∃ verb token, Kind.fieldCheck.Disciplined verb token ∧ brokenPathCheck.steps "f" =
        [.instruction .and (verb ++ " " ++ "response.a b" ++ " " ++ token ++ " " ++ "'it\\'s'")]) ∧
      (brokenPathCheck.withOperator (some "g-t-E")).steps "f" =
        (brokenPathCheck.withOperator (some "GTE")).steps "f" ∧
      Node.steps ⟨"t", .timeCheck, Component.decode .timeCheck
          (.array ([.string "5"] ++ .string "about" :: []))⟩ =
        Node.steps ⟨"t", .timeCheck, Component.decode .timeCheck
          (.array ([.string "5"] ++ .string "equals" :: []))⟩ := by
  obtain ⟨hform, -, halike, hpayload⟩ := checks_keep_discipline
  refine ⟨by decide +kernel, ?_, ?_, ?_⟩
  · obtain ⟨asked, verb, token, -, -, hdisciplined, hsteps⟩ :=
      hform brokenPathCheck _ _ (.field "a\r\nb" (.string "it's") _) "f"
    have hpath : Text.oneLine (Script.responsePath "a\r\nb") = "response.a b" := by decide
    have hliteral : Script.literal (.string "it's") = "'it\\'s'" := by decide
    rw [if_neg fun h => Kind.noConfusion h.1, hpath, hliteral] at hsteps
    exact ⟨verb, token, hdisciplined, hsteps⟩
  · exact halike brokenPathCheck "f" "g-t-E" "GTE"
      (.letter rfl (.left (by decide) (.letter rfl (.left (by decide) (.letter rfl .nil)))))
  · have hunknown : Comparison.IsUnknown "about" :=
      Comparison.ofName?_eq_none_iff.mp (by decide +kernel)
    exact (hpayload .timeCheck _ (.second (by decide) (.string "5") []) "t" "about").2.1
      (by decide) hunknown

end TestFlow
