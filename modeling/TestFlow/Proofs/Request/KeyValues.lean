import TestFlow.Proofs.Json.Reader.Values
import TestFlow.Proofs.Text.Basic
import TestFlow.Request
import Mathlib.Data.List.Forall2

/-!
# The forms of a list of keys and values

A list is given as an object, as rows, or as a text that holds one of the two.  The fields of an
object and the rows of an array are gone through in order, and the first that cannot be read decides
what is wrong with the list.  A row that is switched off or has no key is passed over, whatever its
value is, so that it neither gives an entry nor spoils the list.

A text is read after trimming.  The compact text of an object or array starts and ends with a
bracket, so trimming takes exactly the blanks around it away, and the reader gives the value back.

Reference: specification, §3.2 (headers, query parameters and form fields).

## Main definitions

* `Json.plainText` — the text of a value without brackets;
* `Counted`, `Gives` — the rows that count, and the entry that such a row gives;
* `Faulty` — the rows that cannot be read, with the reason;
* `rowOf` — a key and a value as a row.

## Main statements

* `rows_are_accounted_for` — what rows give, and what rows give that are put behind others;
* `key_value_forms_agree` — the forms of a list agree.
-/

namespace TestFlow

/-! ## Texts of scalars -/

namespace Json

/-- The text of a value without brackets: a string stands for itself, null for the empty text, and
any other value for its compact JSON. -/
def plainText : Json → String
  | .null => ""
  | .string s => s
  | v => v.compact

/-- The values without brackets have a text, which is the plain one. -/
theorem scalarText?_eq_some_iff {v : Json} {s : String} :
    v.scalarText? = some s ↔ v.IsScalar ∧ v.plainText = s := by
  have hbool : ∀ b, boolText b = (bool b).compact := by decide
  cases v with
  | bool b => simp [scalarText?, IsScalar, plainText, hbool]
  | number n => simp [scalarText?, IsScalar, plainText, compact, Json.text]
  | _ => simp [scalarText?, IsScalar, plainText]

theorem scalarText?_eq_none_iff {v : Json} : v.scalarText? = none ↔ ¬v.IsScalar := by
  cases v <;> simp [scalarText?, IsScalar]

end Json

namespace KeyValues

open Json (scalarText?_eq_some_iff scalarText?_eq_none_iff)

/-- A list cannot be read, for the reason given. -/
def Malformed (list : KeyValues) (reason : String) : Prop :=
  ∃ problem, list = .error problem ∧ problem.message = reason

/-! ## Going through a list -/

section Traversal

variable {α β ε : Type} {f : α → Except ε β}

/-- Going through a list succeeds if nothing in it is refused. -/
theorem exists_mapM_eq_ok {l : List α} (h : ∀ a ∈ l, ∃ b, f a = .ok b) :
    ∃ bs, l.mapM f = .ok bs ∧ List.Forall₂ (fun a b => f a = .ok b) l bs := by
  induction l with
  | nil => exact ⟨[], rfl, .nil⟩
  | cons a l ih =>
      obtain ⟨⟨b, hb⟩, hrest⟩ := List.forall_mem_cons.mp h
      obtain ⟨bs, hbs, hforall⟩ := ih hrest
      refine ⟨b :: bs, ?_, .cons hb hforall⟩
      rw [List.mapM_cons, hb, hbs]
      rfl

/-- Going through a list stops at the first thing that is refused. -/
theorem mapM_of_first_error {before after : List α} {a : α} {e : ε}
    (hbefore : ∀ x ∈ before, ∃ b, f x = .ok b) (ha : f a = .error e) :
    (before ++ a :: after).mapM f = .error e := by
  induction before with
  | nil =>
      rw [List.nil_append, List.mapM_cons, ha]
      rfl
  | cons x before ih =>
      obtain ⟨⟨b, hb⟩, hrest⟩ := List.forall_mem_cons.mp hbefore
      rw [List.cons_append, List.mapM_cons, hb, ih hrest]
      rfl

end Traversal

/-! ## Rows -/

/-- A row counts under a key: it is an object that does not say that it is switched off, and its key
is a value without brackets whose text is not blank. -/
structure Counts (row : Json) (fields : List (String × Json)) (key : String) : Prop where
  eq_object : row = .object fields
  enabled : Fields.get? "enabled" fields ≠ some (.bool false)
  has_key : ∃ k, Fields.get? "key" fields = some k ∧ k.IsScalar ∧ k.plainText = key
  not_blank : Text.isBlank key = false

/-- The rows that count. -/
def Counted (row : Json) : Prop :=
  ∃ fields key, Counts row fields key

/-- The value of a row; a missing one is as good as null. -/
def valueOf (fields : List (String × Json)) : Json :=
  (Fields.get? "value" fields).getD .null

/-- The entry that a row gives: its key and the text of its value. -/
inductive Gives (row : Json) : KeyValue → Prop
  | entry {fields : List (String × Json)} {key : String} (h : Counts row fields key)
      (hvalue : (valueOf fields).IsScalar) : Gives row ⟨key, (valueOf fields).plainText⟩

/-- The rows that spoil a list, with the reason: those that are no objects, and those that count and
have a value with brackets. -/
inductive Faulty (row : Json) : String → Prop
  | notObject (h : ∀ fields, row ≠ .object fields) :
      Faulty row "expected rows of \x7bkey, value\x7d"
  | notScalar {fields : List (String × Json)} {key : String} {value : Json}
      (h : Counts row fields key) (hvalue : Fields.get? "value" fields = some value)
      (hbrackets : ¬value.IsScalar) : Faulty row ("value of '" ++ key ++ "' is not a scalar")

/-- Only the value `false` switches a row off. -/
theorem isDisabled_iff {fields : List (String × Json)} :
    isDisabled fields = true ↔ Fields.get? "enabled" fields = some (.bool false) := by
  unfold isDisabled
  split
  · rename_i h
    simp [h]
  · rename_i h
    simpa using h

/-- A row has a key if its key is a value without brackets whose text is not blank. -/
theorem isBlank_rowKey_iff {fields : List (String × Json)} :
    Text.isBlank (rowKey fields) = false ↔
      ∃ k, Fields.get? "key" fields = some k ∧ k.IsScalar ∧ Text.isBlank k.plainText = false := by
  have hblank : Text.isBlank "" = true := by decide
  unfold rowKey
  cases hkey : Fields.get? "key" fields with
  | none => simp [hblank]
  | some k =>
      cases htext : k.scalarText? with
      | none => simp [htext, hblank, scalarText?_eq_none_iff.mp htext]
      | some s =>
          obtain ⟨hscalar, rfl⟩ := scalarText?_eq_some_iff.mp htext
          simp [htext, hscalar]

/-- The key of a row that counts is the one it counts under. -/
theorem Counts.rowKey_eq {row : Json} {fields : List (String × Json)} {key : String}
    (h : Counts row fields key) : rowKey fields = key := by
  obtain ⟨k, hk, hkey⟩ := h.has_key
  rw [rowKey, hk, Option.bind_some, scalarText?_eq_some_iff.mpr hkey, Option.getD_some]

/-- The value of a row as a text, a missing one being null. -/
theorem rowValue?_eq (fields : List (String × Json)) :
    rowValue? fields = (valueOf fields).scalarText? := by
  unfold rowValue? valueOf
  cases Fields.get? "value" fields <;> rfl

/-- A row that is an object counts, unless it is switched off or its key is blank. -/
theorem counted_object_iff {fields : List (String × Json)} :
    Counted (.object fields) ↔ (isDisabled fields || Text.isBlank (rowKey fields)) = false := by
  rw [Bool.or_eq_false_iff, isBlank_rowKey_iff, ← Bool.not_eq_true, isDisabled_iff]
  constructor
  · rintro ⟨_, key, h⟩
    obtain ⟨rfl⟩ := Json.object.inj h.eq_object
    obtain ⟨k, hk, hscalar, rfl⟩ := h.has_key
    exact ⟨h.enabled, k, hk, hscalar, h.not_blank⟩
  · rintro ⟨henabled, k, hk, hscalar, hblank⟩
    exact ⟨fields, k.plainText, rfl, henabled, ⟨k, hk, hscalar, rfl⟩, hblank⟩

/-- A row that gives an entry is read as this entry. -/
theorem ofRow_of_gives {row : Json} {entry : KeyValue} (h : Gives row entry) :
    ofRow row = .ok (some entry) := by
  obtain ⟨hcounts, hvalue⟩ := h
  obtain rfl := hcounts.eq_object
  have hcounted := counted_object_iff.mp ⟨_, _, hcounts⟩
  rw [ofRow, if_neg (by simp [hcounted]), rowValue?_eq,
    scalarText?_eq_some_iff.mpr ⟨hvalue, rfl⟩, hcounts.rowKey_eq]

/-- A row that does not count is read as no entry, whatever its value is. -/
theorem ofRow_of_not_counted {fields : List (String × Json)} (h : ¬Counted (.object fields)) :
    ofRow (.object fields) = .ok none := by
  rw [counted_object_iff, Bool.not_eq_false] at h
  rw [ofRow, if_pos h]

/-- A row that spoils the list is refused for its reason. -/
theorem ofRow_of_faulty {row : Json} {reason : String} (h : Faulty row reason) :
    ∃ problem, ofRow row = .error problem ∧ problem.message = reason := by
  cases h with
  | notObject h =>
      refine ⟨.notRows, ?_, rfl⟩
      cases row with
      | object fields => exact absurd rfl (h fields)
      | _ => rfl
  | @notScalar fields key value h hvalue hbrackets =>
      obtain rfl := h.eq_object
      have hcounted := counted_object_iff.mp ⟨fields, key, h⟩
      have hnone : rowValue? fields = none := by
        rw [rowValue?, hvalue]
        exact scalarText?_eq_none_iff.mpr hbrackets
      refine ⟨.notScalar key, ?_, rfl⟩
      rw [ofRow, if_neg (by simp [hcounted]), hnone, h.rowKey_eq]

/-- A row spoils the list, is passed over or gives an entry. -/
theorem row_cases (row : Json) :
    (∃ reason, Faulty row reason) ∨ (∃ fields, row = .object fields ∧ ¬Counted row) ∨
      ∃ entry, Gives row entry := by
  -- the order of the checks: an object at all, then whether it counts, then its value
  by_cases hobject : ∃ fields, row = .object fields
  · by_cases hcounted : Counted row
    · obtain ⟨fields, key, h⟩ := hcounted
      by_cases hscalar : (valueOf fields).IsScalar
      · exact .inr (.inr ⟨_, .entry h hscalar⟩)
      · refine .inl ⟨_, .notScalar h ?_ hscalar⟩
        -- a missing value has no brackets
        cases hvalue : Fields.get? "value" fields with
        | none =>
            rw [valueOf, hvalue] at hscalar
            exact absurd trivial hscalar
        | some value => simp [valueOf, hvalue]
    · obtain ⟨fields, rfl⟩ := hobject
      exact .inr (.inl ⟨fields, rfl, hcounted⟩)
  · exact .inl ⟨_, .notObject (not_exists.mp hobject)⟩

theorem not_counted_of_ne {row : Json} (h : ∀ fields, row ≠ .object fields) : ¬Counted row := by
  rintro ⟨fields, key, hcounts⟩
  exact h fields hcounts.eq_object

instance : DecidablePred Counted
  | .object _ => decidable_of_iff' _ counted_object_iff
  | .null => isFalse (not_counted_of_ne (by simp))
  | .bool _ => isFalse (not_counted_of_ne (by simp))
  | .number _ => isFalse (not_counted_of_ne (by simp))
  | .string _ => isFalse (not_counted_of_ne (by simp))
  | .array _ => isFalse (not_counted_of_ne (by simp))

theorem Gives.counted {row : Json} {entry : KeyValue} (h : Gives row entry) : Counted row := by
  obtain ⟨hcounts, -⟩ := h
  exact ⟨_, _, hcounts⟩

/-- What rows give that can all be read: the entries of those that count. -/
theorem forall₂_gives {rows : List Json} {options : List (Option KeyValue)}
    (h : List.Forall₂ (fun row option => ofRow row = .ok option) rows options) :
    List.Forall₂ Gives (rows.filter (Counted ·)) (options.filterMap id) := by
  induction h with
  | nil => exact .nil
  | @cons row option rows options hrow _ ih =>
      -- a faulty row is not among rows that can be read, one that does not count drops out on both
      -- sides
      obtain ⟨reason, hfaulty⟩ | ⟨fields, rfl, hcounted⟩ | ⟨entry, hgives⟩ := row_cases row
      · obtain ⟨problem, herror, -⟩ := ofRow_of_faulty hfaulty
        rw [herror] at hrow
        cases hrow
      · rw [ofRow_of_not_counted hcounted] at hrow
        cases hrow
        rw [List.filter_cons_of_neg (by simpa using hcounted)]
        exact ih
      · rw [ofRow_of_gives hgives] at hrow
        cases hrow
        rw [List.filter_cons_of_pos (by simpa using hgives.counted)]
        exact .cons hgives ih

/-- A row that does not spoil the list can be read. -/
theorem exists_ofRow_eq_ok {row : Json} (h : ∀ reason, ¬Faulty row reason) :
    ∃ option, ofRow row = .ok option := by
  obtain ⟨reason, hfaulty⟩ | ⟨fields, rfl, hcounted⟩ | ⟨entry, hgives⟩ := row_cases row
  · exact absurd hfaulty (h reason)
  · exact ⟨none, ofRow_of_not_counted hcounted⟩
  · exact ⟨some entry, ofRow_of_gives hgives⟩

/-- Rows none of which spoils the list give the entries of those that count. -/
theorem ofRows_of_sound {rows : List Json} (h : ∀ row ∈ rows, ∀ reason, ¬Faulty row reason) :
    ∃ entries, ofRows rows = .ok entries ∧
      List.Forall₂ Gives (rows.filter (Counted ·)) entries := by
  obtain ⟨options, hoptions, hforall⟩ :=
    exists_mapM_eq_ok fun row hrow => exists_ofRow_eq_ok (h row hrow)
  refine ⟨options.filterMap id, ?_, forall₂_gives hforall⟩
  rw [ofRows, hoptions]
  rfl

/-- The first row that spoils the list tells the reason. -/
theorem malformed_of_first_faulty {before after : List Json} {row : Json} {reason : String}
    (hbefore : ∀ earlier ∈ before, ∀ r, ¬Faulty earlier r) (hrow : Faulty row reason) :
    Malformed (ofRows (before ++ row :: after)) reason := by
  obtain ⟨problem, herror, hmessage⟩ := ofRow_of_faulty hrow
  refine ⟨problem, ?_, hmessage⟩
  rw [ofRows, mapM_of_first_error (fun x hx => exists_ofRow_eq_ok (hbefore x hx)) herror]
  rfl

/-- A list of rows cannot be read exactly if one of the rows spoils it. -/
theorem exists_malformed_iff {rows : List Json} :
    (∃ reason, Malformed (ofRows rows) reason) ↔ ∃ row ∈ rows, ∃ reason, Faulty row reason := by
  classical
  constructor
  · rintro ⟨reason, problem, herror, -⟩
    by_contra hsound
    push Not at hsound
    obtain ⟨entries, hok, -⟩ := ofRows_of_sound hsound
    rw [hok] at herror
    cases herror
  · rintro ⟨row, hrow, hfaulty⟩
    -- of the rows that spoil the list, one is the first
    have hfound : (rows.find? fun row => decide (∃ reason, Faulty row reason)).isSome := by
      rw [List.find?_isSome]
      exact ⟨row, hrow, by simpa using hfaulty⟩
    obtain ⟨first, hfirst⟩ := Option.isSome_iff_exists.mp hfound
    obtain ⟨hreason, before, after, rfl, hbefore⟩ := List.find?_eq_some_iff_append.mp hfirst
    obtain ⟨reason, hreason⟩ := of_decide_eq_true hreason
    exact ⟨reason, malformed_of_first_faulty (by simpa using hbefore) hreason⟩

/-- Rows behind others give their entries behind those of the others, and a problem of the first
rows is the one that counts. -/
theorem ofRows_append (rows others : List Json) :
    ofRows (rows ++ others) = match ofRows rows, ofRows others with
      | .ok entries, .ok more => .ok (entries ++ more)
      | .error problem, _ => .error problem
      | .ok _, .error problem => .error problem := by
  unfold ofRows
  rw [List.mapM_append]
  cases rows.mapM ofRow with
  | error problem => rfl
  | ok options =>
      cases others.mapM ofRow with
      | error problem => rfl
      | ok more => exact congrArg Except.ok List.filterMap_append

/-! ## Fields, and pairs as rows -/

/-- A key and a value as a row. -/
def rowOf (pair : String × Json) : Json :=
  .object [("key", .string pair.1), ("value", pair.2)]

/-- A field without brackets gives its key and the text of its value. -/
theorem ofField_of_isScalar {pair : String × Json} (h : pair.2.IsScalar) :
    ofField pair = .ok ⟨pair.1, pair.2.plainText⟩ := by
  rw [ofField, scalarText?_eq_some_iff.mpr ⟨h, rfl⟩]

/-- A field with brackets is refused by its key. -/
theorem ofField_of_not_isScalar {pair : String × Json} (h : ¬pair.2.IsScalar) :
    ofField pair = .error (.notScalar pair.1) := by
  rw [ofField, scalarText?_eq_none_iff.mpr h]

/-- Fields without brackets give an entry each. -/
theorem ofFields_of_isScalar {pairs : List (String × Json)}
    (h : ∀ pair ∈ pairs, pair.2.IsScalar) :
    ofFields pairs = .ok (pairs.map fun pair => ⟨pair.1, pair.2.plainText⟩) := by
  induction pairs with
  | nil => rfl
  | cons pair pairs ih =>
      obtain ⟨hscalar, hrest⟩ := List.forall_mem_cons.mp h
      have hfields : pairs.mapM ofField = .ok (pairs.map fun pair => ⟨pair.1, pair.2.plainText⟩) :=
        ih hrest
      rw [ofFields, List.mapM_cons, ofField_of_isScalar hscalar, hfields]
      rfl

/-- A row with nothing but a key and a value is read as a field. -/
theorem ofRow_rowOf {pair : String × Json} (h : Text.isBlank pair.1 = false) :
    ofRow (rowOf pair) = (ofField pair).map some := by
  have hdisabled : isDisabled [("key", .string pair.1), ("value", pair.2)] = false := rfl
  have hkey : rowKey [("key", .string pair.1), ("value", pair.2)] = pair.1 := rfl
  have hvalue : rowValue? [("key", .string pair.1), ("value", pair.2)] = pair.2.scalarText? := rfl
  rw [rowOf, ofRow, hdisabled, hkey, h, hvalue, ofField]
  cases pair.2.scalarText? <;> rfl

/-- Keys and values give the same list as rows and as fields. -/
theorem ofRows_map_rowOf {pairs : List (String × Json)}
    (h : ∀ pair ∈ pairs, Text.isBlank pair.1 = false) :
    ofRows (pairs.map rowOf) = ofFields pairs := by
  have hrows : (pairs.map rowOf).mapM ofRow = (pairs.mapM ofField).map (List.map some) := by
    induction pairs with
    | nil => rfl
    | cons pair pairs ih =>
        obtain ⟨hkey, hrest⟩ := List.forall_mem_cons.mp h
        rw [List.map_cons, List.mapM_cons, List.mapM_cons, ofRow_rowOf hkey, ih hrest]
        cases ofField pair with
        | error problem => rfl
        | ok entry => cases pairs.mapM ofField <;> rfl
  rw [ofRows, hrows, ofFields]
  cases pairs.mapM ofField with
  | error problem => rfl
  | ok entries => exact congrArg Except.ok (by simp [List.filterMap_map])

end KeyValues

/-! ## Texts -/

namespace Json

/-- The text of an array ends with its bracket. -/
theorem exists_moreItems_eq (items : List Json) : ∃ inside, moreItems items = inside ++ [']'] := by
  induction items with
  | nil => exact ⟨[], rfl⟩
  | cons item items ih =>
      obtain ⟨inside, hinside⟩ := ih
      exact ⟨',' :: item.text ++ inside, by simp [moreItems, hinside]⟩

/-- The text of an object ends with its bracket. -/
theorem exists_moreFields_eq (fields : List (String × Json)) :
    ∃ inside, moreFields fields = inside ++ ['}'] := by
  induction fields with
  | nil => exact ⟨[], rfl⟩
  | cons field fields ih =>
      obtain ⟨key, value⟩ := field
      obtain ⟨inside, hinside⟩ := ih
      exact ⟨',' :: stringText key ++ ':' :: value.text ++ inside, by simp [moreFields, hinside]⟩

/-- The text of an array or object starts and ends with a bracket. -/
theorem exists_text_of_brackets {v : Json} (h : ¬v.IsScalar) :
    ∃ first inside last, v.text = first :: (inside ++ [last]) ∧ (first = '[' ∨ first = '{') ∧
      (last = ']' ∨ last = '}') := by
  cases v with
  | array items =>
      cases items with
      | nil => exact ⟨'[', [], ']', rfl, .inl rfl, .inl rfl⟩
      | cons item items =>
          obtain ⟨inside, hinside⟩ := exists_moreItems_eq items
          exact ⟨'[', item.text ++ inside, ']', by simp [Json.text, hinside], .inl rfl, .inl rfl⟩
  | object fields =>
      cases fields with
      | nil => exact ⟨'{', [], '}', rfl, .inr rfl, .inr rfl⟩
      | cons field fields =>
          obtain ⟨key, value⟩ := field
          obtain ⟨inside, hinside⟩ := exists_moreFields_eq fields
          exact ⟨'{', stringText key ++ ':' :: value.text ++ inside, '}',
            by simp [Json.text, hinside], .inr rfl, .inr rfl⟩
  | _ => exact absurd trivial h

theorem isBlankChar_opening {c : Char} (h : c = '[' ∨ c = '{') : Text.isBlankChar c = false := by
  rcases h with rfl | rfl <;> rfl

/-- Trimming takes the blanks around the text of an array or object away, and nothing else. -/
theorem trimmed_around_compact {v : Json} (h : ¬v.IsScalar) {left right : String}
    (hleft : Text.isBlank left = true) (hright : Text.isBlank right = true) :
    Text.trimmed (left ++ v.compact ++ right) = v.compact := by
  obtain ⟨first, inside, last, htext, hfirst, hlast⟩ := exists_text_of_brackets h
  have hlast : Text.isBlankChar last = false := by
    rcases hlast with rfl | rfl <;> rfl
  have htrim : Text.trim (left.toList ++ v.text ++ right.toList) = v.text := by
    apply Text.trim_around (Text.isBlank_iff.mp hleft) (Text.isBlank_iff.mp hright)
    · simp [htext]
    · simpa [htext] using isBlankChar_opening hfirst
    · rw [htext, ← List.cons_append, List.getLast?_concat]
      simpa using hlast
  rw [Text.trimmed, String.toList_append, String.toList_append, compact, String.toList_ofList,
    htrim]

end Json

namespace KeyValues

/-- A text that holds an array or object, perhaps with blanks around it, is read as what it
holds. -/
theorem ofJson_around {form : Json} (hbrackets : ¬form.IsScalar) (h : form.Portable)
    {left right : String} (hleft : Text.isBlank left = true) (hright : Text.isBlank right = true) :
    ofJson (.string (left ++ form.compact ++ right)) = ofJson form := by
  have hnonempty : form.compact.isEmpty = false := by
    obtain ⟨first, inside, last, htext, -⟩ := Json.exists_text_of_brackets hbrackets
    simp [Json.compact, htext]
  rw [ofJson, ofText, Json.trimmed_around_compact hbrackets hleft hright, hnonempty,
    h.parse_compact]
  cases form with
  | array rows => rfl
  | object fields => rfl
  | _ => exact absurd trivial hbrackets

/-- Rows can be written and read back if their values can. -/
theorem portable_rows {pairs : List (String × Json)}
    (hvalues : ∀ pair ∈ pairs, pair.2.FloatFree ∧ pair.2.DistinctKeys)
    (hdepth : (Json.array (pairs.map rowOf)).depth < 128) :
    (Json.array (pairs.map rowOf)).Portable := by
  refine ⟨?_, ?_, hdepth⟩
  · rw [Json.floatFree_array, List.forall_mem_map]
    intro pair hpair
    simpa [rowOf] using (hvalues pair hpair).1
  · rw [Json.distinctKeys_array, List.forall_mem_map]
    intro pair hpair
    simpa [rowOf] using (hvalues pair hpair).2

/-- Fields with distinct keys can be written and read back if their values can. -/
theorem portable_fields {pairs : List (String × Json)} (hkeys : (pairs.map Prod.fst).Nodup)
    (hvalues : ∀ pair ∈ pairs, pair.2.FloatFree ∧ pair.2.DistinctKeys)
    (hdepth : (Json.object pairs).depth < 128) : (Json.object pairs).Portable :=
  ⟨Json.floatFree_object.mpr fun pair hpair => (hvalues pair hpair).1,
    Json.distinctKeys_object.mpr ⟨hkeys, fun pair hpair => (hvalues pair hpair).2⟩, hdepth⟩

/-! ## Main statements -/

/-- A list of rows cannot be read exactly if one of the rows spoils it, and the first such row tells
the reason.  Otherwise the rows that count give the entries of the list, one each, in their order.
Rows that are put behind others give their entries behind those of the others, unless the first rows
cannot be read, whose problem then counts, or the second cannot. -/
theorem rows_are_accounted_for (rows : List Json) :
    ((∃ reason, Malformed (ofJson (.array rows)) reason) ↔
        ∃ row ∈ rows, ∃ reason, Faulty row reason) ∧
      (∀ before row after reason, rows = before ++ row :: after →
        (∀ earlier ∈ before, ∀ r, ¬Faulty earlier r) → Faulty row reason →
          Malformed (ofJson (.array rows)) reason) ∧
      ((∀ row ∈ rows, ∀ reason, ¬Faulty row reason) →
        ∃ entries, ofJson (.array rows) = .ok entries ∧
          List.Forall₂ Gives (rows.filter (Counted ·)) entries) ∧
      ∀ others, ofJson (.array (rows ++ others)) =
        match ofJson (.array rows), ofJson (.array others) with
        | .ok entries, .ok more => .ok (entries ++ more)
        | .error problem, _ => .error problem
        | .ok _, .error problem => .error problem := by
  refine ⟨exists_malformed_iff, ?_, ofRows_of_sound, ofRows_append rows⟩
  rintro before row after reason rfl hbefore hrow
  exact malformed_of_first_faulty hbefore hrow

/-- Keys that are distinct and not blank make the same list with their values as an object and as
rows.  So does a text that holds one of the two, perhaps with blanks around it, if the values have
no floating-point numbers and no key twice and the reader may open their brackets.  The list has the
keys with the texts of the values, if no value has brackets; otherwise the first key whose value has
some is the reason why there is no list. -/
theorem key_value_forms_agree (pairs : List (String × Json)) (hkeys : (pairs.map Prod.fst).Nodup)
    (hblank : ∀ pair ∈ pairs, Text.isBlank pair.1 = false)
    (hvalues : ∀ pair ∈ pairs, pair.2.FloatFree ∧ pair.2.DistinctKeys) :
    ofJson (.array (pairs.map rowOf)) = ofJson (.object pairs) ∧
      (∀ form ∈ [Json.object pairs, .array (pairs.map rowOf)], form.depth < 128 →
        ∀ left right, Text.isBlank left = true → Text.isBlank right = true →
          ofJson (.string (left ++ form.compact ++ right)) = ofJson (.object pairs)) ∧
      ((∀ pair ∈ pairs, pair.2.IsScalar) →
        ofJson (.object pairs) = .ok (pairs.map fun pair => ⟨pair.1, pair.2.plainText⟩)) ∧
      ∀ before pair after, pairs = before ++ pair :: after →
        (∀ earlier ∈ before, earlier.2.IsScalar) → ¬pair.2.IsScalar →
          Malformed (ofJson (.object pairs)) ("value of '" ++ pair.1 ++ "' is not a scalar") := by
  have hrows : ofJson (.array (pairs.map rowOf)) = ofJson (.object pairs) :=
    ofRows_map_rowOf hblank
  refine ⟨hrows, ?_, ofFields_of_isScalar, ?_⟩
  · intro form hform hdepth left right hleft hright
    obtain rfl | rfl : form = .object pairs ∨ form = .array (pairs.map rowOf) := by
      simpa using hform
    · exact ofJson_around id (portable_fields hkeys hvalues hdepth) hleft hright
    -- the text of the rows is read as the rows, and these make the list of the object
    · rw [← hrows]
      exact ofJson_around id (portable_rows hvalues hdepth) hleft hright
  · rintro before pair after rfl hbefore hpair
    refine ⟨.notScalar pair.1, ?_, rfl⟩
    exact mapM_of_first_error (fun x hx => ⟨_, ofField_of_isScalar (hbefore x hx)⟩)
      (ofField_of_not_isScalar hpair)

/-- Keys with quotes of both kinds, and two values with brackets. -/
def unrulyPairs : List (String × Json) :=
  [("it's", .bool true), ("\"k", .array [.null]), ("z", .object [])]

/-- The forms agree on such pairs, and name the first key whose value has brackets. -/
theorem unrulyPairs_forms_agree :
    (unrulyPairs.map Prod.fst).Nodup ∧
      (Json.array (unrulyPairs.map rowOf)).compact =
        "[\x7b\"key\":\"it's\",\"value\":true\x7d,\x7b\"key\":\"\\\"k\",\"value\":[null]\x7d," ++
          "\x7b\"key\":\"z\",\"value\":\x7b\x7d\x7d]" ∧
      ofJson (.array (unrulyPairs.map rowOf)) = ofJson (.object unrulyPairs) ∧
      ofJson (.string ("\xa0\n" ++ (Json.array (unrulyPairs.map rowOf)).compact ++ "\t")) =
        ofJson (.object unrulyPairs) ∧
      Malformed (ofJson (.object unrulyPairs)) "value of '\"k' is not a scalar" := by
  have hkeys : (unrulyPairs.map Prod.fst).Nodup := by decide +kernel
  have hblank : ∀ pair ∈ unrulyPairs, Text.isBlank pair.1 = false := by
    simp [unrulyPairs, Text.isBlank, Text.isBlankChar]
  have hvalues : ∀ pair ∈ unrulyPairs, pair.2.FloatFree ∧ pair.2.DistinctKeys := by
    have hbool : (Json.bool true).DistinctKeys := Json.IsScalar.distinctKeys trivial
    simp [unrulyPairs, hbool]
  obtain ⟨hrows, htext, -, hmalformed⟩ := key_value_forms_agree unrulyPairs hkeys hblank hvalues
  refine ⟨hkeys, by decide +kernel, hrows, ?_, ?_⟩
  · exact htext (.array (unrulyPairs.map rowOf)) (by simp) (by decide +kernel) "\xa0\n" "\t"
      (by decide +kernel) (by decide +kernel)
  · exact hmalformed [("it's", .bool true)] ("\"k", .array [.null]) [("z", .object [])] rfl
      (by simp [Json.IsScalar]) id

end KeyValues

end TestFlow
