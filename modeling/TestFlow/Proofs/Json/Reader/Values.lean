import TestFlow.Proofs.Json.Reader.Scalars
import TestFlow.Proofs.Json.Shape

/-!
# Values are read back

The loops over items and fields read back what was written if the readers inside them do.  They are
used for the values of a payload and for the records of a flow alike, so the items here are of any
type that is written as JSON, and the fields lead from one state of any type to the next.

A value is read back by induction on the number of brackets that may be opened: the values inside
its brackets have one bracket less.  The fuel of the loops is the length of the whole text, and the
text of an array or object is longer than the list of its items or fields.

Reference: specification, §3.2 (bodies and lists given as JSON text) and §6 (input).

## Main definitions

* `Portable` — the values that the compact text stands for;
* `parseDeep` — the reader without a limit on brackets.

## Main statements

* `items_itemsText`, `fields_fieldsText` — the loops read back what was written;
* `readsBack_value` — a value is read back, if it has no floating-point numbers, no key twice and no
  more brackets than may be opened;
* `Portable.parse_compact` — so a portable value is what its compact text is read as.
-/

namespace TestFlow.Json

namespace Reader

/-! ## Arrays -/

/-- The text of an array behind its opening bracket. -/
def itemsText : List Json → List Char
  | [] => [']']
  | item :: rest => item.text ++ moreItems rest

/-- The text of an array is its opening bracket and what is behind it. -/
theorem text_array (items : List Json) : (array items).text = '[' :: itemsText items := by
  cases items with
  | nil => rfl
  | cons item rest => rfl

/-- Behind an item comes a comma or the closing bracket. -/
theorem endsValue_moreItems (items : List Json) (rest : List Char) :
    EndsValue (moreItems items ++ rest) := by
  cases items with
  | nil => exact endsValue_cons (by decide) rest
  | cons item items => exact endsValue_cons (by decide) _

theorem nextItem_close (first : Bool) (rest : List Char) :
    nextItem first (']' :: rest) = .ok (false, ']' :: rest) :=
  rfl

/-- The first item is reached without a comma. -/
theorem nextItem_first (v : Json) (rest : List Char) :
    nextItem true (v.text ++ rest) = .ok (true, v.text ++ rest) := by
  obtain ⟨c, cs, htext, hc⟩ := exists_text_eq_cons v
  have hclose : c ≠ ']' := hc.ne (by decide)
  have hspace := skipSpace_text v rest
  rw [htext, List.cons_append] at hspace ⊢
  simp [nextItem, hspace]

/-- Any other item is reached past a comma. -/
theorem nextItem_comma (v : Json) (rest : List Char) :
    nextItem false (',' :: (v.text ++ rest)) = .ok (true, v.text ++ rest) := by
  obtain ⟨c, cs, htext, hc⟩ := exists_text_eq_cons v
  have hclose : c ≠ ']' := hc.ne (by decide)
  have hspace := skipSpace_text v rest
  rw [htext, List.cons_append] at hspace ⊢
  simp [nextItem, skipSpace_cons (show isSpace ',' = false from rfl), hspace, hclose]

section Items

variable {α : Type} {item : Reader α} {encode : α → Json} {as : List α}

/-- At the closing bracket the loop ends with what it has read. -/
theorem itemsFrom_close (fuel : Nat) (first : Bool) (read : List α) (rest : List Char) :
    itemsFrom item (fuel + 1) first read (']' :: rest) = .ok (read.reverse, rest) := by
  rw [itemsFrom, nextItem_close]
  rfl

/-- At an item the loop reads it and goes on. -/
theorem itemsFrom_more {first : Bool} {cs rest rest' : List Char} {a : α}
    (hnext : nextItem first cs = .ok (true, rest)) (hitem : item rest = .ok (a, rest'))
    (fuel : Nat) (read : List α) :
    itemsFrom item (fuel + 1) first read cs = itemsFrom item fuel false (a :: read) rest' := by
  rw [itemsFrom, hnext, ok_bind]
  simp only [if_true, hitem, ok_bind]

/-- Written items behind the first are read back, each by the reader of the items. -/
theorem itemsFrom_moreItems (hread : ∀ a ∈ as, ReadsBack item (encode a).text a) (fuel : Nat)
    (hfuel : as.length < fuel) (read : List α) (rest : List Char) :
    itemsFrom item fuel false read (moreItems (as.map encode) ++ rest) =
      .ok (read.reverse ++ as, rest) := by
  -- Each round takes one item and one unit of fuel, and the last one the closing bracket.
  induction as generalizing fuel read with
  | nil =>
      obtain ⟨fuel, rfl⟩ : ∃ f, fuel = f + 1 := ⟨fuel - 1, by omega⟩
      rw [List.append_nil]
      exact itemsFrom_close fuel false read rest
  | cons a as ih =>
      rw [List.length_cons] at hfuel
      obtain ⟨fuel, rfl⟩ : ∃ f, fuel = f + 1 := ⟨fuel - 1, by omega⟩
      have hnext := nextItem_comma (encode a) (moreItems (as.map encode) ++ rest)
      have hitem := hread a List.mem_cons_self _ (endsValue_moreItems (as.map encode) rest)
      have hrest := ih (fun b hb => hread b (List.mem_cons_of_mem a hb)) fuel (by omega) (a :: read)
      rw [List.map_cons, moreItems, List.cons_append, List.cons_append, List.append_assoc,
        itemsFrom_more hnext hitem, hrest, List.reverse_cons, List.append_assoc]
      rfl

/-- The written items of an array are read back behind its opening bracket. -/
theorem items_itemsText (hread : ∀ a ∈ as, ReadsBack item (encode a).text a) {fuel : Nat}
    (hfuel : as.length ≤ fuel) (rest : List Char) :
    items fuel item (itemsText (as.map encode) ++ rest) = .ok (as, rest) := by
  cases as with
  | nil => exact itemsFrom_close fuel true [] rest
  | cons a as =>
      have hnext := nextItem_first (encode a) (moreItems (as.map encode) ++ rest)
      have hitem := hread a List.mem_cons_self _ (endsValue_moreItems (as.map encode) rest)
      have hrest := itemsFrom_moreItems (fun b hb => hread b (List.mem_cons_of_mem a hb))
        fuel hfuel [a] rest
      rw [items, List.map_cons, itemsText, List.append_assoc, itemsFrom_more hnext hitem, hrest]
      rfl

end Items

/-! ## Objects -/

/-- The text of an object behind its opening brace. -/
def fieldsText : List (String × Json) → List Char
  | [] => ['}']
  | (key, value) :: rest => stringText key ++ ':' :: value.text ++ moreFields rest

/-- The text of an object is its opening brace and what is behind it. -/
theorem text_object (fields : List (String × Json)) :
    (object fields).text = '{' :: fieldsText fields := by
  cases fields with
  | nil => rfl
  | cons field rest => rfl

/-- Behind a field comes a comma or the closing brace. -/
theorem endsValue_moreFields (fields : List (String × Json)) (rest : List Char) :
    EndsValue (moreFields fields ++ rest) := by
  cases fields with
  | nil => exact endsValue_cons (by decide) rest
  | cons field fields => exact endsValue_cons (by decide) _

theorem nextKey_close (first : Bool) (rest : List Char) :
    nextKey first ('}' :: rest) = .ok (none, '}' :: rest) :=
  rfl

/-- The first key is reached without a comma. -/
theorem nextKey_first (key : String) (rest : List Char) :
    nextKey true (stringText key ++ rest) = .ok (some key, rest) := by
  have hquoted := quoted_inside key rest
  rw [stringText_append]
  simp [nextKey, skipSpace_cons (show isSpace '"' = false from rfl), hquoted, ok_bind]

/-- Any other key is reached past a comma. -/
theorem nextKey_comma (key : String) (rest : List Char) :
    nextKey false (',' :: (stringText key ++ rest)) = .ok (some key, rest) := by
  have hquoted := quoted_inside key rest
  rw [stringText_append]
  simp [nextKey, skipSpace_cons (show isSpace '"' = false from rfl),
    skipSpace_cons (show isSpace ',' = false from rfl), hquoted, ok_bind]

/-- Behind each key, written fields are read back, from one state to the next. -/
inductive FieldsReadBack {σ : Type} (field : String → σ → Reader σ) :
    σ → List (String × Json) → σ → Prop
  | nil {state : σ} : FieldsReadBack field state [] state
  | cons {key : String} {value : Json} {fields : List (String × Json)} {state next result : σ}
      (hread : ReadsBack (field key state) (':' :: value.text) next)
      (hrest : FieldsReadBack field next fields result) :
      FieldsReadBack field state ((key, value) :: fields) result

section Fields

variable {σ : Type} {field : String → σ → Reader σ}

/-- At the closing brace the loop ends in the state that it has come to. -/
theorem fieldsFrom_close (fuel : Nat) (first : Bool) (state : σ) (rest : List Char) :
    fieldsFrom field (fuel + 1) first state ('}' :: rest) = .ok (state, rest) := by
  rw [fieldsFrom, nextKey_close]
  rfl

/-- At a field the loop reads it into the next state and goes on. -/
theorem fieldsFrom_more {first : Bool} {cs rest rest' : List Char} {key : String} {state next : σ}
    (hnext : nextKey first cs = .ok (some key, rest))
    (hfield : field key state rest = .ok (next, rest')) (fuel : Nat) :
    fieldsFrom field (fuel + 1) first state cs = fieldsFrom field fuel false next rest' := by
  rw [fieldsFrom, hnext, ok_bind]
  simp only [hfield, ok_bind]

/-- Written fields behind the first are read back, each behind its key. -/
theorem fieldsFrom_moreFields {fields : List (String × Json)} {state result : σ}
    (h : FieldsReadBack field state fields result) (fuel : Nat) (hfuel : fields.length < fuel)
    (rest : List Char) :
    fieldsFrom field fuel false state (moreFields fields ++ rest) = .ok (result, rest) := by
  induction h generalizing fuel with
  | nil =>
      obtain ⟨fuel, rfl⟩ : ∃ f, fuel = f + 1 := ⟨fuel - 1, by omega⟩
      exact fieldsFrom_close fuel false _ rest
  | @cons key value fields state next result hread _ ih =>
      rw [List.length_cons] at hfuel
      obtain ⟨fuel, rfl⟩ : ∃ f, fuel = f + 1 := ⟨fuel - 1, by omega⟩
      have hnext := nextKey_comma key (':' :: value.text ++ (moreFields fields ++ rest))
      have hfield := hread _ (endsValue_moreFields fields rest)
      rw [← ih fuel (by omega), ← fieldsFrom_more hnext hfield, moreFields]
      simp

/-- The written fields of an object are read back behind its opening brace. -/
theorem fields_fieldsText {fields : List (String × Json)} {state result : σ}
    (h : FieldsReadBack field state fields result) {fuel : Nat} (hfuel : fields.length ≤ fuel)
    (rest : List Char) :
    Reader.fields fuel field state (fieldsText fields ++ rest) = .ok (result, rest) := by
  cases h with
  | nil => exact fieldsFrom_close fuel true state rest
  | @cons key value fields next _ _ hread hrest =>
      have hnext := nextKey_first key (':' :: value.text ++ (moreFields fields ++ rest))
      have hfield := hread _ (endsValue_moreFields fields rest)
      rw [← fieldsFrom_moreFields hrest fuel hfuel, ← fieldsFrom_more hnext hfield,
        fieldsText, Reader.fields]
      simp

end Fields

/-! ## Lengths -/

/-- What is written of items behind the first is longer than their list and than each of their
texts. -/
theorem length_moreItems (items : List Json) :
    items.length < (moreItems items).length ∧
      ∀ item ∈ items, item.text.length < (moreItems items).length := by
  induction items with
  | nil => simp [moreItems]
  | cons item items ih =>
      obtain ⟨hlength, htext⟩ := ih
      simp only [moreItems, List.length_cons, List.length_append, List.forall_mem_cons]
      refine ⟨by omega, by omega, ?_⟩
      intro other hother
      have := htext other hother
      omega

/-- The same holds of fields and the texts of their values. -/
theorem length_moreFields (fields : List (String × Json)) :
    fields.length < (moreFields fields).length ∧
      ∀ field ∈ fields, field.2.text.length < (moreFields fields).length := by
  induction fields with
  | nil => simp [moreFields]
  | cons field fields ih =>
      obtain ⟨key, value⟩ := field
      obtain ⟨hlength, htext⟩ := ih
      simp only [moreFields, List.length_cons, List.length_append, List.forall_mem_cons]
      refine ⟨by omega, by omega, ?_⟩
      intro other hother
      have := htext other hother
      omega

/-- The text of an array is longer than the list of its items and than each of their texts. -/
theorem length_text_array (items : List Json) :
    items.length < (array items).text.length ∧
      ∀ item ∈ items, item.text.length < (array items).text.length := by
  cases items with
  | nil => simp [Json.text]
  | cons item items => exact length_moreItems (item :: items)

/-- The text of an object is longer than the list of its fields and than the texts of their
values. -/
theorem length_text_object (fields : List (String × Json)) :
    fields.length < (object fields).text.length ∧
      ∀ field ∈ fields, field.2.text.length < (object fields).text.length := by
  cases fields with
  | nil => simp [Json.text]
  | cons field fields => exact length_moreFields (field :: fields)

/-- Each bracket that is open takes a character of the text. -/
theorem depth_le_of_length_text_le (limit : Nat) {v : Json} (h : v.text.length ≤ limit) :
    v.depth ≤ limit := by
  induction limit generalizing v with
  | zero =>
      obtain ⟨c, rest, htext, -⟩ := exists_text_eq_cons v
      simp [htext] at h
  | succ limit ih =>
      cases v with
      | array items =>
          rw [depth_array_le_iff]
          intro item hitem
          have hshort := (length_text_array items).2 item hitem
          exact ih (by omega)
      | object fields =>
          rw [depth_object_le_iff]
          intro field hfield
          have hshort := (length_text_object fields).2 field hfield
          exact ih (by omega)
      | _ => exact Nat.zero_le _

/-! ## Values -/

theorem colon_cons (cs : List Char) : colon (':' :: cs) = .ok cs := rfl

/-- A field with a new key is read back behind those that were read. -/
theorem readsBack_valueField {inner : Reader Json} {key : String} {v : Json}
    {read : List (String × Json)} (h : ReadsBack inner v.text v) (hnew : key ∉ read.map Prod.fst) :
    ReadsBack (valueField inner key read) (':' :: v.text) (read ++ [(key, v)]) := by
  intro rest hrest
  rw [List.cons_append, valueField, colon_cons, ok_bind, h rest hrest, ok_bind,
    ← Fields.insert_of_not_mem hnew]

/-- Fields with new keys are read back in their order. -/
theorem fieldsReadBack_valueField {inner : Reader Json} {fields : List (String × Json)}
    (h : ∀ field ∈ fields, ReadsBack inner field.2.text field.2) (read : List (String × Json))
    (hkeys : ((read ++ fields).map Prod.fst).Nodup) :
    FieldsReadBack (valueField inner) read fields (read ++ fields) := by
  induction fields generalizing read with
  | nil =>
      rw [List.append_nil]
      exact .nil
  | cons field fields ih =>
      obtain ⟨key, v⟩ := field
      have hnew : key ∉ read.map Prod.fst := by
        rw [List.map_append, List.map_cons, List.nodup_middle, List.nodup_cons] at hkeys
        exact fun hmem => hkeys.1 (List.mem_append_left _ hmem)
      have happend : read ++ (key, v) :: fields = read ++ [(key, v)] ++ fields := by simp
      rw [happend] at hkeys ⊢
      exact .cons (readsBack_valueField (h _ List.mem_cons_self) hnew)
        (ih (fun other hother => h other (List.mem_cons_of_mem _ hother)) _ hkeys)

/-- A value that starts with no bracket is a scalar. -/
theorem valueAround_of_skipSpace {fuel : Nat} {inner : Option (Reader Json)} {cs rest : List Char}
    {c : Char} (h : skipSpace cs = c :: rest) (harray : c ≠ '[') (hobject : c ≠ '{') :
    valueAround fuel inner cs = scalar (c :: rest) := by
  simp [valueAround, h, harray, hobject]

/-- A value without brackets is read back, unless it is a floating-point number. -/
theorem readsBack_of_isScalar {fuel : Nat} {inner : Option (Reader Json)} {v : Json}
    (hscalar : v.IsScalar) (hfloat : v.FloatFree) :
    ReadsBack (valueAround fuel inner) v.text v := by
  intro rest hrest
  cases v with
  | null => rfl
  | bool value => cases value <;> rfl
  | string s =>
      rw [Json.text, stringText_append,
        valueAround_of_skipSpace (skipSpace_cons rfl _) (by decide) (by decide), scalar,
        quoted_inside, ok_bind]
  | number n =>
      cases n with
      | integer value fits =>
          have hread := readsBack_integerText fits rest hrest
          obtain ⟨c, cs, htext, hc⟩ := exists_cons_of_numeral (Number.numeral_integerText value)
          -- A numeral starts with none of the characters that lead elsewhere.
          have hne : ∀ d : Char, ¬(d.isDigit = true ∨ d = '-') → c ≠ d := by
            rintro d hd rfl
            exact hd hc
          have hspace := skipSpace_text (.number (.integer value fits)) rest
          rw [Json.text, Number.text, htext, List.cons_append] at hspace ⊢
          rw [htext] at hread
          rw [valueAround_of_skipSpace hspace (hne '[' (by decide)) (hne '{' (by decide))]
          exact hread
      | float x => exact absurd .self (hfloat x)
  | array items => cases hscalar
  | object fields => cases hscalar

/-- A value is read back if it has no floating-point number, no key twice and no more brackets
than may be opened. -/
theorem readsBack_value (fuel depth : Nat) {v : Json} (hfloat : v.FloatFree)
    (hkeys : v.DistinctKeys) (hdepth : v.depth ≤ depth) (hfuel : v.text.length ≤ fuel) :
    ReadsBack (value fuel depth) v.text v := by
  -- With no bracket left to open, the value can only be a scalar.
  induction depth generalizing v with
  | zero =>
      cases v with
      | array items => simp [Json.depth] at hdepth
      | object fields => simp [Json.depth] at hdepth
      | _ => exact readsBack_of_isScalar trivial hfloat
  | succ depth ih =>
      cases v with
      | array items =>
          intro rest _
          rw [floatFree_array] at hfloat
          rw [distinctKeys_array] at hkeys
          rw [depth_array_le_iff] at hdepth
          obtain ⟨hlength, htext⟩ := length_text_array items
          -- one bracket is open around the items, which leaves one less for them
          have hread : ∀ item ∈ items, ReadsBack (value fuel depth) item.text item := by
            intro item hitem
            have hshort := htext item hitem
            exact ih (hfloat item hitem) (hkeys item hitem) (hdepth item hitem) (by omega)
          have hitems : Reader.items fuel (value fuel depth) (itemsText (items.map id) ++ rest) =
              .ok (items, rest) := items_itemsText hread (by omega) rest
          rw [List.map_id] at hitems
          rw [text_array, List.cons_append, value, valueAround, skipSpace_cons rfl]
          simp only [hitems, ok_bind]
      | object fields =>
          intro rest _
          rw [floatFree_object] at hfloat
          rw [distinctKeys_object] at hkeys
          rw [depth_object_le_iff] at hdepth
          obtain ⟨hlength, htext⟩ := length_text_object fields
          have hread : ∀ field ∈ fields, ReadsBack (value fuel depth) field.2.text field.2 := by
            intro field hfield
            have hshort := htext field hfield
            exact ih (hfloat field hfield) (hkeys.2 field hfield) (hdepth field hfield) (by omega)
          have hfields : Reader.fields fuel (valueField (value fuel depth)) []
              (fieldsText fields ++ rest) = .ok (fields, rest) :=
            fields_fieldsText (fieldsReadBack_valueField hread [] hkeys.1) (by omega) rest
          rw [text_object, List.cons_append, value, valueAround, skipSpace_cons rfl]
          simp only [hfields, ok_bind]
      | _ => exact readsBack_of_isScalar trivial hfloat

end Reader

/-- The values that the compact text stands for: they have no floating-point numbers, no object with
a key twice, and no more brackets open at a time than the reader may open. -/
structure Portable (v : Json) : Prop where
  floatFree : v.FloatFree
  distinctKeys : v.DistinctKeys
  depth_lt : v.depth < 128

/-- Such a value is read from its compact text. -/
theorem Portable.parse_compact {v : Json} (h : v.Portable) : parse v.compact = .ok v :=
  Reader.ReadsBack.run
    (Reader.readsBack_value _ _ h.floatFree h.distinctKeys (Nat.le_of_lt_succ h.depth_lt)
      (Nat.le_refl _))

/-- Reads a text that is one JSON value, however many of its brackets are open at a time. -/
def parseDeep (s : String) : Except ReadError Json :=
  Reader.run (fun fuel => Reader.value fuel fuel) s

/-- Without a limit on brackets, only floating-point numbers and repeated keys stand in the way. -/
theorem parseDeep_compact {v : Json} (hfloat : v.FloatFree) (hkeys : v.DistinctKeys) :
    parseDeep v.compact = .ok v :=
  Reader.ReadsBack.run
    (Reader.readsBack_value _ _ hfloat hkeys
      (Reader.depth_le_of_length_text_le _ (Nat.le_refl _)) (Nat.le_refl _))

end TestFlow.Json
