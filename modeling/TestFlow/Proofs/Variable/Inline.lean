import TestFlow.Component
import TestFlow.Proofs.Json.Decode

/-!
# Extractions inline and listed

The payload of an extraction lists its entries, or has the fields of a single entry itself.  An
entry is decoded by the same fields either way, among which the key of the list is not: so the
payload and a list with the payload as its only entry decode alike, except that an entry without any
value is kept in a list and left out of a payload.

A list that is not empty counts alone.  The fields beside it are decoded too and can spoil the
payload, but they leave no trace in what is decoded.

Reference: specification, §3.1 (`extractions`, or a single `variableName`/`jsonPath` pair).

## Main definitions

* `listing` — a payload that lists entries and has no other field;
* `HoldsInline` — the payloads with the fields of one entry and no list.

## Main statement

* `inline_extraction_stands_for_listed` — an entry decodes alike inline and as the only one listed.
-/

namespace TestFlow.Extraction

open Json (DecodeError Shape Slot)
open Json.Reader (ok_bind bind_eq_ok)

/-- A payload that lists entries and has no other field. -/
def listing (entries : List Json) : Json :=
  .object [("extractions", .array entries)]

/-- The payloads with the given fields and no list of entries: its place is taken by nothing, by
null or by a list that is empty. -/
inductive HoldsInline (fields : List (String × Json)) : Json → Prop
  | bare : HoldsInline fields (.object fields)
  | beside {before after : List (String × Json)} (hfields : fields = before ++ after) {list : Json}
      (hlist : list = .null ∨ list = .array []) :
      HoldsInline fields (.object (before ++ ("extractions", list) :: after))

theorem HoldsInline.exists_eq_object {fields : List (String × Json)} {payload : Json}
    (h : HoldsInline fields payload) : ∃ others, payload = .object others := by
  cases h <;> exact ⟨_, rfl⟩

/-- The key of the list names none of the fields of an entry. -/
theorem answersTo_extractions : ∀ slot ∈ shape.slots, slot.answersTo "extractions" = false := by
  simp [shape, Slot.of, Slot.answersTo]

/-- The entries of a payload with the given entry and no list. -/
def inlineEntries (entry : Extraction) : List Extraction :=
  if entry.isEmpty then [] else [entry]

/-- An entry is empty if it has neither name nor path nor default. -/
theorem isEmpty_iff {entry : Extraction} : entry.isEmpty = true ↔ entry = ⟨none, none, none⟩ := by
  obtain ⟨name, path, fallback⟩ := entry
  simp [isEmpty, and_assoc]

/-- Without listed entries, the fields of the payload are those of its only entry. -/
theorem decodeAll_of_no_list {fields : List (String × Json)}
    (h : decodeList (Fields.get? "extractions" fields) = .ok []) :
    decodeAll (.object fields) = (shape.decode (.object fields)).map inlineEntries := by
  rw [decodeAll, h, Shape.decode, ok_bind]
  cases Shape.fromFields shape.slots [] shape.empty fields with
  | error e => rfl
  | ok entry =>
      simp only [ok_bind, Except.map, inlineEntries]
      cases entry.isEmpty <;> rfl

/-- Such a payload lists no entry. -/
theorem decodeList_of_holdsInline {fields payload : List (String × Json)}
    (hkey : "extractions" ∉ fields.map Prod.fst) (h : HoldsInline fields (.object payload)) :
    decodeList (Fields.get? "extractions" payload) = .ok [] := by
  -- no field before the list has its key, so the list is the value that is found
  have hnone : ∀ others : List (String × Json), "extractions" ∉ others.map Prod.fst →
      others.lookup "extractions" = none := by
    intro others hothers
    rw [List.lookup_eq_none_iff]
    rintro ⟨key, v⟩ hmem
    have hne : "extractions" ≠ key := fun h => hothers (h ▸ List.mem_map_of_mem hmem)
    simpa using hne
  cases h with
  | bare => rw [Fields.get?, hnone fields hkey, decodeList]
  | @beside before after hfields list hlist =>
      rw [hfields, List.map_append, List.mem_append, not_or] at hkey
      have hget : Fields.get? "extractions" (before ++ ("extractions", list) :: after) =
          some list := by
        rw [Fields.get?, List.lookup_append, hnone before hkey.1]
        simp
      rw [hget]
      rcases hlist with rfl | rfl <;> rfl

/-- The place of the list makes no difference to the other fields. -/
theorem decode_of_holdsInline {fields : List (String × Json)} {payload : Json}
    (h : HoldsInline fields payload) : shape.decode payload = shape.decode (.object fields) := by
  cases h with
  | bare => rfl
  | beside hfields hlist =>
      rw [hfields]
      exact Shape.fromFields_unknown answersTo_extractions _ _ _ _ _

/-- A payload with the fields of one entry has that entry, if it has a value. -/
theorem decodeAll_of_holdsInline {fields : List (String × Json)} {payload : Json}
    (hkey : "extractions" ∉ fields.map Prod.fst) (h : HoldsInline fields payload) :
    decodeAll payload = (shape.decode (.object fields)).map inlineEntries := by
  rw [← decode_of_holdsInline h]
  obtain ⟨others, rfl⟩ := h.exists_eq_object
  exact decodeAll_of_no_list (decodeList_of_holdsInline hkey h)

/-- A list that is not empty decodes to one that is not. -/
theorem isEmpty_of_mapM_cons {entry : Json} {entries : List Json} {listed : List Extraction}
    (h : (entry :: entries).mapM shape.decode = .ok listed) : listed.isEmpty = false := by
  rw [List.mapM_cons, bind_eq_ok] at h
  obtain ⟨first, -, h⟩ := h
  obtain ⟨rest, -, h⟩ := bind_eq_ok.mp h
  cases h
  rfl

/-- A list that is not empty counts alone, if the fields beside it decode. -/
theorem decodeAll_of_list {fields : List (String × Json)} {entry : Json} {entries : List Json}
    (hlist : Fields.get? "extractions" fields = some (.array (entry :: entries))) :
    decodeAll (.object fields) = (do
      let listed ← (entry :: entries).mapM shape.decode
      (shape.decode (.object fields)).map fun _ => listed) := by
  have hlisted : decodeList (some (.array (entry :: entries))) =
      (entry :: entries).mapM shape.decode := rfl
  rw [decodeAll, hlist, hlisted, Shape.decode]
  cases hmap : (entry :: entries).mapM shape.decode with
  | error e => rfl
  | ok listed =>
      rw [ok_bind, ok_bind, isEmpty_of_mapM_cons hmap]
      cases Shape.fromFields shape.slots [] shape.empty fields <;> rfl

/-- A payload with nothing but a list decodes as the list. -/
theorem decodeAll_listing (entry : Json) (entries : List Json) :
    decodeAll (listing (entry :: entries)) = (entry :: entries).mapM shape.decode := by
  have hget : Fields.get? "extractions" [("extractions", Json.array (entry :: entries))] =
      some (.array (entry :: entries)) := by
    simp [Fields.get?]
  have hbeside : shape.decode (listing (entry :: entries)) = .ok shape.empty :=
    Shape.fromFields_unknown answersTo_extractions (.array (entry :: entries)) [] shape.empty [] []
  rw [listing] at hbeside ⊢
  rw [decodeAll_of_list hget, hbeside]
  cases (entry :: entries).mapM shape.decode <;> rfl

/-- A list of one entry decodes as this entry, be it empty or not. -/
theorem decodeAll_listing_single (entry : Json) :
    decodeAll (listing [entry]) = (shape.decode entry).map fun extraction => [extraction] := by
  rw [decodeAll_listing, List.mapM_cons, List.mapM_nil]
  cases shape.decode entry <;> rfl

/-- The component of a payload. -/
def decoded (payload : Json) : Except DecodeError Component :=
  Component.decode .extraction payload

theorem decoded_object (fields : List (String × Json)) :
    decoded (.object fields) = (decodeAll (.object fields)).map .extraction :=
  rfl

/-- The component of a payload with the fields of one entry has it, if it has a value. -/
theorem decoded_of_holdsInline {fields : List (String × Json)} {payload : Json}
    (hkey : "extractions" ∉ fields.map Prod.fst) (h : HoldsInline fields payload) :
    decoded payload =
      (shape.decode (.object fields)).map fun x => .extraction (inlineEntries x) := by
  have hall := decodeAll_of_holdsInline hkey h
  obtain ⟨others, rfl⟩ := h.exists_eq_object
  rw [decoded_object, hall]
  cases shape.decode (.object fields) <;> rfl

/-- The component of a list of one entry has it, be it empty or not. -/
theorem decoded_listing_single (entry : Json) :
    decoded (listing [entry]) = (shape.decode entry).map fun x => .extraction [x] := by
  rw [listing, decoded_object, ← listing, decodeAll_listing_single]
  cases shape.decode entry <;> rfl

/-- What is decoded beside a list that is not empty is what the list gives alone. -/
theorem decoded_listing_of_list {fields : List (String × Json)} {entry : Json}
    {entries : List Json}
    (hlist : Fields.get? "extractions" fields = some (.array (entry :: entries)))
    {component : Component} (h : decoded (.object fields) = .ok component) :
    decoded (listing (entry :: entries)) = .ok component := by
  rw [decoded_object, decodeAll_of_list hlist] at h
  rw [listing, decoded_object, ← listing, decodeAll_listing]
  cases hmap : (entry :: entries).mapM shape.decode with
  | error e =>
      rw [hmap] at h
      cases h
  | ok listed =>
      rw [hmap, ok_bind] at h
      cases hbeside : shape.decode (.object fields) with
      | error e =>
          rw [hbeside] at h
          cases h
      | ok inline =>
          rw [hbeside] at h
          exact h

/-! ## Main statement -/

/-- Fields with no list among them, and perhaps null or an empty list beside them, decode as the
list whose only entry has these fields: both fail, or the list gives one extraction, which the
payload gives too if it has a value.  With a list that is not empty, no field beside it makes a
difference to what is decoded. -/
theorem inline_extraction_stands_for_listed :
    (∀ fields payload, "extractions" ∉ fields.map Prod.fst → HoldsInline fields payload →
      ∀ entry ∈ [Json.object fields, payload],
        ((∃ e, decoded payload = .error e) ↔ ∃ e, decoded (listing [entry]) = .error e) ∧
        ∀ component, decoded (listing [entry]) = .ok component →
          ∃ x, component = .extraction [x] ∧
            (x ≠ ⟨none, none, none⟩ → decoded payload = .ok (.extraction [x])) ∧
            (x = ⟨none, none, none⟩ → decoded payload = .ok (.extraction []))) ∧
      ∀ fields entry entries, Fields.get? "extractions" fields = some (.array (entry :: entries)) →
        ∀ component, decoded (.object fields) = .ok component →
          decoded (listing (entry :: entries)) = .ok component := by
  refine ⟨?_, fun fields entry entries hlist component h => decoded_listing_of_list hlist h⟩
  intro fields payload hkey hinline entry hentry
  have hsame : shape.decode entry = shape.decode (.object fields) := by
    rcases List.mem_cons.mp hentry with rfl | hentry
    · rfl
    · rw [List.mem_singleton.mp hentry, decode_of_holdsInline hinline]
  rw [decoded_of_holdsInline hkey hinline, decoded_listing_single, hsame]
  -- both payloads hang on the same decoded entry, so its outcome is the only case to tell apart
  cases shape.decode (.object fields) with
  | error e => exact ⟨⟨fun _ => ⟨e, rfl⟩, fun _ => ⟨e, rfl⟩⟩, by rintro component ⟨⟩⟩
  | ok x =>
      refine ⟨⟨by rintro ⟨e, ⟨⟩⟩, by rintro ⟨e, ⟨⟩⟩⟩, ?_⟩
      rintro component ⟨⟩
      refine ⟨x, rfl, fun hne => ?_, fun hx => ?_⟩
      · have hempty : ¬x.isEmpty = true := fun h => hne (isEmpty_iff.mp h)
        simp only [Except.map, inlineEntries, if_neg hempty]
      · simp only [Except.map, inlineEntries, if_pos (isEmpty_iff.mpr hx)]

/-- An entry that names its path by the other name, with a blank name, a default of its own and a
field that is not known. -/
def untidyEntry : List (String × Json) :=
  [("variableName", .string " "), ("path", .bool true), ("note", .null),
    ("defaultValue", .array [])]

/-- An entry without any value. -/
def hollowEntry : List (String × Json) :=
  [("jsonPath", .null), ("defaultValue", .string "\t")]

/-- The entry with a value stands for itself inline, the one without is left out there, and both
are kept in a list. -/
theorem untidyEntries_stand_for_listed :
    decoded (.object (("extractions", .null) :: untidyEntry)) =
        .ok (.extraction [⟨none, some "true", some (.array [])⟩]) ∧
      decoded (.object (hollowEntry ++ [("extractions", .array [])])) = .ok (.extraction []) ∧
      decoded (listing [.object hollowEntry, .object untidyEntry]) =
        .ok (.extraction [⟨none, none, none⟩, ⟨none, some "true", some (.array [])⟩]) := by
  obtain ⟨hinline, hbeside⟩ := inline_extraction_stands_for_listed
  refine ⟨?_, ?_, ?_⟩
  · have hlisted : decoded (listing [.object untidyEntry]) =
        .ok (.extraction [⟨none, some "true", some (.array [])⟩]) := rfl
    have hholds : HoldsInline untidyEntry (.object ([] ++ ("extractions", .null) :: untidyEntry)) :=
      .beside (List.nil_append untidyEntry).symm (.inl rfl)
    obtain ⟨x, hx, hset, -⟩ :=
      (hinline untidyEntry _ (by decide) hholds _ List.mem_cons_self).2 _ hlisted
    cases hx
    exact hset (by simp)
  · have hlisted : decoded (listing [.object hollowEntry]) =
        .ok (.extraction [⟨none, none, none⟩]) := rfl
    have hholds : HoldsInline hollowEntry
        (.object (hollowEntry ++ ("extractions", .array []) :: [])) :=
      .beside (List.append_nil _).symm (.inr rfl)
    obtain ⟨x, hx, -, hunset⟩ :=
      (hinline hollowEntry _ (by decide) hholds _ List.mem_cons_self).2 _ hlisted
    cases hx
    exact hunset rfl
  · exact hbeside
      (untidyEntry ++ [("extractions", .array [.object hollowEntry, .object untidyEntry])])
      _ _ rfl _ rfl

end TestFlow.Extraction
