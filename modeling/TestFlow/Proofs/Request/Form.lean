import TestFlow.Proofs.Firsts
import TestFlow.Proofs.Request.KeyValues
import TestFlow.Proofs.Request.ReadBack
import TestFlow.Proofs.Text.Basic

/-!
# Forms

The fields of a form come in as form text and go out as an object.

On the way in, the text is divided at its ampersands and each segment at its first equals sign.  A
blank segment holds no field.  No segment of written fields is blank, since each has an equals sign,
so fields are read back from their text as they are, unless a key has one of the two signs or blanks
around it, or a value has an ampersand.  A bracket at the start would make the text look like JSON.

On the way out, the fields are put into an object one after the other, so a key that comes again
keeps its first place and takes its last value.  The object is written on one line and read back.

Reference: specification, §3.2 (a `form` string body) and §4.3 (`And form fields requestBody`).

## Main definitions

* `Body.formText`, `Body.HoldsField` — fields as form text, and the field that a segment holds;
* `Fields.Merges` — an object has the keys by their first places and their last values.

## Main statements

* `form_text_is_read_back` — form text gives the fields it was written from, and one field for each
  segment that is not blank;
* `form_object_is_read_back` — the object of a form has its fields, the last value of each key.
-/

namespace TestFlow

/-! ## Names of encodings -/

/-- A name stands for an encoding, blanks around it and the case of ASCII letters aside. -/
def Encoding.IsNamed (encoding : Encoding) (name : String) : Prop :=
  String.ofList ((Text.trim name.toList).map Char.toLower) ∈ encoding.names

/-- No two encodings share a name, so the name tells the encoding. -/
theorem Encoding.ofName?_of_isNamed {encoding : Encoding} {name : String}
    (h : encoding.IsNamed name) : Encoding.ofName? name = some encoding := by
  have hnames : ∀ spelling ∈ encoding.names,
      (all.find? fun other => other.names.contains spelling) = some encoding := by
    cases encoding <;> decide
  exact hnames _ h

namespace Body

/-! ## Form text -/

/-- The text of a field. -/
def fieldText (field : KeyValue) : String :=
  field.key ++ "=" ++ field.value

def formText (fields : List KeyValue) : String :=
  "&".intercalate (fields.map fieldText)

/-- A field that form text can hold. -/
structure FitsForm (field : KeyValue) : Prop where
  trimmed : Text.trimmed field.key = field.key
  equals_not_mem : '=' ∉ field.key.toList
  ampersand_not_mem_key : '&' ∉ field.key.toList
  ampersand_not_mem_value : '&' ∉ field.value.toList

instance (field : KeyValue) : Decidable (FitsForm field) :=
  decidable_of_iff
    (Text.trimmed field.key = field.key ∧ '=' ∉ field.key.toList ∧ '&' ∉ field.key.toList ∧
      '&' ∉ field.value.toList)
    ⟨fun ⟨h, hequals, hkey, hvalue⟩ => ⟨h, hequals, hkey, hvalue⟩,
      fun ⟨h, hequals, hkey, hvalue⟩ => ⟨h, hequals, hkey, hvalue⟩⟩

/-- The field that a segment of form text holds: the key ends at the first equals sign, and without
one the whole segment is the key. -/
inductive HoldsField : List Char → KeyValue → Prop
  | pair {key : List Char} (hkey : '=' ∉ key) (value : List Char) :
      HoldsField (key ++ '=' :: value) ⟨String.ofList (Text.trim key), String.ofList value⟩
  | bare {segment : List Char} (hsegment : '=' ∉ segment) :
      HoldsField segment ⟨String.ofList (Text.trim segment), ""⟩

/-- A segment with an equals sign is divided at the first one. -/
theorem formField_pair {key : List Char} (hkey : '=' ∉ key) (value : List Char) :
    formField (key ++ '=' :: value) =
      ⟨String.ofList (Text.trim key), String.ofList value⟩ := by
  rw [formField, Text.splitFirst?_append hkey]

/-- Every segment holds the field that is read from it. -/
theorem holdsField_formField (segment : List Char) : HoldsField segment (formField segment) := by
  by_cases hmem : '=' ∈ segment
  · obtain ⟨key, value, rfl, hkey⟩ := List.eq_append_cons_of_mem hmem
    rw [formField_pair hkey]
    exact .pair hkey value
  · rw [formField, Text.splitFirst?_of_not_mem hmem]
    exact .bare hmem

theorem toList_fieldText (field : KeyValue) :
    (fieldText field).toList = field.key.toList ++ '=' :: field.value.toList := by
  simp [fieldText]

/-- A field that form text can hold is read back from its text. -/
theorem FitsForm.formField_fieldText {field : KeyValue} (h : FitsForm field) :
    formField (fieldText field).toList = field := by
  have hkey : String.ofList (Text.trim field.key.toList) = field.key := h.trimmed
  rw [toList_fieldText, formField_pair h.equals_not_mem, hkey, String.ofList_toList]

/-- The text of such a field is not divided any further. -/
theorem FitsForm.ampersand_not_mem {field : KeyValue} (h : FitsForm field) :
    '&' ∉ (fieldText field).toList := by
  rw [toList_fieldText, List.mem_append, List.mem_cons, not_or, not_or]
  exact ⟨h.ampersand_not_mem_key, by decide, h.ampersand_not_mem_value⟩

/-- The equals sign keeps the text of a field from being blank. -/
theorem all_isBlankChar_fieldText (field : KeyValue) :
    (fieldText field).toList.all Text.isBlankChar = false := by
  rw [List.all_eq_false]
  exact ⟨'=', by simp [toList_fieldText], by decide⟩

/-- Form text is divided into the texts of its fields. -/
theorem divides_formText {fields : List KeyValue} (hne : fields ≠ [])
    (h : ∀ field ∈ fields, FitsForm field) :
    Text.Divides '&' (formText fields).toList
      (fields.map fun field => (fieldText field).toList) := by
  refine ⟨by simpa using hne, ?_, ?_⟩
  · rw [List.forall_mem_map]
    exact fun field hfield => (h field hfield).ampersand_not_mem
  · rw [formText, String.toList_intercalate, List.map_map]
    rfl

/-- Fields that form text can hold are read back from it. -/
theorem formFields_formText {fields : List KeyValue} (hne : fields ≠ [])
    (h : ∀ field ∈ fields, FitsForm field) : formFields (formText fields).toList = fields := by
  have hsegments := (divides_formText hne h).eq_segments
  -- no field is lost with the blank segments, because each has an equals sign
  have hkept : (fields.map fun field => (fieldText field).toList).filter
      (fun segment => !segment.all Text.isBlankChar) =
        fields.map fun field => (fieldText field).toList := by
    rw [List.filter_eq_self, List.forall_mem_map]
    intro field _
    rw [all_isBlankChar_fieldText]
    rfl
  calc formFields (formText fields).toList
    _ = fields.map fun field => formField (fieldText field).toList := by
        rw [formFields, ← hsegments, hkept, List.map_map]
        rfl
    _ = fields := by
        rw [List.map_congr_left fun field hfield => (h field hfield).formField_fieldText,
          List.map_id']

/-- The text of fields starts with the text of the first one. -/
theorem exists_formText_eq (first : KeyValue) (rest : List KeyValue) :
    ∃ behind, (formText (first :: rest)).toList =
      first.key.toList ++ '=' :: behind := by
  rw [formText, String.toList_intercalate, List.map_cons, List.map_cons, toList_fieldText]
  cases rest with
  | nil => exact ⟨first.value.toList, by simp⟩
  | cons next rest =>
      rw [List.map_cons, List.map_cons, List.intercalate_cons_cons, List.append_assoc,
        List.append_assoc, List.cons_append]
      exact ⟨_, rfl⟩

/-- A text does not look like JSON if its first character is neither blank nor a bracket. -/
theorem looksBracketed_cons {c : Char} (hblank : Text.isBlankChar c = false) (hbrace : c ≠ '{')
    (hbracket : c ≠ '[') (cs : List Char) : looksBracketed (c :: cs) = false := by
  have hstart : Text.trimStart (c :: cs) = c :: cs :=
    List.dropWhile_cons_of_neg (by rw [hblank]; exact Bool.false_ne_true)
  rw [looksBracketed, hstart]
  split
  · rename_i heq
    exact absurd (List.cons.inj heq).1 hbrace
  · rename_i heq
    exact absurd (List.cons.inj heq).1 hbracket
  · rfl

/-- Form text does not look like JSON, unless its first key starts with a bracket. -/
theorem looksBracketed_formText {first : KeyValue} (h : FitsForm first)
    (hfirst : ∀ c ∈ first.key.toList.head?, c ≠ '{' ∧ c ≠ '[') (rest : List KeyValue) :
    looksBracketed (formText (first :: rest)).toList = false := by
  obtain ⟨behind, hbehind⟩ := exists_formText_eq first rest
  rw [hbehind]
  cases hkey : first.key.toList with
  | nil => exact looksBracketed_cons (by decide) (by decide) (by decide) behind
  | cons c key =>
      -- the key has no blanks around it, so its first character is the first of the text
      have htrim : Text.trim first.key.toList = first.key.toList := by
        rw [← String.ofList_inj, String.ofList_toList]
        exact h.trimmed
      have hne : Text.trim first.key.toList ≠ [] := by
        rw [htrim, hkey]
        exact List.cons_ne_nil c key
      have htight := Text.isTight_trim hne
      rw [htrim, hkey] at htight
      rw [hkey] at hfirst
      obtain ⟨hbrace, hbracket⟩ := hfirst c rfl
      exact looksBracketed_cons (htight.first c rfl) hbrace hbracket _

/-- The text of at least one field is not blank. -/
theorem isAbsent_formText (first : KeyValue) (rest : List KeyValue) :
    (Json.string (formText (first :: rest))).isAbsent = false := by
  obtain ⟨behind, hbehind⟩ := exists_formText_eq first rest
  rw [Json.isAbsent, Text.isBlank, List.all_eq_false, hbehind]
  exact ⟨'=', by simp, by decide⟩

/-- Form text whose first key does not start with a bracket is read as the fields it was written
from, under every name of the encoding.  Any text at all gives one field for each of its segments
that is not blank, in their order. -/
theorem form_text_is_read_back :
    (∀ (fields : List KeyValue) (name : String), fields ≠ [] →
      (∀ field ∈ fields, FitsForm field) →
      (∀ first ∈ fields.head?, ∀ c ∈ first.key.toList.head?, c ≠ '{' ∧ c ≠ '[') →
      Encoding.form.IsNamed name →
        ofJson? (some (.string (formText fields))) (some name) = some (.ok (.form fields))) ∧
      ∀ s : String, ∃ segments, Text.Divides '&' s.toList segments ∧
        (∀ others, Text.Divides '&' s.toList others → others = segments) ∧
        List.Forall₂ HoldsField (segments.filter fun segment => !segment.all Text.isBlankChar)
          (formFields s.toList) := by
  constructor
  · intro fields name hne hfields hfirst hname
    obtain ⟨first, rest, rfl⟩ := List.exists_cons_of_ne_nil hne
    have hbrackets := looksBracketed_formText (hfields first List.mem_cons_self)
      (hfirst first rfl) rest
    have hencoding : Encoding.ofName? ((some name).getD "json") = some .form :=
      Encoding.ofName?_of_isNamed hname
    simp only [ofJson?, isAbsent_formText, hencoding, encoded, hbrackets,
      formFields_formText hne hfields, Bool.false_eq_true, if_false]
  · intro s
    refine ⟨_, Text.divides_segments '&' s.toList, fun others h => h.eq_segments, ?_⟩
    rw [formFields, List.forall₂_map_right_iff, List.forall₂_same]
    exact fun segment _ => holdsField_formField segment

example : formFields " & a = 1 &&b&=".toList = [⟨"a", " 1 "⟩, ⟨"b", ""⟩, ⟨"", ""⟩] := by
  decide +kernel

/-- Fields with an empty key, empty values, a key twice, and a value with the sign that ends a
key. -/
def untidyFields : List KeyValue :=
  [⟨"", "a=b "⟩, ⟨"k", ""⟩, ⟨"k", " x"⟩, ⟨"\x7b", "1"⟩]

/-- Such fields are read back, under a name of the encoding with blanks around it. -/
theorem untidyFields_are_read_back :
    formText untidyFields = "=a=b &k=&k= x&\x7b=1" ∧
      ofJson? (some (.string (formText untidyFields))) (some " URLencoded\n") =
        some (.ok (.form untidyFields)) := by
  have hfields : ∀ field ∈ untidyFields, FitsForm field := by decide +kernel
  have hfirst : ∀ first ∈ untidyFields.head?, ∀ c ∈ first.key.toList.head?, c ≠ '{' ∧ c ≠ '[' := by
    simp [untidyFields]
  have hname : Encoding.form.IsNamed " URLencoded\n" := by
    unfold Encoding.IsNamed
    decide +kernel
  exact ⟨by decide +kernel,
    form_text_is_read_back.1 untidyFields _ (List.cons_ne_nil _ _) hfields hfirst hname⟩

end Body

/-! ## Pairs put into an object -/

namespace Fields

variable {α β : Type}

/-- A pair is the last one with its key. -/
def IsLast (pairs : List (String × α)) (pair : String × α) : Prop :=
  ∃ before after, pairs = before ++ pair :: after ∧ pair.1 ∉ after.map Prod.fst

/-- The fields of an object that pairs were put into: the keys by their first places, each with its
last value. -/
structure Merges (pairs fields : List (String × α)) : Prop where
  keys : IsFirsts (pairs.map Prod.fst) (fields.map Prod.fst)
  values : ∀ field ∈ fields, IsLast pairs field

/-- The fields of an object that pairs are put into. -/
def merged (pairs : List (String × α)) : List (String × α) :=
  pairs.foldl (fun fields pair => insert pair.1 pair.2 fields) []

/-- The last pair is put in last. -/
theorem merged_concat (pairs : List (String × α)) (pair : String × α) :
    merged (pairs ++ [pair]) = insert pair.1 pair.2 (merged pairs) := by
  rw [merged, List.foldl_append]
  rfl

/-- A key that is there keeps its place. -/
theorem keys_insert_of_mem {key : String} {fields : List (String × α)}
    (h : key ∈ fields.map Prod.fst) (value : α) :
    (insert key value fields).map Prod.fst = fields.map Prod.fst := by
  induction fields with
  | nil => cases h
  | cons field fields ih =>
      rw [insert]
      by_cases hkey : field.1 = key
      · rw [if_pos hkey, List.map_cons, List.map_cons, hkey]
      · rw [List.map_cons, List.mem_cons, or_iff_right (Ne.symm hkey)] at h
        rw [if_neg hkey, List.map_cons, List.map_cons, ih h]

/-- The keys stand by their first places, each of them once. -/
theorem keys_merged (pairs : List (String × α)) :
    (merged pairs).map Prod.fst = (pairs.map Prod.fst).eraseDups := by
  induction pairs using List.reverseRecOn with
  | nil => rfl
  | append_singleton pairs pair ih =>
      have hmem : pair.1 ∈ (merged pairs).map Prod.fst ↔ pair.1 ∈ pairs.map Prod.fst := by
        rw [ih, List.mem_eraseDups]
      rw [merged_concat, List.map_append, List.map_singleton, eraseDups_concat]
      -- a key that comes again is neither a new first place nor a new field
      by_cases h : pair.1 ∈ pairs.map Prod.fst
      · rw [if_pos h, keys_insert_of_mem (hmem.mpr h), ih]
      · rw [if_neg h, insert_of_not_mem (hmem.not.mpr h), List.map_append, List.map_singleton, ih]

/-- A field behind an insertion is the one put in, or one with another key that was there. -/
theorem mem_insert {key : String} {value : α} {fields : List (String × α)} {field : String × α}
    (hnodup : (fields.map Prod.fst).Nodup) (h : field ∈ insert key value fields) :
    field = (key, value) ∨ field ∈ fields ∧ field.1 ≠ key := by
  induction fields with
  | nil => exact .inl (List.mem_singleton.mp h)
  | cons other fields ih =>
      obtain ⟨hother, hnodup⟩ := List.nodup_cons.mp hnodup
      rw [insert] at h
      by_cases hkey : other.1 = key
      · rw [if_pos hkey, List.mem_cons] at h
        refine h.imp_right fun hfield => ⟨List.mem_cons_of_mem _ hfield, ?_⟩
        rintro rfl
        exact hother (hkey ▸ List.mem_map_of_mem hfield)
      · rw [if_neg hkey, List.mem_cons] at h
        rcases h with rfl | hfield
        · exact .inr ⟨List.mem_cons_self, hkey⟩
        · exact (ih hnodup hfield).imp_right (And.imp_left (List.mem_cons_of_mem other))

/-- Putting pairs in one after the other gives each key its first place and its last value. -/
theorem merges_merged (pairs : List (String × α)) : Merges pairs (merged pairs) := by
  have hkeys : ∀ pairs : List (String × α),
      IsFirsts (pairs.map Prod.fst) ((merged pairs).map Prod.fst) := by
    intro pairs
    rw [keys_merged]
    exact isFirsts_eraseDups _
  refine ⟨hkeys pairs, ?_⟩
  -- from the end: the last pair is the last one with its key, and it touches no other key
  induction pairs using List.reverseRecOn with
  | nil => exact List.forall_mem_nil _
  | append_singleton pairs pair ih =>
      intro field hfield
      rw [merged_concat] at hfield
      rcases mem_insert (hkeys pairs).nodup hfield with rfl | ⟨hmem, hne⟩
      · exact ⟨pairs, [], rfl, List.not_mem_nil⟩
      · obtain ⟨before, after, rfl, hafter⟩ := ih field hmem
        refine ⟨before, after ++ [pair], by simp, ?_⟩
        simpa [hne] using hafter

/-- What is done to all values can be done before the new value is put in, or after. -/
theorem insert_map (f : α → β) (key : String) (value : α) (fields : List (String × α)) :
    insert key (f value) (fields.map (Prod.map id f)) =
      (insert key value fields).map (Prod.map id f) := by
  induction fields with
  | nil => rfl
  | cons field fields ih =>
      obtain ⟨other, v⟩ := field
      simp only [insert, List.map_cons, Prod.map_apply, id_eq, ih]
      split <;> rfl

/-- What is done to all values can be done before the pairs are put in, or after. -/
theorem merged_map (f : α → β) (pairs : List (String × α)) :
    merged (pairs.map (Prod.map id f)) = (merged pairs).map (Prod.map id f) := by
  induction pairs using List.reverseRecOn with
  | nil => rfl
  | append_singleton pairs pair ih =>
      rw [List.map_append, List.map_singleton, merged_concat, merged_concat, ih, Prod.map_fst,
        Prod.map_snd, id_eq, insert_map]

end Fields

namespace Script

/-- The object of a form has the merged fields. -/
theorem objectOf_eq (pairs : List (String × String)) :
    objectOf pairs = .object ((Fields.merged pairs).map (Prod.map id Json.string)) := by
  rw [← Fields.merged_map, Fields.merged, List.foldl_map]
  rfl

/-- The object of a form can be written and read back: it has texts only, and no key twice. -/
theorem portable_objectOf (pairs : List (String × String)) : (objectOf pairs).Portable := by
  have hnodup := (Fields.merges_merged pairs).keys.nodup
  have hdepth :
      (Json.object ((Fields.merged pairs).map (Prod.map id Json.string))).depth ≤ 0 + 1 := by
    rw [Json.depth_object_le_iff, List.forall_mem_map]
    exact fun field _ => Nat.le_refl 0
  rw [objectOf_eq]
  refine KeyValues.portable_fields ?_ ?_ (Nat.lt_of_le_of_lt hdepth (by decide))
  · rwa [List.map_map]
  · rw [List.forall_mem_map]
    exact fun field _ => ⟨Json.floatFree_string _, Json.distinctKeys_string _⟩

/-- A text is read as the object that pairs of texts were put into. -/
def ReadsAsPairs (text : String) (pairs : List (String × String)) : Prop :=
  ∃ fields, Json.parse text = .ok (.object (fields.map fun field => (field.1, .string field.2))) ∧
    Fields.Merges pairs fields

/-- The text of the object is read as the object that the pairs were put into. -/
theorem readsAsPairs_objectOf (pairs : List (String × String)) :
    ReadsAsPairs (objectOf pairs).compact pairs := by
  refine ⟨Fields.merged pairs, ?_, Fields.merges_merged pairs⟩
  rw [(portable_objectOf pairs).parse_compact, objectOf_eq]
  rfl

end Script

/-! ## Forms in the steps of a request -/

namespace Request

open Script

/-- A form is defined as an object and attached as a form. -/
theorem attachedBody_of_form {subject : String} {method : Method} {request : Request}
    (hmethod : method ∈ [.post, .put, .patch]) {fields : List KeyValue}
    (hbody : request.body = some (.ok (.form fields))) :
    (attachedBody method request).map (Draft.step subject) =
      [.instruction .and ("def requestBody = " ++
          (objectOf (fields.map fun field => (field.key, field.value))).compact),
        .instruction .and "form fields requestBody"] := by
  rw [attachedBody, hbody]
  simp only [Method.allowsBody_eq_true_iff.mpr hmethod, if_true]
  rw [Draft.map_step_of_sound (sound_bodyDrafts _)]
  rfl

/-- Pairs of texts are read back from the text of their object, which has the keys by their first
places and the last value of each.  So a form that is sent is defined on one line, by the text of an
object with its fields, and then attached. -/
theorem form_object_is_read_back :
    (∀ pairs, ReadsAsPairs (objectOf pairs).compact pairs) ∧
      ∀ (subject : String) (method : Method) (request : Request) (fields : List KeyValue),
        request.url.isSome = true → method ∈ [.post, .put, .patch] →
        request.body = some (.ok (.form fields)) →
          ∃ text : String, Text.Unbroken text.toList ∧
            [.instruction .and ("def requestBody = " ++ text),
              .instruction .and "form fields requestBody"] <:+: request.steps subject method ∧
            ReadsAsPairs text (fields.map fun field => (field.key, field.value)) := by
  refine ⟨readsAsPairs_objectOf, ?_⟩
  intro subject method request fields hurl hmethod hbody
  obtain ⟨url, hurl⟩ := Option.isSome_iff_exists.mp hurl
  refine ⟨_, (isLiteral_compact _).unbroken, ?_, readsAsPairs_objectOf _⟩
  rw [steps_of_url subject hurl method, attachedBody_of_form hmethod hbody, ← List.append_assoc]
  exact ⟨_, _, rfl⟩

/-- A request with a form that has a key three times and a key with a quote and a control
character. -/
def repeatingForm : Request where
  url := some "u"
  headers := .ok []
  params := .ok []
  body := some (.ok (.form [⟨"k", "1"⟩, ⟨"\"\x01", ""⟩, ⟨"k", "2"⟩, ⟨"", "z"⟩, ⟨"k", "3\n"⟩]))

/-- The key that comes three times has its first place and its last value. -/
theorem repeatingForm_object_is_read_back :
    repeatingForm.steps "p" .put =
        [.instruction .given "url 'u'",
          .instruction .and
            "def requestBody = \x7b\"k\":\"3\\n\",\"\\\"\\u0001\":\"\",\"\":\"z\"\x7d",
          .instruction .and "form fields requestBody", .instruction .when "method PUT"] ∧
      ∃ text : String, Text.Unbroken text.toList ∧
        [.instruction .and ("def requestBody = " ++ text),
          .instruction .and "form fields requestBody"] <:+: repeatingForm.steps "p" .put ∧
        ReadsAsPairs text
          [("k", "1"), ("\"\x01", ""), ("k", "2"), ("", "z"), ("k", "3\n")] :=
  ⟨by decide +kernel,
    form_object_is_read_back.2 "p" .put repeatingForm _ rfl (by decide) rfl⟩

end Request

end TestFlow
