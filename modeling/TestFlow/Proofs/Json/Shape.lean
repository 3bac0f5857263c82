import TestFlow.Json.Basic
import Mathlib.Data.List.Nodup

/-!
# Shapes of JSON values

Three things decide whether a value can be written and read back: how deep its brackets go, whether
the keys of each of its objects are distinct, and whether it has a floating-point number, whose text
may stand for a neighbour of it.  Each is about all that stands inside the value, and goes over to
the items of an array and to the fields of an object.

Reference: specification, §3.2 (bodies and lists given as JSON text) and §6 (input).

## Main definitions

* `Inside` — a value stands somewhere inside another;
* `FloatFree`, `DistinctKeys` — what holds everywhere inside a value; the first can be decided;
* `depth` — the number of brackets that are open at a time.
-/

namespace TestFlow

namespace Json

/-- A value stands inside another: it is the other, or it stands inside one of its items or
fields. -/
inductive Inside (part : Json) : Json → Prop
  | self : Inside part part
  | item {items : List Json} {item : Json} (hitem : item ∈ items) (h : Inside part item) :
      Inside part (.array items)
  | field {fields : List (String × Json)} {field : String × Json} (hfield : field ∈ fields)
      (h : Inside part field.2) : Inside part (.object fields)

/-- No floating-point number stands inside a value. -/
def FloatFree (v : Json) : Prop :=
  ∀ x, ¬Inside (.number (.float x)) v

/-- No object inside a value has a key twice. -/
def DistinctKeys (v : Json) : Prop :=
  ∀ fields, Inside (.object fields) v → (fields.map Prod.fst).Nodup

mutual

/-- The number of brackets that are open at a time in the text of a value, at most. -/
def depth : Json → Nat
  | .array items => itemsDepth items + 1
  | .object fields => fieldsDepth fields + 1
  | _ => 0

def itemsDepth : List Json → Nat
  | [] => 0
  | item :: rest => max item.depth (itemsDepth rest)

def fieldsDepth : List (String × Json) → Nat
  | [] => 0
  | (_, value) :: rest => max value.depth (fieldsDepth rest)

end

/-! ## Arrays and objects -/

/-- What stands inside an array, other than the array, stands inside one of its items. -/
theorem inside_array_iff {part : Json} {items : List Json} (hne : part ≠ .array items) :
    Inside part (.array items) ↔ ∃ item ∈ items, Inside part item := by
  constructor
  · intro h
    cases h with
    | self => exact absurd rfl hne
    | item hitem h => exact ⟨_, hitem, h⟩
  · rintro ⟨item, hitem, h⟩
    exact .item hitem h

/-- What stands inside an object, other than the object, stands inside one of its fields. -/
theorem inside_object_iff {part : Json} {fields : List (String × Json)}
    (hne : part ≠ .object fields) :
    Inside part (.object fields) ↔ ∃ field ∈ fields, Inside part field.2 := by
  constructor
  · intro h
    cases h with
    | self => exact absurd rfl hne
    | field hfield h => exact ⟨_, hfield, h⟩
  · rintro ⟨field, hfield, h⟩
    exact .field hfield h

/-- An array is free of floating-point numbers exactly if its items are. -/
@[simp] theorem floatFree_array {items : List Json} :
    (array items).FloatFree ↔ ∀ item ∈ items, item.FloatFree := by
  have hinside : ∀ x, Inside (.number (.float x)) (.array items) ↔
      ∃ item ∈ items, Inside (.number (.float x)) item := fun x => inside_array_iff (by simp)
  simp only [FloatFree, hinside, not_exists, not_and]
  exact ⟨fun h item hitem x => h x item hitem, fun h x item hitem => h item hitem x⟩

/-- An object is free of floating-point numbers exactly if its fields are. -/
@[simp] theorem floatFree_object {fields : List (String × Json)} :
    (object fields).FloatFree ↔ ∀ field ∈ fields, field.2.FloatFree := by
  have hinside : ∀ x, Inside (.number (.float x)) (.object fields) ↔
      ∃ field ∈ fields, Inside (.number (.float x)) field.2 := fun x => inside_object_iff (by simp)
  simp only [FloatFree, hinside, not_exists, not_and]
  exact ⟨fun h field hfield x => h x field hfield, fun h x field hfield => h field hfield x⟩

/-- An array has no object with a key twice exactly if its items have none. -/
@[simp] theorem distinctKeys_array {items : List Json} :
    (array items).DistinctKeys ↔ ∀ item ∈ items, item.DistinctKeys := by
  have hinside : ∀ fields, Inside (.object fields) (.array items) ↔
      ∃ item ∈ items, Inside (.object fields) item := fun fields => inside_array_iff (by simp)
  simp only [DistinctKeys, hinside]
  constructor
  · intro h item hitem fields hfields
    exact h fields ⟨item, hitem, hfields⟩
  · rintro h fields ⟨item, hitem, hfields⟩
    exact h item hitem fields hfields

/-- An object is one of the objects inside it, so its own keys count too. -/
@[simp] theorem distinctKeys_object {fields : List (String × Json)} :
    (object fields).DistinctKeys ↔
      (fields.map Prod.fst).Nodup ∧ ∀ field ∈ fields, field.2.DistinctKeys := by
  constructor
  · intro h
    exact ⟨h fields .self, fun field hfield inner hinner => h inner (.field hfield hinner)⟩
  · rintro ⟨hnodup, hfields⟩ inner hinner
    cases hinner with
    -- the object may be the whole value, whose keys are the outer ones
    | self => exact hnodup
    | field hfield h => exact hfields _ hfield inner h

/-- Items stay within a limit together exactly if each of them does. -/
theorem itemsDepth_le_iff {items : List Json} {limit : Nat} :
    itemsDepth items ≤ limit ↔ ∀ item ∈ items, item.depth ≤ limit := by
  induction items with
  | nil => simp [itemsDepth]
  | cons item rest ih => rw [itemsDepth, Nat.max_le, ih, List.forall_mem_cons]

/-- Fields stay within a limit together exactly if each of them does. -/
theorem fieldsDepth_le_iff {fields : List (String × Json)} {limit : Nat} :
    fieldsDepth fields ≤ limit ↔ ∀ field ∈ fields, field.2.depth ≤ limit := by
  induction fields with
  | nil => simp [fieldsDepth]
  | cons field rest ih => rw [fieldsDepth, Nat.max_le, ih, List.forall_mem_cons]

/-- An array needs a bracket more than its items. -/
@[simp] theorem depth_array_le_iff {items : List Json} {limit : Nat} :
    (array items).depth ≤ limit + 1 ↔ ∀ item ∈ items, item.depth ≤ limit := by
  rw [depth, Nat.add_le_add_iff_right, itemsDepth_le_iff]

/-- An object needs a bracket more than its fields. -/
@[simp] theorem depth_object_le_iff {fields : List (String × Json)} {limit : Nat} :
    (object fields).depth ≤ limit + 1 ↔ ∀ field ∈ fields, field.2.depth ≤ limit := by
  rw [depth, Nat.add_le_add_iff_right, fieldsDepth_le_iff]

/-! ## Values without brackets -/

/-- A value without brackets. -/
def IsScalar : Json → Prop
  | .array _ => False
  | .object _ => False
  | _ => True

/-- Nothing stands inside a value without brackets but the value. -/
theorem IsScalar.eq_of_inside {part v : Json} (h : v.IsScalar) (hinside : Inside part v) :
    part = v := by
  cases hinside with
  | self => rfl
  | item => cases h
  | field => cases h

/-- A value without brackets opens none. -/
theorem IsScalar.depth_eq_zero {v : Json} (h : v.IsScalar) : v.depth = 0 := by
  cases v with
  | array items => cases h
  | object fields => cases h
  | _ => rfl

/-- A value without brackets has no object inside it, and so no key twice. -/
theorem IsScalar.distinctKeys {v : Json} (h : v.IsScalar) : v.DistinctKeys := by
  intro fields hinside
  rw [← h.eq_of_inside hinside] at h
  cases h

/-- Of the values without brackets, only the floating-point numbers are not free of them. -/
theorem IsScalar.floatFree {v : Json} (h : v.IsScalar) (hne : ∀ x, v ≠ .number (.float x)) :
    v.FloatFree := by
  intro x hinside
  exact hne x (h.eq_of_inside hinside).symm

@[simp] theorem floatFree_null : null.FloatFree :=
  IsScalar.floatFree trivial (by simp)

@[simp] theorem floatFree_bool (value : Bool) : (bool value).FloatFree :=
  IsScalar.floatFree trivial (by simp)

@[simp] theorem floatFree_string (s : String) : (string s).FloatFree :=
  IsScalar.floatFree trivial (by simp)

@[simp] theorem floatFree_integer (value : Int) (fits : FitsWord value) :
    (number (.integer value fits)).FloatFree :=
  IsScalar.floatFree trivial (by simp)

@[simp] theorem distinctKeys_null : null.DistinctKeys :=
  IsScalar.distinctKeys trivial

@[simp] theorem distinctKeys_number (n : Number) : (number n).DistinctKeys :=
  IsScalar.distinctKeys trivial

@[simp] theorem distinctKeys_string (s : String) : (string s).DistinctKeys :=
  IsScalar.distinctKeys trivial

/-! ## A search for floating-point numbers -/

mutual

/-- Looks for a floating-point number in a value.  The recursion is structural, through the items of
an array and the fields of an object, so that the search can be evaluated. -/
def decideFloatFree : (v : Json) → Decidable v.FloatFree
  | .null => .isTrue floatFree_null
  | .bool value => .isTrue (floatFree_bool value)
  | .number (.integer value fits) => .isTrue (floatFree_integer value fits)
  | .number (.float x) => .isFalse fun h => h x .self
  | .string s => .isTrue (floatFree_string s)
  | .array items => @decidable_of_iff' _ _ floatFree_array (decideItemsFloatFree items)
  | .object fields => @decidable_of_iff' _ _ floatFree_object (decideFieldsFloatFree fields)

def decideItemsFloatFree : (items : List Json) → Decidable (∀ item ∈ items, item.FloatFree)
  | [] => .isTrue (List.forall_mem_nil _)
  | item :: rest =>
      @decidable_of_iff' _ _ List.forall_mem_cons
        (@instDecidableAnd _ _ (decideFloatFree item) (decideItemsFloatFree rest))

def decideFieldsFloatFree :
    (fields : List (String × Json)) → Decidable (∀ field ∈ fields, field.2.FloatFree)
  | [] => .isTrue (List.forall_mem_nil _)
  | (_, value) :: rest =>
      @decidable_of_iff' _ _ List.forall_mem_cons
        (@instDecidableAnd _ _ (decideFloatFree value) (decideFieldsFloatFree rest))

end

instance (v : Json) : Decidable v.FloatFree :=
  decideFloatFree v

end Json

/-! ## Putting a value under a key -/

namespace Fields

variable {α : Type} {key : String} {value : α} {fields : List (String × α)}

/-- A new key goes to the end. -/
theorem insert_of_not_mem (h : key ∉ fields.map Prod.fst) :
    insert key value fields = fields ++ [(key, value)] := by
  induction fields with
  | nil => rfl
  | cons field fields ih =>
      rw [List.map_cons, List.mem_cons, not_or] at h
      rw [insert, if_neg (Ne.symm h.1), ih h.2, List.cons_append]

/-- The keys are those that were there and the new one. -/
theorem mem_keys_insert {k : String} :
    k ∈ (insert key value fields).map Prod.fst ↔ k = key ∨ k ∈ fields.map Prod.fst := by
  induction fields with
  | nil => simp [insert]
  | cons field fields ih =>
      rw [insert]
      by_cases hkey : field.1 = key
      · rw [if_pos hkey, List.map_cons, List.map_cons, List.mem_cons, List.mem_cons, hkey]
        exact ⟨fun h => h.imp_right Or.inr, fun h => h.elim Or.inl id⟩
      · rw [if_neg hkey, List.map_cons, List.map_cons, List.mem_cons, List.mem_cons, ih]
        exact or_left_comm

/-- No key comes in twice. -/
theorem nodup_keys_insert (h : (fields.map Prod.fst).Nodup) :
    ((insert key value fields).map Prod.fst).Nodup := by
  induction fields with
  | nil => simp [insert]
  | cons field fields ih =>
      rw [List.map_cons, List.nodup_cons] at h
      rw [insert]
      by_cases hkey : field.1 = key
      · rw [if_pos hkey, List.map_cons, List.nodup_cons, ← hkey]
        exact h
      -- the keys behind are the new key and those that were behind, and the first key is none of
      -- them
      · rw [if_neg hkey, List.map_cons, List.nodup_cons, mem_keys_insert, not_or]
        exact ⟨⟨hkey, h.1⟩, ih h.2⟩

/-- What holds of the values and of the new value holds of the values with the new one. -/
theorem forall_mem_insert {p : α → Prop} (hvalue : p value) (h : ∀ field ∈ fields, p field.2) :
    ∀ field ∈ insert key value fields, p field.2 := by
  induction fields with
  | nil => simpa [insert] using hvalue
  | cons field fields ih =>
      rw [List.forall_mem_cons] at h
      rw [insert]
      by_cases hkey : field.1 = key
      · rw [if_pos hkey, List.forall_mem_cons]
        exact ⟨hvalue, h.2⟩
      · rw [if_neg hkey, List.forall_mem_cons]
        exact ⟨h.1, ih h.2⟩

end Fields

end TestFlow
