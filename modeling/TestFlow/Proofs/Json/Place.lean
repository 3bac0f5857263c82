import TestFlow.Proofs.Json.Decode

/-!
# One field of a payload

Payloads may differ in the value of a single field and in nothing else.  The value stands under one
of the names of the field in an object, or at its place in an array.

A field has a place of its own in the record if what is put there takes the place of what was there
before, and if no other field touches it.  Then all that the value of the field does to the record
is to fill this place: the payload decodes as it would with any other value that the field takes,
and the value is put in behind (`Shape.Places.decode_of_holds`).  A value that the field does not
take spoils the payload (`Shape.Places.decode_of_error`).

Reference: specification, §3.1 (payload fields).

## Main definitions

* `Shape.Holds` — the payloads that differ in the value of one field alone;
* `Shape.Places` — a field has a place of its own.
-/

namespace TestFlow.Json

open Reader (ok_bind)

variable {σ α : Type}

namespace Slot

/-- A field does not touch a place of the record. -/
def Leaves (fill : α → σ → σ) (slot : Slot σ) : Prop :=
  ∀ a v state, slot.put v (fill a state) = (slot.put v state).map (fill a)

/-- A field does not touch a place if what it puts in can be put in before or after the place is
filled. -/
@[simp] theorem leaves_of {β : Type} {name : String} {aliases : List String}
    {decode : Json → Except DecodeError β} {put : β → σ → σ} {fill : α → σ → σ}
    (h : ∀ a b state, put b (fill a state) = fill a (put b state)) :
    Leaves fill (.of name aliases decode put) :=
  fun a => put_of_map (h a)

@[simp] theorem name_of {name : String} {aliases : List String}
    {decode : Json → Except DecodeError α} {put : α → σ → σ} :
    (Slot.of name aliases decode put).name = name :=
  rfl

end Slot

namespace Shape

/-- The payloads that differ in the value of one field alone. -/
inductive Holds (shape : Shape σ) (slot : Slot σ) : (Json → Json) → Prop
  | field {key : String} (hkey : shape.slots.find? (fun slot => slot.answersTo key) = some slot)
      (before after : List (String × Json)) :
      Holds shape slot fun v => .object (before ++ (key, v) :: after)
  | item (front : List (Slot σ)) {behind : List (Slot σ)}
      (hslots : shape.slots = front ++ slot :: behind) (before : List Json)
      (hbefore : before.length = front.length) (after : List Json) :
      Holds shape slot fun v => .array (before ++ v :: after)

/-- A field has a place of its own in a record, which is filled with what its value decodes to. -/
structure Places (shape : Shape σ) (slot : Slot σ) (decode : Json → Except DecodeError α)
    (fill : α → σ → σ) : Prop where
  put_eq : ∀ v state, slot.put v state = (decode v).map fun a => fill a state
  fill_fill : ∀ a b state, fill a (fill b state) = fill a state
  names : (shape.slots.map Slot.name).Nodup
  leaves : ∀ other ∈ shape.slots, other.name ≠ slot.name → other.Leaves fill

/-- Items at the front of an array, one for each of some fields, spoil it whatever stands behind
them, or else hand a record on to what stands behind them. -/
theorem fromItems_append_cases {front : List (Slot σ)} {before : List Json}
    (hbefore : before.length = front.length) (state : σ) :
    (∃ e, ∀ behind after, fromItems (front ++ behind) state (before ++ after) = .error e) ∨
      ∃ state', ∀ behind after,
        fromItems (front ++ behind) state (before ++ after) = fromItems behind state' after := by
  induction front generalizing before state with
  | nil =>
      obtain rfl := List.length_eq_zero_iff.mp hbefore
      exact Or.inr ⟨state, fun _ _ => rfl⟩
  | cons slot front ih =>
      cases before with
      | nil => cases hbefore
      | cons item before =>
          simp only [List.cons_append, fromItems]
          cases slot.put item state with
          | error e => exact Or.inl ⟨e, fun _ _ => rfl⟩
          | ok state => exact ih (Nat.succ.inj hbefore) state

variable {shape : Shape σ} {slot : Slot σ} {decode : Json → Except DecodeError α}
  {fill : α → σ → σ} {v w : Json} {a b : α}

namespace Places

/-- A value that the field takes fills its place. -/
theorem put_of_ok (h : shape.Places slot decode fill) (hv : decode v = .ok a) (state : σ) :
    slot.put v state = .ok (fill a state) := by
  rw [h.put_eq, hv]
  rfl

/-- What is filled in last counts. -/
theorem map_fill_map_fill (h : shape.Places slot decode fill) (result : Except DecodeError σ)
    (a b : α) : (result.map (fill b)).map (fill a) = result.map (fill a) := by
  cases result with
  | error e => rfl
  | ok state => exact congrArg Except.ok (h.fill_fill a b state)

/-! ## Objects -/

/-- Behind the field, the fields of an object leave its place alone. -/
theorem fromFields_fill (h : shape.Places slot decode fill) {seen : List String}
    (hseen : slot.name ∈ seen) (a : α) (fields : List (String × Json)) (state : σ) :
    fromFields shape.slots seen (fill a state) fields =
      (fromFields shape.slots seen state fields).map (fill a) := by
  induction fields generalizing seen state with
  | nil => rfl
  | cons field fields ih =>
      obtain ⟨key, v⟩ := field
      rw [fromFields, fromFields]
      cases hother : shape.slots.find? fun slot => slot.answersTo key with
      | none => exact ih hseen state
      | some other =>
          by_cases hmem : other.name ∈ seen
          · simp only [if_pos hmem]
            rfl
          · have hname : other.name ≠ slot.name := fun heq => hmem (heq ▸ hseen)
            have hleaves := h.leaves other (List.mem_of_find?_eq_some hother) hname
            simp only [if_neg hmem, hleaves a v state]
            cases other.put v state with
            | error e => rfl
            | ok state => exact ih (List.mem_cons_of_mem _ hseen) state

/-- The value of a field in an object does nothing but fill the place of the field. -/
theorem fromFields_held (h : shape.Places slot decode fill) {key : String}
    (hkey : shape.slots.find? (fun slot => slot.answersTo key) = some slot) (hv : decode v = .ok a)
    (hw : decode w = .ok b) (seen : List String) (state : σ) (before after : List (String × Json)) :
    fromFields shape.slots seen state (before ++ (key, v) :: after) =
      (fromFields shape.slots seen state (before ++ (key, w) :: after)).map (fill a) := by
  obtain ⟨e, herror⟩ | ⟨seen, state, hrest⟩ := fromFields_append_cases shape.slots seen state before
  · rw [herror, herror]
    rfl
  · rw [hrest, hrest, fromFields, fromFields, hkey]
    -- If the field was there before, both objects have the same fault.  Otherwise its place is
    -- filled on both sides, and what comes behind leaves the place alone.
    by_cases hmem : slot.name ∈ seen
    · simp only [if_pos hmem]
      rfl
    · have hseen : slot.name ∈ slot.name :: seen := List.mem_cons_self
      simp only [if_neg hmem, h.put_of_ok hv, h.put_of_ok hw, ok_bind, h.fromFields_fill hseen,
        h.map_fill_map_fill]

/-- A value that the field does not take spoils the object, if nothing before it does. -/
theorem fromFields_error (h : shape.Places slot decode fill) {key : String}
    (hkey : shape.slots.find? (fun slot => slot.answersTo key) = some slot) {e : DecodeError}
    (hv : decode v = .error e) (seen : List String) (state : σ)
    (before after : List (String × Json)) :
    ∃ e, fromFields shape.slots seen state (before ++ (key, v) :: after) = .error e := by
  obtain ⟨e, herror⟩ | ⟨seen, state, hrest⟩ := fromFields_append_cases shape.slots seen state before
  · exact ⟨e, herror _⟩
  · rw [hrest, fromFields, hkey]
    by_cases hmem : slot.name ∈ seen
    · simp only [if_pos hmem]
      exact ⟨_, rfl⟩
    · simp only [if_neg hmem, h.put_eq, hv]
      exact ⟨_, rfl⟩

/-! ## Arrays -/

/-- Behind the field, the items of an array leave its place alone. -/
theorem fromItems_fill (h : shape.Places slot decode fill) (a : α) (slots : List (Slot σ))
    (hslots : ∀ other ∈ slots, other ∈ shape.slots ∧ other.name ≠ slot.name) (state : σ)
    (items : List Json) :
    fromItems slots (fill a state) items = (fromItems slots state items).map (fill a) := by
  induction slots generalizing state items with
  | nil => cases items <;> rfl
  | cons other slots ih =>
      cases items with
      | nil => rfl
      | cons item items =>
          obtain ⟨hmem, hname⟩ := hslots other List.mem_cons_self
          rw [fromItems, fromItems, h.leaves other hmem hname a item state]
          cases other.put item state with
          | error e => rfl
          | ok state =>
              exact ih (fun other hother =>
                hslots other (List.mem_cons_of_mem _ hother)) state items

/-- The same holds of the item for the field in an array. -/
theorem fromItems_held (h : shape.Places slot decode fill) {behind : List (Slot σ)}
    (hbehind : ∀ other ∈ behind, other ∈ shape.slots ∧ other.name ≠ slot.name)
    (hv : decode v = .ok a) (hw : decode w = .ok b) (front : List (Slot σ))
    (before after : List Json) (hbefore : before.length = front.length) (state : σ) :
    fromItems (front ++ slot :: behind) state (before ++ v :: after) =
      (fromItems (front ++ slot :: behind) state (before ++ w :: after)).map (fill a) := by
  obtain ⟨e, herror⟩ | ⟨state, hrest⟩ := fromItems_append_cases hbefore state
  · rw [herror, herror]
    rfl
  · simp only [hrest, fromItems, h.put_of_ok hv, h.put_of_ok hw, ok_bind,
      h.fromItems_fill _ behind hbehind, h.map_fill_map_fill]

/-- And so it does of an item that the field does not take. -/
theorem fromItems_error (h : shape.Places slot decode fill) {e : DecodeError}
    (hv : decode v = .error e) (front behind : List (Slot σ)) (before after : List Json)
    (hbefore : before.length = front.length) (state : σ) :
    ∃ e, fromItems (front ++ slot :: behind) state (before ++ v :: after) = .error e := by
  obtain ⟨e, herror⟩ | ⟨state, hrest⟩ := fromItems_append_cases hbefore state
  · exact ⟨e, herror _ _⟩
  · simp only [hrest, fromItems, h.put_eq, hv]
    exact ⟨_, rfl⟩

/-- The fields behind one that has a place of its own have other names. -/
theorem ne_of_mem_behind (h : shape.Places slot decode fill) {front behind : List (Slot σ)}
    (hslots : shape.slots = front ++ slot :: behind) :
    ∀ other ∈ behind, other ∈ shape.slots ∧ other.name ≠ slot.name := by
  intro other hother
  have hmem : other ∈ front ++ slot :: behind :=
    List.mem_append_right front (List.mem_cons_of_mem slot hother)
  have hnames := h.names
  rw [hslots, List.map_append, List.map_cons] at hnames
  have hslot := (List.nodup_cons.mp hnames.of_append_right).1
  exact ⟨hslots ▸ hmem, fun heq => hslot (heq ▸ List.mem_map_of_mem hother)⟩

/-! ## Payloads -/

/-- A payload decodes as it would with another value that the field takes, and what the value stands
for is filled in behind. -/
theorem decode_of_holds (h : shape.Places slot decode fill) {payload : Json → Json}
    (hpayload : shape.Holds slot payload) (hv : decode v = .ok a) (hw : decode w = .ok b) :
    shape.decode (payload v) = (shape.decode (payload w)).map (fill a) := by
  cases hpayload with
  | field hkey before after => exact h.fromFields_held hkey hv hw [] shape.empty before after
  | item front hslots before hbefore after =>
      have hitems := h.fromItems_held (h.ne_of_mem_behind hslots) hv hw front before after hbefore
        shape.empty
      rw [Shape.decode, Shape.decode, hslots, hitems]
      simp only [List.length_append, List.length_cons]
      cases fromItems _ shape.empty _ with
      | error e => rfl
      | ok state =>
          simp only [Except.map, ok_bind]
          split <;> rfl

/-- A value that the field does not take spoils the payload. -/
theorem decode_of_error (h : shape.Places slot decode fill) {payload : Json → Json}
    (hpayload : shape.Holds slot payload) {e : DecodeError} (hv : decode v = .error e) :
    ∃ e, shape.decode (payload v) = .error e := by
  cases hpayload with
  | field hkey before after => exact h.fromFields_error hkey hv [] shape.empty before after
  | item front hslots before hbefore after =>
      obtain ⟨e, he⟩ := h.fromItems_error hv front _ before after hbefore shape.empty
      rw [Shape.decode, hslots, he]
      exact ⟨e, rfl⟩

end Places

end Shape

end TestFlow.Json
