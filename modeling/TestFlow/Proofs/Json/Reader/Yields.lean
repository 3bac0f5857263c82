import TestFlow.Json.Reader.Record
import TestFlow.Proofs.Json.Shape

/-!
# What readers give

A reader *yields* a property if everything that it gives has the property, whatever the text.  The
loops hand such a property on from the readers inside them: to all items of an array, and along the
fields of an object from each state to the next.  A record is read field by field in both of its
written forms, so a property of the empty record that each field keeps is one of every record that
is read.

For values this gives the two things that writing them relies on: no object has a key twice, and no
more brackets are open at a time than the reader may open.

Reference: specification, §3 (the fields of nodes and connections) and §6 (input).

## Main definitions

* `Yields` — everything that a reader gives has a property;
* `Field.Keeps` — reading a field of a record keeps a property of the record.

## Main statements

* `yields_value` — a value that is read has distinct keys and not too many brackets;
* `yields_record` — a record that is read has every property that its fields keep.
-/

namespace TestFlow.Json.Reader

/-- Everything that a reader gives has the property. -/
def Yields {α : Type} (reader : Reader α) (p : α → Prop) : Prop :=
  ∀ cs a rest, reader cs = .ok (a, rest) → p a

/-- A computation that goes on with the result of another succeeds if both do. -/
theorem bind_eq_ok {ε α β : Type} {x : Except ε α} {f : α → Except ε β} {b : β} :
    (x >>= f) = .ok b ↔ ∃ a, x = .ok a ∧ f a = .ok b := by
  cases x with
  | error e =>
      constructor
      · rintro ⟨⟩
      · rintro ⟨a, ⟨⟩, -⟩
  | ok a =>
      constructor
      · intro h
        exact ⟨a, rfl, h⟩
      · rintro ⟨_, ⟨⟩, h⟩
        exact h

/-- What is read from a whole text has the property too. -/
theorem Yields.run {α : Type} {reader : Nat → Reader α} {p : α → Prop}
    (h : ∀ fuel, Yields (reader fuel) p) {s : String} {a : α} (hrun : run reader s = .ok a) :
    p a := by
  rw [Reader.run] at hrun
  cases hwhole : whole (reader s.toList.length) s.toList with
  | error fault =>
      rw [hwhole] at hrun
      cases hrun
  | ok a' =>
      rw [hwhole] at hrun
      cases hrun
      obtain ⟨⟨read, rest⟩, hread, hrest⟩ := bind_eq_ok.mp hwhole
      simp only at hrest
      split at hrest
      · cases hrest
        exact h _ _ _ _ hread
      · cases hrest

/-! ## Loops -/

/-- The loop over items hands a property of the items on to all of them. -/
theorem yields_itemsFrom {α : Type} {item : Reader α} {p : α → Prop} (hitem : Yields item p)
    (fuel : Nat) (first : Bool) {read : List α} (hread : ∀ a ∈ read, p a) :
    Yields (itemsFrom item fuel first read) (fun as => ∀ a ∈ as, p a) := by
  induction fuel generalizing first read with
  | zero =>
      intro cs as rest h
      rw [itemsFrom] at h
      cases h
  | succ fuel ih =>
      intro cs as rest h
      rw [itemsFrom, bind_eq_ok] at h
      obtain ⟨⟨more, cs'⟩, -, h⟩ := h
      -- At the closing bracket all has been read; otherwise the next item joins what has.
      cases more with
      | false =>
          obtain ⟨rfl, -⟩ : read.reverse = as ∧ _ := by simpa using h
          simpa using hread
      | true =>
          simp only [if_true] at h
          rw [bind_eq_ok] at h
          obtain ⟨⟨a, cs''⟩, ha, h⟩ := h
          exact ih false (List.forall_mem_cons.mpr ⟨hitem _ _ _ ha, hread⟩) _ _ _ h

theorem yields_items {α : Type} {item : Reader α} {p : α → Prop} (hitem : Yields item p)
    (fuel : Nat) : Yields (items fuel item) (fun as => ∀ a ∈ as, p a) :=
  yields_itemsFrom hitem (fuel + 1) true (List.forall_mem_nil p)

/-- The loop over fields hands a property on from state to state. -/
theorem yields_fieldsFrom {σ : Type} {field : String → σ → Reader σ} {p : σ → Prop}
    (hfield : ∀ key state, p state → Yields (field key state) p) (fuel : Nat) (first : Bool)
    {state : σ} (hstate : p state) : Yields (fieldsFrom field fuel first state) p := by
  induction fuel generalizing first state with
  | zero =>
      intro cs result rest h
      rw [fieldsFrom] at h
      cases h
  | succ fuel ih =>
      intro cs result rest h
      rw [fieldsFrom, bind_eq_ok] at h
      obtain ⟨⟨key, cs'⟩, -, h⟩ := h
      cases key with
      | none =>
          obtain ⟨rfl, -⟩ : state = result ∧ _ := by simpa using h
          exact hstate
      | some key =>
          simp only at h
          rw [bind_eq_ok] at h
          obtain ⟨⟨next, cs''⟩, hnext, h⟩ := h
          exact ih false (hfield key state hstate _ _ _ hnext) _ _ _ h

/-- So does an object. -/
theorem yields_fields {σ : Type} {field : String → σ → Reader σ} {p : σ → Prop}
    (hfield : ∀ key state, p state → Yields (field key state) p) (fuel : Nat) (state : σ)
    (hstate : p state) : Yields (fields fuel field state) p :=
  yields_fieldsFrom hfield (fuel + 1) true hstate

/-! ## Values -/

/-- What is read as a scalar has no brackets. -/
theorem isScalar_scalar : Yields scalar IsScalar := by
  intro cs v rest h
  unfold scalar at h
  -- The text has run out, or begins with a digit or with something that no value begins with; in
  -- all other cases one reader takes over.
  split at h
  case h_1 => cases h
  case h_7 =>
    split at h
    · obtain ⟨⟨n, cs'⟩, -, h⟩ := bind_eq_ok.mp h
      cases h
      trivial
    · cases h
  all_goals
    obtain ⟨_, -, h⟩ := bind_eq_ok.mp h
    cases h
    trivial

/-- The fields of an object: distinct keys, and the property of each value. -/
def FieldsHave (p : Json → Prop) (fields : List (String × Json)) : Prop :=
  (fields.map Prod.fst).Nodup ∧ ∀ field ∈ fields, p field.2

/-- A key that comes again does not come in twice, and the values keep their property. -/
theorem yields_valueField {inner : Reader Json} {p : Json → Prop} (hinner : Yields inner p)
    (key : String) {read : List (String × Json)} (hread : FieldsHave p read) :
    Yields (valueField inner key read) (FieldsHave p) := by
  intro cs fields rest h
  rw [valueField, bind_eq_ok] at h
  obtain ⟨cs', -, h⟩ := h
  obtain ⟨⟨v, cs''⟩, hv, h⟩ := bind_eq_ok.mp h
  obtain ⟨rfl, -⟩ : Fields.insert key v read = fields ∧ _ := by simpa using h
  exact ⟨Fields.nodup_keys_insert hread.1, Fields.forall_mem_insert (hinner _ _ _ hv) hread.2⟩

/-- A value that is read has distinct keys and no more brackets than may be opened. -/
theorem yields_value (fuel depth : Nat) :
    Yields (value fuel depth) (fun v => v.DistinctKeys ∧ v.depth ≤ depth) := by
  have hscalar : ∀ limit, Yields scalar (fun v => v.DistinctKeys ∧ v.depth ≤ limit) := by
    intro limit cs v rest h
    have hv := isScalar_scalar _ _ _ h
    refine ⟨hv.distinctKeys, ?_⟩
    rw [hv.depth_eq_zero]
    omega
  -- The induction is on the brackets that may be opened: those inside a bracket are one less.
  induction depth with
  | zero =>
      intro cs v rest h
      rw [value, valueAround] at h
      split at h
      · cases h
      · cases h
      · exact hscalar _ _ _ _ h
  | succ depth ih =>
      intro cs v rest h
      rw [value, valueAround] at h
      split at h
      · obtain ⟨⟨items, cs'⟩, hitems, h⟩ := bind_eq_ok.mp h
        obtain ⟨rfl, -⟩ : Json.array items = v ∧ _ := by simpa using h
        have hall := yields_items ih fuel _ _ _ hitems
        rw [distinctKeys_array, depth_array_le_iff]
        exact ⟨fun item hitem => (hall item hitem).1, fun item hitem => (hall item hitem).2⟩
      · obtain ⟨⟨fields, cs'⟩, hfields, h⟩ := bind_eq_ok.mp h
        obtain ⟨rfl, -⟩ : Json.object fields = v ∧ _ := by simpa using h
        have hall := yields_fields (fun key read hread => yields_valueField ih key hread) fuel
          [] ⟨List.nodup_nil, List.forall_mem_nil _⟩ _ _ _ hfields
        rw [distinctKeys_object, depth_object_le_iff]
        exact ⟨⟨hall.1, fun field hfield => (hall.2 field hfield).1⟩,
          fun field hfield => (hall.2 field hfield).2⟩
      · exact hscalar _ _ _ _ h

/-- A text that is one value gives no other values than these. -/
theorem distinctKeys_and_depth_of_parse {s : String} {v : Json} (h : parse s = .ok v) :
    v.DistinctKeys ∧ v.depth ≤ depthLimit :=
  Yields.run (fun fuel => yields_value fuel depthLimit) h

/-! ## Records -/

/-- A list hands a property of its items on to all of them. -/
theorem yields_sequence {α : Type} {item : Reader α} {p : α → Prop} (hitem : Yields item p)
    (fuel : Nat) : Yields (sequence fuel item) (fun as => ∀ a ∈ as, p a) := by
  intro cs as rest h
  unfold sequence at h
  split at h
  · exact yields_items hitem fuel _ _ _ h
  · cases h

/-- Reading a field keeps a property of the record. -/
def Field.Keeps {σ : Type} (field : Field σ) (p : σ → Prop) : Prop :=
  ∀ state, p state → Yields (field.read state) p

/-- A field keeps a property if putting in a value that was read does. -/
theorem Field.keeps_of {σ α : Type} {reader : Reader α} {q : α → Prop} (hreader : Yields reader q)
    {p : σ → Prop} {put : α → σ → σ} (hput : ∀ a state, q a → p state → p (put a state))
    (name : String) (required : Bool) : (Field.of name required reader put).Keeps p := by
  intro state hstate cs result rest h
  obtain ⟨⟨a, cs'⟩, ha, h⟩ := bind_eq_ok.mp h
  cases h
  exact hput a state (hreader _ _ _ ha) hstate

/-- Of a value that bears on nothing, nothing needs to be known. -/
theorem Field.keeps_of_put {σ α : Type} {reader : Reader α} {p : σ → Prop} {put : α → σ → σ}
    (hput : ∀ a state, p state → p (put a state)) (name : String) (required : Bool) :
    (Field.of name required reader put).Keeps p :=
  Field.keeps_of (fun _ _ _ _ => trivial) (fun a state (_ : True) => hput a state) name required

section Records

variable {σ : Type} {p : σ → Prop} {layout : Layout σ}

/-- Reading the fields of a record in their order keeps what each of them keeps. -/
theorem yields_positional {fields : List (Field σ)} (hfields : ∀ field ∈ fields, field.Keeps p)
    (count : Nat) {state : σ} (hstate : p state) :
    Yields (positional fields count state) (fun read => p read.1) := by
  induction fields generalizing count state with
  | nil =>
      intro cs read rest h
      obtain ⟨rfl, -⟩ : (state, count) = read ∧ _ := by simpa [positional] using h
      exact hstate
  | cons field fields ih =>
      rw [List.forall_mem_cons] at hfields
      intro cs read rest h
      rw [positional, bind_eq_ok] at h
      obtain ⟨⟨more, cs'⟩, -, h⟩ := h
      cases more with
      | false =>
          obtain ⟨rfl, -⟩ : (state, count) = read ∧ _ := by simpa using h
          exact hstate
      | true =>
          simp only [if_true] at h
          obtain ⟨⟨next, cs''⟩, hnext, h⟩ := bind_eq_ok.mp h
          exact ih hfields.2 (count + 1) (hfields.1 state hstate _ _ _ hnext) _ _ _ h

/-- So does reading them by their names. -/
theorem yields_keyed {fields : List (Field σ)} (hfields : ∀ field ∈ fields, field.Keeps p)
    (fuel : Nat) (key : String) (read : σ × List String) (hread : p read.1) :
    Yields (keyed fuel fields key read) (fun read => p read.1) := by
  intro cs result rest h
  unfold keyed at h
  split at h
  · obtain ⟨cs', -, h⟩ := bind_eq_ok.mp h
    obtain ⟨cs'', -, h⟩ := bind_eq_ok.mp h
    cases h
    exact hread
  · rename_i field hfound
    split at h
    · cases h
    · obtain ⟨cs', -, h⟩ := bind_eq_ok.mp h
      obtain ⟨⟨next, cs''⟩, hnext, h⟩ := bind_eq_ok.mp h
      cases h
      exact hfields field (List.mem_of_find?_eq_some hfound) read.1 hread _ _ _ hnext

/-- A record that is read has every property that the empty record has and its fields keep. -/
theorem yields_record (hempty : p layout.empty) (hfields : ∀ field ∈ layout.fields, field.Keeps p)
    (fuel : Nat) : Yields (record fuel layout) p := by
  intro cs result rest h
  unfold record at h
  split at h
  -- A record is written as an array or as an object, and in either form it may lack a required
  -- field, which ends the reading.
  · obtain ⟨⟨⟨state, count⟩, cs'⟩, hread, h⟩ := bind_eq_ok.mp h
    obtain ⟨cs'', -, h⟩ := bind_eq_ok.mp h
    split at h
    · cases h
      exact yields_positional hfields 0 hempty _ _ _ hread
    · cases h
  · obtain ⟨⟨⟨state, names⟩, cs'⟩, hread, h⟩ := bind_eq_ok.mp h
    have hstate :=
      yields_fields (yields_keyed hfields fuel) fuel (layout.empty, []) hempty _ _ _ hread
    simp only at h
    split at h
    · cases h
      exact hstate
    · cases h
  · cases h

end Records

end TestFlow.Json.Reader
