import TestFlow.Json.Decode
import TestFlow.Proofs.Json.Reader.Scalars
import TestFlow.Proofs.Json.Reader.Yields
import TestFlow.Proofs.Text.Basic
import Mathlib.Data.List.Find
import Mathlib.Data.List.Nodup
import Mathlib.Data.List.Pairwise

/-!
# Laws of decoding records

A record is decoded by putting one field after the other into it.  What is to hold of the record
need only be kept by each field (`Shape.decode_keeps`), and a key that names no field changes
nothing (`Shape.fromFields_unknown`).

A field whose value is absent decodes without fail, and it leaves the record as it is as long as
nothing else was put into its place.  The fields of a record have places of their own, so what is
put into the others makes no difference: a field that has nothing to say about the empty record has
nothing to say about any record it is not yet in (`Slot.Idles.of_commutes`).  Hence absent fields
can be left out of an object that names no field twice (`Shape.Forgiving.fromFields_present`).

Reference: specification, §3.1 (payload fields) and §3.2 (normalization).

## Main definitions

* `Lenient` — a scalar takes null and blank text for nothing;
* `Slot.Commutes`, `Slot.Idles` — two fields have different places, and absent values leave a record
  alone;
* `Shape.OneName` — no two keys of an object name the same field;
* `Shape.Forgiving` — all fields take absent values, but for some that are strict.
-/

namespace TestFlow.Json

open Reader (ok_bind bind_eq_ok)

variable {σ α β : Type}

/-- A result that was mapped comes from a result. -/
theorem map_eq_ok {ε : Type} {x : Except ε α} {f : α → β} {b : β} :
    x.map f = .ok b ↔ ∃ a, x = .ok a ∧ f a = b := by
  cases x <;> simp [Except.map]

/-! ## Scalars -/

/-- The texts of truth values and numbers are not blank. -/
theorem not_isBlank_of_scalarText? {v : Json} {s : String} (hpresent : v.isAbsent = false)
    (h : v.scalarText? = some s) : Text.isBlank s = false := by
  cases v with
  | null => cases hpresent
  | bool b => cases b <;> cases h <;> decide
  | number n =>
      cases h
      -- A numeral begins with a digit or a minus sign, and neither is blank.
      rcases n.numeral_or_null_text with hnumeral | hnull
      · obtain ⟨c, rest, htext, hdigit | rfl⟩ := Reader.exists_cons_of_numeral hnumeral
        · rw [htext]
          exact Text.isBlank_ofList_cons (Text.isBlankChar_of_isDigit hdigit) rest
        · rw [htext]
          exact Text.isBlank_ofList_cons (by decide) rest
      · rw [hnull]
        decide
  | string s' =>
      cases h
      exact hpresent
  | array items => cases h
  | object fields => cases h

/-- A scalar that is decoded to nothing from null and blank text. -/
def Lenient (decode : Json → Except DecodeError (Option α)) : Prop :=
  ∀ v, v.isAbsent = true → decode v = .ok none

@[simp] theorem lenient_text : Lenient text? := fun _ h => if_pos h

@[simp] theorem lenient_natural : Lenient natural? := fun _ h => if_pos h

@[simp] theorem lenient_literal : Lenient literal? := fun _ h => if_pos h

@[simp] theorem lenient_document : Lenient document? := fun _ h => if_pos h

/-- A text that is present is not blank. -/
theorem not_isBlank_of_text? {v : Json} {a : Option String} (h : text? v = .ok a) :
    ∀ s ∈ a, Text.isBlank s = false := by
  rintro s rfl
  rw [text?] at h
  split at h
  · cases h
  · rename_i hpresent
    split at h
    · rename_i htext
      cases h
      exact not_isBlank_of_scalarText? (eq_false_of_ne_true hpresent) htext
    · cases h

/-- What holds of all that the items of a list can give holds of the members of the list. -/
theorem forall_mem_of_list {P : α → Prop} {item : Json → Except DecodeError α}
    (hitem : ∀ v a, item v = .ok a → P a) {v : Json} {as : List α} (h : list item v = .ok as) :
    ∀ a ∈ as, P a := by
  cases v with
  | array vs =>
      rw [list] at h
      induction vs generalizing as with
      | nil =>
          cases h
          exact List.forall_mem_nil _
      | cons v vs ih =>
          rw [List.mapM_cons, bind_eq_ok] at h
          obtain ⟨a, ha, h⟩ := h
          obtain ⟨rest, hrest, h⟩ := bind_eq_ok.mp h
          cases h
          exact List.forall_mem_cons.mpr ⟨hitem v a ha, ih hrest⟩
  | _ => cases h

/-! ## Fields of a record -/

namespace Slot

/-- The names that a field answers to. -/
def names (slot : Slot σ) : List String :=
  slot.name :: slot.aliases

@[simp] theorem names_of {name : String} {aliases : List String}
    {decode : Json → Except DecodeError α} {put : α → σ → σ} :
    (Slot.of name aliases decode put).names = name :: aliases :=
  rfl

theorem answersTo_iff {slot : Slot σ} {key : String} :
    slot.answersTo key = true ↔ key ∈ slot.names := by
  rw [answersTo, Bool.or_eq_true, beq_iff_eq, List.contains_iff_mem, names, List.mem_cons, eq_comm]

/-- A value is put into the record as what it decodes to. -/
theorem put_of_eq_ok {name : String} {aliases : List String} {decode : Json → Except DecodeError α}
    {put : α → σ → σ} {v : Json} {state after : σ} :
    (Slot.of name aliases decode put).put v state = .ok after ↔
      ∃ a, decode v = .ok a ∧ put a state = after :=
  map_eq_ok

/-- A map that goes with what is put in goes with the field. -/
theorem put_of_map {name : String} {aliases : List String} {decode : Json → Except DecodeError α}
    {put : α → σ → σ} {f : σ → σ} (h : ∀ a state, put a (f state) = f (put a state)) (v : Json)
    (state : σ) :
    (Slot.of name aliases decode put).put v (f state) =
      ((Slot.of name aliases decode put).put v state).map f := by
  change (decode v).map _ = ((decode v).map _).map f
  cases decode v with
  | error e => rfl
  | ok a => exact congrArg Except.ok (h a state)

/-- A field keeps what holds of a record. -/
def Keeps (P : σ → Prop) (slot : Slot σ) : Prop :=
  ∀ v state after, P state → slot.put v state = .ok after → P after

/-- A field keeps what is kept by all that its value decodes to. -/
theorem keeps_of {P : σ → Prop} {name : String} {aliases : List String}
    {decode : Json → Except DecodeError α} {put : α → σ → σ}
    (h : ∀ v a state, decode v = .ok a → P state → P (put a state)) :
    Keeps P (.of name aliases decode put) := by
  intro v state after hstate hput
  obtain ⟨a, ha, rfl⟩ := put_of_eq_ok.mp hput
  exact h v a state ha hstate

/-- Two fields have different places: when both can be put into a record, it does not matter which
comes first. -/
def Commutes (slot other : Slot σ) : Prop :=
  ∀ v w state left right, slot.put v state = .ok left → other.put w state = .ok right →
    ∃ both, slot.put v right = .ok both ∧ other.put w left = .ok both

instance : Std.Symm (Commutes : Slot σ → Slot σ → Prop) where
  symm slot other h := by
    intro w v state right left hright hleft
    obtain ⟨both, hslot, hother⟩ := h v w state left right hleft hright
    exact ⟨both, hother, hslot⟩

/-- Two fields have different places if what they put in can be put in in either order. -/
@[simp] theorem commutes_of {name name' : String} {aliases aliases' : List String}
    {decode : Json → Except DecodeError α} {decode' : Json → Except DecodeError β}
    {put : α → σ → σ} {put' : β → σ → σ}
    (h : ∀ a b state, put a (put' b state) = put' b (put a state)) :
    Commutes (.of name aliases decode put) (.of name' aliases' decode' put') := by
  intro v w state left right hleft hright
  obtain ⟨a, ha, rfl⟩ := put_of_eq_ok.mp hleft
  obtain ⟨b, hb, rfl⟩ := put_of_eq_ok.mp hright
  exact ⟨put a (put' b state), put_of_eq_ok.mpr ⟨a, ha, rfl⟩,
    put_of_eq_ok.mpr ⟨b, hb, (h a b state).symm⟩⟩

/-- A field leaves a record as it is where its value is absent. -/
def Idles (slot : Slot σ) (state : σ) : Prop :=
  ∀ v, v.isAbsent = true → slot.put v state = .ok state

/-- A field leaves a record alone where an absent value decodes to what is there already. -/
theorem idles_of {name : String} {aliases : List String} {decode : Json → Except DecodeError α}
    {put : α → σ → σ} {a : α} {state : σ} (hdecode : ∀ v, v.isAbsent = true → decode v = .ok a)
    (hput : put a state = state) : Idles (.of name aliases decode put) state := by
  intro v hv
  exact put_of_eq_ok.mpr ⟨a, hdecode v hv, hput⟩

/-- A lenient field leaves a record alone where it has nothing. -/
@[simp] theorem idles_of_lenient {name : String} {aliases : List String}
    {decode : Json → Except DecodeError (Option α)} {put : Option α → σ → σ} {state : σ}
    (hdecode : Lenient decode) (hput : put none state = state) :
    Idles (.of name aliases decode put) state :=
  idles_of hdecode hput

/-- What is put into other places does not matter. -/
theorem Idles.of_commutes {slot other : Slot σ} {state after : σ} (h : slot.Idles state)
    (hcommutes : Commutes slot other) {w : Json} (hput : other.put w state = .ok after) :
    slot.Idles after := by
  intro v hv
  obtain ⟨both, hslot, hother⟩ := hcommutes v w state state after (h v hv) hput
  rw [hput] at hother
  cases hother
  exact hslot

end Slot

namespace Shape

/-! ## What all fields keep -/

/-- What every field keeps holds along the fields of an object. -/
theorem fromFields_keeps {P : σ → Prop} {slots : List (Slot σ)}
    (hslots : ∀ slot ∈ slots, slot.Keeps P) {seen : List String} {fields : List (String × Json)}
    {state after : σ} (hstate : P state) (h : fromFields slots seen state fields = .ok after) :
    P after := by
  -- A key either names no field, or a field that was there before, which is a fault, or one that
  -- puts its value in.
  induction fields generalizing seen state with
  | nil =>
      cases h
      exact hstate
  | cons field fields ih =>
      obtain ⟨key, v⟩ := field
      rw [fromFields] at h
      cases hslot : slots.find? fun slot => slot.answersTo key with
      | none =>
          rw [hslot] at h
          exact ih hstate h
      | some slot =>
          rw [hslot] at h
          dsimp only at h
          split at h
          · cases h
          · obtain ⟨next, hnext, h⟩ := bind_eq_ok.mp h
            exact ih (hslots slot (List.mem_of_find?_eq_some hslot) v state next hstate hnext) h

/-- And along the items of an array. -/
theorem fromItems_keeps {P : σ → Prop} {slots : List (Slot σ)}
    (hslots : ∀ slot ∈ slots, slot.Keeps P) {items : List Json} {state after : σ}
    (hstate : P state) (h : fromItems slots state items = .ok after) : P after := by
  induction slots generalizing items state with
  | nil =>
      cases h
      exact hstate
  | cons slot slots ih =>
      obtain ⟨hslot, hslots⟩ := List.forall_mem_cons.mp hslots
      cases items with
      | nil =>
          cases h
          exact hstate
      | cons item items =>
          obtain ⟨next, hnext, h⟩ := bind_eq_ok.mp h
          exact ih hslots (hslot item state next hstate hnext) h

/-- What holds of the empty record and is kept by every field holds of every record decoded. -/
theorem decode_keeps {P : σ → Prop} {shape : Shape σ} (hempty : P shape.empty)
    (hslots : ∀ slot ∈ shape.slots, slot.Keeps P) {data : Json} {state : σ}
    (h : shape.decode data = .ok state) : P state := by
  cases data with
  | object fields => exact fromFields_keeps hslots hempty h
  | array items =>
      obtain ⟨decoded, hdecoded, h⟩ := bind_eq_ok.mp h
      split at h
      · cases h
        exact fromItems_keeps hslots hempty hdecoded
      · cases h
  | _ => cases h

/-! ## Keys that name no field -/

/-- Fields at the front of an object spoil it whatever stands behind them, or else hand a record on
to what stands behind them. -/
theorem fromFields_append_cases (slots : List (Slot σ)) (seen : List String) (state : σ)
    (before : List (String × Json)) :
    (∃ e, ∀ after, fromFields slots seen state (before ++ after) = .error e) ∨
      ∃ seen' state', ∀ after,
        fromFields slots seen state (before ++ after) = fromFields slots seen' state' after := by
  induction before generalizing seen state with
  | nil => exact Or.inr ⟨seen, state, fun _ => rfl⟩
  | cons field before ih =>
      simp only [List.cons_append, fromFields]
      cases slots.find? fun slot => slot.answersTo field.1 with
      | none => exact ih seen state
      | some slot =>
          by_cases hmem : slot.name ∈ seen
          · simp only [if_pos hmem]
            exact Or.inl ⟨_, fun _ => rfl⟩
          · simp only [if_neg hmem]
            cases slot.put field.2 state with
            | error e => exact Or.inl ⟨e, fun _ => rfl⟩
            | ok state => exact ih (slot.name :: seen) state

/-- A key that names no field can be left out. -/
theorem fromFields_unknown {slots : List (Slot σ)} {key : String}
    (hkey : ∀ slot ∈ slots, slot.answersTo key = false) (v : Json) (seen : List String) (state : σ)
    (before after : List (String × Json)) :
    fromFields slots seen state (before ++ (key, v) :: after) =
      fromFields slots seen state (before ++ after) := by
  have hnone : slots.find? (fun slot => slot.answersTo key) = none := by
    rw [List.find?_eq_none]
    exact fun slot hslot => Bool.not_eq_true _ ▸ hkey slot hslot
  obtain ⟨e, herror⟩ | ⟨seen, state, hrest⟩ := fromFields_append_cases slots seen state before
  · rw [herror, herror]
  · rw [hrest, hrest, fromFields, hnone]

/-! ## Records seen through a map -/

/-- A map of records that goes with every field goes with decoding. -/
theorem fromFields_map {τ : Type} (f : σ → τ) (g : Slot σ → Slot τ) {slots : List (Slot σ)}
    (hnames : ∀ slot ∈ slots, (g slot).name = slot.name ∧ (g slot).aliases = slot.aliases)
    (hput : ∀ slot ∈ slots, ∀ v state, (g slot).put v (f state) = (slot.put v state).map f)
    (seen : List String) (state : σ) (fields : List (String × Json)) :
    fromFields (slots.map g) seen (f state) fields =
      (fromFields slots seen state fields).map f := by
  have hfind : ∀ key, (slots.map g).find? (fun slot => slot.answersTo key) =
      (slots.find? fun slot => slot.answersTo key).map g := by
    intro key
    rw [List.find?_map]
    congr 1
    refine List.find?_congr fun slot hslot => ?_
    rw [Function.comp_apply, Slot.answersTo, Slot.answersTo, (hnames slot hslot).1,
      (hnames slot hslot).2]
  induction fields generalizing seen state with
  | nil => rfl
  | cons field fields ih =>
      obtain ⟨key, v⟩ := field
      rw [fromFields, fromFields, hfind]
      cases hslot : slots.find? fun slot => slot.answersTo key with
      | none => exact ih seen state
      | some slot =>
          have hmem := List.mem_of_find?_eq_some hslot
          simp only [Option.map_some, (hnames slot hmem).1, hput slot hmem]
          split
          · rfl
          · cases slot.put v state with
            | error e => rfl
            | ok next => exact ih (slot.name :: seen) next

/-! ## Objects that name no field twice -/

/-- No two keys of an object name the same field. -/
def OneName (slots : List (Slot σ)) (fields : List (String × Json)) : Prop :=
  fields.Pairwise fun field other =>
    ∀ slot ∈ slots, ¬(slot.answersTo field.1 = true ∧ slot.answersTo other.1 = true)

/-- Whether a field is named twice is a matter of the names alone. -/
theorem oneName_iff {slots : List (Slot σ)} {fields : List (String × Json)} :
    OneName slots fields ↔ fields.Pairwise fun field other =>
      ∀ names ∈ slots.map Slot.names, ¬(field.1 ∈ names ∧ other.1 ∈ names) := by
  simp only [OneName, Slot.answersTo_iff, List.forall_mem_map]

/-- Puts the value under a key into a record, if the key names a field. -/
def putField (slots : List (Slot σ)) (state : σ) (field : String × Json) :
    Except DecodeError σ :=
  match slots.find? fun slot => slot.answersTo field.1 with
  | none => .ok state
  | some slot => slot.put field.2 state

theorem putField_of_none {slots : List (Slot σ)} {field : String × Json}
    (h : slots.find? (fun slot => slot.answersTo field.1) = none) (state : σ) :
    putField slots state field = .ok state := by
  rw [putField, h]

theorem putField_of_some {slots : List (Slot σ)} {field : String × Json} {slot : Slot σ}
    (h : slots.find? (fun slot => slot.answersTo field.1) = some slot) (state : σ) :
    putField slots state field = slot.put field.2 state := by
  rw [putField, h]

/-- Without a field named twice, the fields are put in one after the other. -/
theorem fromFields_eq_foldlM {slots : List (Slot σ)} (hnames : (slots.map Slot.name).Nodup)
    {fields : List (String × Json)} (hone : OneName slots fields) {seen : List String}
    (hseen : ∀ field ∈ fields, ∀ slot ∈ slots, slot.answersTo field.1 = true → slot.name ∉ seen)
    (state : σ) : fromFields slots seen state fields = fields.foldlM (putField slots) state := by
  induction fields generalizing seen state with
  | nil => rfl
  | cons field fields ih =>
      obtain ⟨hfirst, hone⟩ := List.pairwise_cons.mp hone
      obtain ⟨hfield, hfields⟩ := List.forall_mem_cons.mp hseen
      rw [fromFields, List.foldlM_cons]
      cases hslot : slots.find? fun slot => slot.answersTo field.1 with
      | none =>
          rw [putField_of_none hslot]
          exact ih hone hfields state
      | some slot =>
          have hmem := List.mem_of_find?_eq_some hslot
          have hanswers := List.find?_some hslot
          simp only [putField_of_some hslot, if_neg (hfield slot hmem hanswers)]
          -- a field that a later key names is another one, and so is its name
          have hlater : ∀ other ∈ fields, ∀ slot' ∈ slots, slot'.answersTo other.1 = true →
              slot'.name ∉ slot.name :: seen := by
            intro other hother slot' hmem' hanswers'
            rw [List.mem_cons, not_or]
            refine ⟨fun hname => ?_, hfields other hother slot' hmem' hanswers'⟩
            obtain rfl := List.inj_on_of_nodup_map hnames hmem' hmem hname
            exact hfirst other hother slot' hmem' ⟨hanswers, hanswers'⟩
          cases slot.put field.2 state with
          | error e => rfl
          | ok next => exact ih hone hlater next

/-- Whether a field is present: only a strict key counts whatever its value. -/
def isPresent (strict : List String) (field : String × Json) : Bool :=
  !field.2.isAbsent || strict.contains field.1

/-- The fields of an object that are present. -/
def present (strict : List String) (fields : List (String × Json)) : List (String × Json) :=
  fields.filter (isPresent strict)

/-- A field is missing if its value is absent and its key is not strict. -/
theorem isPresent_eq_false_iff {strict : List String} {field : String × Json} :
    isPresent strict field = false ↔ field.2.isAbsent = true ∧ field.1 ∉ strict := by
  simp [isPresent]

/-- What stands under a strict key stays. -/
theorem get?_present {strict : List String} {key : String} (hkey : key ∈ strict)
    (fields : List (String × Json)) :
    Fields.get? key (present strict fields) = Fields.get? key fields := by
  induction fields with
  | nil => rfl
  | cons field fields ih =>
      obtain ⟨other, v⟩ := field
      by_cases hother : key = other
      · subst hother
        have hkept : isPresent strict (key, v) = true := by simp [isPresent, hkey]
        rw [present, List.filter_cons_of_pos hkept, Fields.get?, Fields.get?,
          List.lookup_cons_self, List.lookup_cons_self]
      · have hskip : ∀ rest, Fields.get? key ((other, v) :: rest) = Fields.get? key rest := by
          intro rest
          rw [Fields.get?, List.lookup_cons, beq_eq_false_iff_ne.mpr hother, Fields.get?]
        rw [hskip, ← ih, present, List.filter_cons]
        split
        · exact hskip _
        · rfl

/-- Absent values can be left out if the fields under them leave the record alone. -/
theorem foldlM_present {slots : List (Slot σ)} (hslots : slots.Pairwise Slot.Commutes)
    (strict : List String) {fields : List (String × Json)} (hone : OneName slots fields) (state : σ)
    (hidles : ∀ field ∈ fields, ∀ slot ∈ slots, slot.answersTo field.1 = true →
      field.1 ∉ strict → slot.Idles state) :
    (present strict fields).foldlM (putField slots) state =
      fields.foldlM (putField slots) state := by
  induction fields generalizing state with
  | nil => rfl
  | cons field fields ih =>
      obtain ⟨hfirst, hone⟩ := List.pairwise_cons.mp hone
      obtain ⟨hfield, hfields⟩ := List.forall_mem_cons.mp hidles
      have hrest := ih hone state hfields
      rw [List.foldlM_cons]
      cases hslot : slots.find? fun slot => slot.answersTo field.1 with
      | none =>
          rw [putField_of_none hslot, present, List.filter_cons]
          split
          · rw [List.foldlM_cons, putField_of_none hslot]
            exact hrest
          · exact hrest
      | some slot =>
          have hmem := List.mem_of_find?_eq_some hslot
          have hanswers := List.find?_some hslot
          cases hkept : isPresent strict field with
          | true =>
              rw [present, List.filter_cons_of_pos hkept, List.foldlM_cons,
                putField_of_some hslot]
              cases hput : slot.put field.2 state with
              | error e => rfl
              | ok next =>
                  -- The fields behind this one have other places, so they still have nothing to
                  -- say.
                  refine ih hone next fun other hother slot' hmem' hanswers' hstrict => ?_
                  have hne : slot' ≠ slot := by
                    rintro rfl
                    exact hfirst other hother slot' hmem' ⟨hanswers, hanswers'⟩
                  have hcommutes := hslots.forall hmem' hmem hne
                  exact (hfields other hother slot' hmem' hanswers' hstrict).of_commutes
                    hcommutes hput
          | false =>
              obtain ⟨habsent, hstrict⟩ := isPresent_eq_false_iff.mp hkept
              have hput := hfield slot hmem hanswers hstrict field.2 habsent
              rw [putField_of_some hslot, hput, present,
                List.filter_cons_of_neg (Bool.eq_false_iff.mp hkept)]
              exact hrest

/-- A kind of record whose fields have names and places of their own and take absent values, except
for those that answer to strict keys alone. -/
structure Forgiving (strict : List String) (shape : Shape σ) : Prop where
  names : (shape.slots.map Slot.name).Nodup
  commutes : shape.slots.Pairwise Slot.Commutes
  idles : ∀ slot ∈ shape.slots, slot.names ⊆ strict ∨ slot.Idles shape.empty

/-- Absent values can be left out of an object that names no field twice. -/
theorem Forgiving.fromFields_present {strict : List String} {shape : Shape σ}
    (h : shape.Forgiving strict) {fields : List (String × Json)}
    (hone : OneName shape.slots fields) :
    fromFields shape.slots [] shape.empty (present strict fields) =
      fromFields shape.slots [] shape.empty fields := by
  have hunseen : ∀ others : List (String × Json), ∀ field ∈ others, ∀ slot ∈ shape.slots,
      slot.answersTo field.1 = true → slot.name ∉ [] :=
    fun _ _ _ _ _ _ => List.not_mem_nil
  have hpresent : OneName shape.slots (present strict fields) := hone.filter _
  rw [fromFields_eq_foldlM h.names hone (hunseen _),
    fromFields_eq_foldlM h.names hpresent (hunseen _)]
  refine foldlM_present h.commutes strict hone shape.empty ?_
  intro field _ slot hslot hanswers hkey
  refine (h.idles slot hslot).resolve_left fun hstrict => hkey ?_
  exact hstrict (Slot.answersTo_iff.mp hanswers)

end Shape

end TestFlow.Json
