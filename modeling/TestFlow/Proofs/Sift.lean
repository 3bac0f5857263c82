import TestFlow.Sift
import Mathlib.Data.List.Nodup

/-!
# Laws of sifting

Every entry of a sifted list has an outcome, and every outcome counts either as accepted or as
refused.  An entry is checked against the keys of the entries accepted before it (`getElem?_sift`),
so a refused entry leaves no trace (`accepted_sift_eraseIdx`).  Where the check refuses a key that
is taken, the accepted entries have distinct keys (`nodup_keys_sift`).  Where it tells entries apart
by how they look, so does sifting (`map_key_sift_congr`).

Reference: specification, §3 (what is dropped with a diagnostic) and §4.3 (per-entry validation).
-/

namespace TestFlow

variable {α β γ ε κ σ : Type}

/-! ## Accepted and refused entries -/

@[simp] theorem accepted_nil : accepted ([] : List (Except ε β)) = [] := rfl

@[simp] theorem accepted_ok_cons (b : β) (outcomes : List (Except ε β)) :
    accepted (.ok b :: outcomes) = b :: accepted outcomes := rfl

@[simp] theorem accepted_error_cons (e : ε) (outcomes : List (Except ε β)) :
    accepted (.error e :: outcomes) = accepted outcomes := rfl

@[simp] theorem refused_nil : refused ([] : List (Except ε β)) = [] := rfl

@[simp] theorem refused_ok_cons (b : β) (outcomes : List (Except ε β)) :
    refused (.ok b :: outcomes) = refused outcomes := rfl

@[simp] theorem refused_error_cons (e : ε) (outcomes : List (Except ε β)) :
    refused (.error e :: outcomes) = e :: refused outcomes := rfl

/-- Every outcome counts as accepted or as refused, and not as both. -/
theorem length_accepted_add_length_refused (outcomes : List (Except ε β)) :
    (accepted outcomes).length + (refused outcomes).length = outcomes.length := by
  induction outcomes with
  | nil => rfl
  | cons outcome rest ih =>
      cases outcome with
      | ok b =>
          simp only [accepted_ok_cons, refused_ok_cons, List.length_cons]
          omega
      | error e =>
          simp only [accepted_error_cons, refused_error_cons, List.length_cons]
          omega

/-- The first entries of a list are those at the first positions. -/
theorem mem_take_iff_getElem? {l : List α} {i : Nat} {a : α} :
    a ∈ l.take i ↔ ∃ j < i, l[j]? = some a := by
  rw [List.mem_iff_getElem?]
  simp only [List.getElem?_take]
  constructor
  · rintro ⟨j, hj⟩
    split at hj
    · exact ⟨j, by assumption, hj⟩
    · cases hj
  · rintro ⟨j, hlt, hj⟩
    exact ⟨j, by rw [if_pos hlt, hj]⟩

/-- The accepted entries are those with an outcome that accepts them. -/
theorem mem_accepted {outcomes : List (Except ε β)} {b : β} :
    b ∈ accepted outcomes ↔ .ok b ∈ outcomes := by
  rw [accepted, List.mem_filterMap]
  constructor
  · rintro ⟨outcome, houtcome, hok⟩
    cases outcome with
    | ok b' =>
        obtain rfl : b' = b := by simpa using hok
        exact houtcome
    | error e => simp at hok
  · intro hok
    exact ⟨.ok b, hok, rfl⟩

/-- Where everything is accepted, all of it is. -/
@[simp] theorem accepted_map_ok (bs : List β) :
    accepted (bs.map (Except.ok : β → Except ε β)) = bs := by
  induction bs with
  | nil => rfl
  | cons b bs ih => rw [List.map_cons, accepted_ok_cons, ih]

/-- Where everything is accepted, nothing is refused. -/
@[simp] theorem refused_map_ok (bs : List β) :
    refused (bs.map (Except.ok : β → Except ε β)) = [] := by
  induction bs with
  | nil => rfl
  | cons b bs ih => rw [List.map_cons, refused_ok_cons, ih]

@[simp] theorem accepted_append (outcomes others : List (Except ε β)) :
    accepted (outcomes ++ others) = accepted outcomes ++ accepted others :=
  List.filterMap_append

@[simp] theorem refused_append (outcomes others : List (Except ε β)) :
    refused (outcomes ++ others) = refused outcomes ++ refused others :=
  List.filterMap_append

/-- What is done to all that is accepted can be done to the outcomes. -/
theorem accepted_map_map (view : β → γ) (outcomes : List (Except ε β)) :
    accepted (outcomes.map (Except.map view)) = (accepted outcomes).map view := by
  induction outcomes with
  | nil => rfl
  | cons outcome outcomes ih =>
      rcases outcome with e | b
      · exact ih
      · exact congrArg (view b :: ·) ih

/-- What is done to the accepted entries does not touch the refusals. -/
theorem refused_map_map (view : β → γ) (outcomes : List (Except ε β)) :
    refused (outcomes.map (Except.map view)) = refused outcomes := by
  induction outcomes with
  | nil => rfl
  | cons outcome outcomes ih =>
      rcases outcome with e | b
      · exact congrArg (e :: ·) ih
      · exact ih

/-- A list with one thing for each outcome, from which only those of accepted entries are taken. -/
theorem filterMap_mapIdx_eq_accepted {δ : Type} {f : Nat → Except ε β → γ} {p : γ → Option δ}
    {g : β → δ} {outcomes : List (Except ε β)}
    (hok : ∀ i b, outcomes[i]? = some (.ok b) → p (f i (.ok b)) = some (g b))
    (herror : ∀ i e, p (f i (.error e)) = none) :
    (outcomes.mapIdx f).filterMap p = (accepted outcomes).map g := by
  induction outcomes generalizing f with
  | nil => rfl
  | cons outcome outcomes ih =>
      have hrest := ih (fun i b hb => hok (i + 1) b hb) fun i e => herror (i + 1) e
      rw [List.mapIdx_cons]
      cases outcome with
      | ok b => rw [List.filterMap_cons_some (hok 0 b rfl), hrest, accepted_ok_cons, List.map_cons]
      | error e => rw [List.filterMap_cons_none (herror 0 e), hrest, accepted_error_cons]

/-! ## Outcomes by position -/

/-- Every entry has an outcome. -/
@[simp] theorem length_sift (check : List κ → α → Except ε β) (key : β → κ) (entries : List α)
    (taken : List κ) : (sift check key taken entries).length = entries.length := by
  induction entries generalizing taken with
  | nil => rfl
  | cons a rest ih =>
      rw [sift]
      cases check taken a with
      | ok b => simp [ih]
      | error e => simp [ih]

/-- The entries of a second list are checked against the keys accepted from the first as well. -/
theorem sift_append (check : List κ → α → Except ε β) (key : β → κ) (entries others : List α)
    (taken : List κ) :
    sift check key taken (entries ++ others) = sift check key taken entries ++
      sift check key (((accepted (sift check key taken entries)).map key).reverse ++ taken)
        others := by
  induction entries generalizing taken with
  | nil => rfl
  | cons a entries ih =>
      rw [List.cons_append, sift, sift]
      -- an accepted key moves from the entries ahead to the keys that are taken, on both sides
      cases check taken a with
      | ok b => simp [ih (key b :: taken)]
      | error e => simp [ih taken]

/-- The outcome at a position comes from checking its entry against the keys of the entries accepted
before it. -/
theorem getElem?_sift (check : List κ → α → Except ε β) (key : β → κ) (entries : List α)
    (taken : List κ) (i : Nat) :
    (sift check key taken entries)[i]? = entries[i]?.map
      (check (((accepted ((sift check key taken entries).take i)).map key).reverse ++ taken)) := by
  induction entries generalizing taken i with
  | nil => simp [sift]
  | cons a rest ih =>
      cases i with
      | zero =>
          rw [sift]
          cases hcheck : check taken a with
          | ok b => simp [hcheck]
          | error e => simp [hcheck]
      | succ i =>
          -- an accepted entry adds its key to those that the rest is checked against
          rw [sift]
          cases check taken a with
          | ok b => simp [ih (key b :: taken) i]
          | error e => simp [ih taken i]

/-- Every outcome comes from checking an entry against some of the keys. -/
theorem exists_check_of_mem_sift {check : List κ → α → Except ε β} {key : β → κ}
    {taken : List κ} {entries : List α} {outcome : Except ε β}
    (h : outcome ∈ sift check key taken entries) :
    ∃ before, ∃ a ∈ entries, check before a = outcome := by
  rw [List.mem_iff_getElem?] at h
  obtain ⟨i, hi⟩ := h
  rw [getElem?_sift, Option.map_eq_some_iff] at hi
  obtain ⟨a, ha, hcheck⟩ := hi
  exact ⟨_, a, List.mem_of_getElem? ha, hcheck⟩

/-- If a check accepts an entry for what it has to offer, unless the key is taken, then an entry is
accepted for what it has to offer, unless one accepted before it has the key. -/
theorem getElem?_sift_eq_ok_iff {check : List κ → α → Except ε β} {key : β → κ}
    {offers : α → β → Prop}
    (hcheck : ∀ taken a b, check taken a = .ok b ↔ offers a b ∧ key b ∉ taken) {entries : List α}
    {i : Nat} {b : β} :
    (sift check key [] entries)[i]? = some (.ok b) ↔
      ∃ a, entries[i]? = some a ∧ offers a b ∧
        ∀ j < i, ∀ b', (sift check key [] entries)[j]? = some (.ok b') → key b' ≠ key b := by
  -- the keys that an entry is checked against are those of the accepted outcomes before it
  have hfresh : key b ∉ ((accepted ((sift check key [] entries).take i)).map key).reverse ++ [] ↔
      ∀ j < i, ∀ b', (sift check key [] entries)[j]? = some (.ok b') → key b' ≠ key b := by
    simp only [List.append_nil, List.mem_reverse, List.mem_map, mem_accepted, mem_take_iff_getElem?]
    constructor
    · intro h j hj b' hb' hkey
      exact h ⟨b', ⟨j, hj, hb'⟩, hkey⟩
    · rintro h ⟨b', ⟨j, hj, hb'⟩, hkey⟩
      exact h j hj b' hb' hkey
  rw [getElem?_sift, Option.map_eq_some_iff]
  simp only [hcheck, hfresh]

/-- Under the same condition, an entry is accepted if it has something to offer, and no entry that
was accepted before it has the key. -/
theorem exists_ok_sift_iff {check : List κ → α → Except ε β} {key : β → κ} {offers : α → β → Prop}
    {keyOf : α → Option κ}
    (hcheck : ∀ taken a b, check taken a = .ok b ↔ offers a b ∧ key b ∉ taken)
    (hkey : ∀ a b, offers a b → keyOf a = some (key b)) {entries : List α} {i : Nat} {a : α}
    (ha : entries[i]? = some a) :
    (∃ b, (sift check key [] entries)[i]? = some (.ok b)) ↔
      ∃ b, offers a b ∧ ∀ j < i, ∀ earlier, entries[j]? = some earlier →
        (∃ b', (sift check key [] entries)[j]? = some (.ok b')) → keyOf earlier ≠ some (key b) := by
  simp only [getElem?_sift_eq_ok_iff hcheck (i := i)]
  constructor
  · rintro ⟨b, a', ha', hoffers, hfresh⟩
    obtain rfl : a' = a := by simpa [ha'] using ha
    refine ⟨b, hoffers, ?_⟩
    rintro j hj earlier hearlier ⟨b', hb'⟩ hsame
    obtain ⟨a'', ha'', hoffers', -⟩ := (getElem?_sift_eq_ok_iff hcheck).mp hb'
    obtain rfl : a'' = earlier := by simpa [ha''] using hearlier
    rw [hkey a'' b' hoffers'] at hsame
    exact hfresh j hj b' hb' (Option.some.inj hsame)
  · rintro ⟨b, hoffers, hfresh⟩
    refine ⟨b, a, ha, hoffers, ?_⟩
    intro j hj b' hb' hsame
    obtain ⟨earlier, hearlier, hoffers', -⟩ := (getElem?_sift_eq_ok_iff hcheck).mp hb'
    refine hfresh j hj earlier hearlier ⟨b', hb'⟩ ?_
    rw [hkey earlier b' hoffers', hsame]

/-- A refused entry leaves no trace in what is accepted. -/
theorem accepted_sift_eraseIdx {check : List κ → α → Except ε β} {key : β → κ} {entries : List α}
    {taken : List κ} {i : Nat} {e : ε} (h : (sift check key taken entries)[i]? = some (.error e)) :
    accepted (sift check key taken (entries.eraseIdx i)) =
      accepted (sift check key taken entries) := by
  induction entries generalizing taken i with
  | nil => rfl
  | cons a rest ih =>
      rw [sift] at h ⊢
      cases i with
      | zero =>
          cases hcheck : check taken a with
          | ok b => simp [hcheck] at h
          | error e' => simp
      | succ i =>
          cases hcheck : check taken a with
          | ok b =>
              have hrest : (sift check key (key b :: taken) rest)[i]? = some (.error e) := by
                simpa [hcheck] using h
              simp [sift, hcheck, ih hrest]
          | error e' =>
              have hrest : (sift check key taken rest)[i]? = some (.error e) := by
                simpa [hcheck] using h
              simp [sift, hcheck, ih hrest]

/-! ## The keys of accepted entries -/

/-- Where an entry is accepted only under a key that is not taken, the accepted entries have
distinct keys, none of which was taken before. -/
theorem nodup_keys_sift {check : List κ → α → Except ε β} {key : β → κ}
    (hfresh : ∀ taken a b, check taken a = .ok b → key b ∉ taken)
    (entries : List α) (taken : List κ) (htaken : taken.Nodup) :
    (taken ++ (accepted (sift check key taken entries)).map key).Nodup := by
  induction entries generalizing taken with
  | nil => simpa [sift] using htaken
  | cons a rest ih =>
      rw [sift]
      cases hcheck : check taken a with
      | error e => exact ih taken htaken
      | ok b =>
          -- the key of the entry counts as taken for the entries behind it
          rw [accepted_ok_cons, List.map_cons, List.nodup_middle]
          exact ih (key b :: taken) (List.nodup_cons.mpr ⟨hfresh taken a b hcheck, htaken⟩)

/-- In a list whose entries have distinct keys, an entry is found by its key. -/
theorem find?_key [BEq κ] [LawfulBEq κ] {key : α → κ} {entries : List α}
    (hnodup : (entries.map key).Nodup) {a : α} (h : a ∈ entries) :
    entries.find? (fun other => key other == key a) = some a := by
  cases hfound : entries.find? fun other => key other == key a with
  | none => exact absurd (List.find?_eq_none.mp hfound a h) (by simp)
  | some found =>
      have hkey : key found = key a := by simpa using List.find?_some hfound
      rw [List.inj_on_of_nodup_map hnodup (List.mem_of_find?_eq_some hfound) h hkey]

/-! ## Entries that look alike -/

/-- If a check gives the same key or the same refusal for entries that look alike, so does sifting
lists whose entries look alike. -/
theorem map_key_sift_congr {check : List κ → α → Except ε β} {key : β → κ} {look : α → σ}
    (hcheck : ∀ taken a b, look a = look b → (check taken a).map key = (check taken b).map key)
    {entries others : List α} (h : entries.map look = others.map look) (taken : List κ) :
    (sift check key taken entries).map (Except.map key) =
      (sift check key taken others).map (Except.map key) := by
  induction entries generalizing others taken with
  | nil =>
      obtain rfl : others = [] := List.map_eq_nil_iff.mp h.symm
      rfl
  | cons a entries ih =>
      obtain ⟨b, others, rfl, hlook, hrest⟩ := List.map_eq_cons_iff.mp h.symm
      have hhead := hcheck taken a b hlook.symm
      rw [sift, sift]
      -- the keys that the rest is held against are the same, since the outcomes have the same key
      rcases hleft : check taken a with e | x <;> rcases hright : check taken b with e' | y
      all_goals rw [hleft, hright] at hhead
      · exact congrArg₂ List.cons hhead (ih hrest.symm taken)
      · cases hhead
      · cases hhead
      · obtain hkey : key x = key y := Except.ok.inj hhead
        refine congrArg₂ List.cons hhead ?_
        rw [hkey]
        exact ih hrest.symm (key y :: taken)

end TestFlow
