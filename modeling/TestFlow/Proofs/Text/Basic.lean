import TestFlow.Text.Basic
import Mathlib.Data.List.DropRight

/-!
# Laws of texts

Three things are done to texts wherever they come from: blanks around them are trimmed away, their
lines are joined, and they are divided at a character.

A text that starts and ends with characters that are not blank is what is left of it when blanks are
put around it and trimmed away again (`trim_around`).  Trimming leaves such a text of every text
that is not blank (`isTight_trim`).

A text is *unbroken* if it has neither of the two characters that break a line.  `oneLine` makes
every text unbroken and leaves an unbroken one as it is.

The segments of a text are the only texts without the divider that give the text when they are
joined by it (`divides_segments`, `Divides.eq_segments`).  A text with the divider is divided at its
first place, which is the only way to divide it with no divider in the first part
(`splitFirst?_append`); a text without it is not divided (`splitFirst?_of_not_mem`).

Reference: specification, §3 (a step is a single line) and §3.2 (normalization).

## Main definitions

* `IsTight` — a text without blanks at its ends;
* `Unbroken` — a text without line breaks;
* `Divides` — the parts of a text between the places of a divider.
-/

namespace TestFlow.Text

/-! ## Blanks -/

theorem isBlank_iff {s : String} : isBlank s = true ↔ ∀ c ∈ s.toList, isBlankChar c = true :=
  List.all_eq_true

/-- No digit is blank, so no numeral is. -/
theorem isBlankChar_of_isDigit {c : Char} (h : c.isDigit = true) : isBlankChar c = false := by
  have hrange : 48 ≤ c.toNat ∧ c.toNat ≤ 57 := by
    simpa [Char.isDigit, UInt32.le_iff_toNat_le] using h
  simp only [isBlankChar, Bool.or_eq_false_iff, Bool.and_eq_false_iff, decide_eq_false_iff_not,
    beq_eq_false_iff_ne]
  omega

theorem isBlank_ofList_cons {c : Char} (h : isBlankChar c = false) (cs : List Char) :
    isBlank (String.ofList (c :: cs)) = false := by
  simp [isBlank, h]

/-- Blanks before a text are trimmed away, and no more than these. -/
theorem trimStart_append {left cs : List Char} (hleft : ∀ c ∈ left, isBlankChar c = true)
    (hfirst : ∀ c ∈ cs.head?, isBlankChar c = false) : trimStart (left ++ cs) = cs := by
  rw [trimStart, List.dropWhile_append_of_pos hleft]
  cases cs with
  | nil => rfl
  | cons c cs => exact List.dropWhile_cons_of_neg (by simp [hfirst c rfl])

/-- Blanks behind a text are trimmed away, and no more than these. -/
theorem trimEnd_append {cs right : List Char} (hright : ∀ c ∈ right, isBlankChar c = true)
    (hlast : ∀ c ∈ cs.getLast?, isBlankChar c = false) : trimEnd (cs ++ right) = cs := by
  -- the end of a text is the start of the reversed text
  have hstart : trimStart (right.reverse ++ cs.reverse) = cs.reverse :=
    trimStart_append (by simpa using hright) (by simpa using hlast)
  rw [trimStart] at hstart
  rw [trimEnd, List.reverse_append, hstart, List.reverse_reverse]

/-- Trimming takes back what blanks were put around a text. -/
theorem trim_around {left cs right : List Char} (hleft : ∀ c ∈ left, isBlankChar c = true)
    (hright : ∀ c ∈ right, isBlankChar c = true) (hne : cs ≠ [])
    (hfirst : ∀ c ∈ cs.head?, isBlankChar c = false)
    (hlast : ∀ c ∈ cs.getLast?, isBlankChar c = false) : trim (left ++ cs ++ right) = cs := by
  have hhead : ∀ c ∈ (cs ++ right).head?, isBlankChar c = false := by
    obtain ⟨first, rest, rfl⟩ := List.exists_cons_of_ne_nil hne
    exact hfirst
  rw [trim, List.append_assoc, trimStart_append hleft hhead, trimEnd_append hright hlast]

/-- A text that starts and ends with characters that are not blank. -/
structure IsTight (cs : List Char) : Prop where
  ne_nil : cs ≠ []
  first : ∀ c ∈ cs.head?, isBlankChar c = false
  last : ∀ c ∈ cs.getLast?, isBlankChar c = false

/-- Trimming leaves a tight text as it is. -/
theorem IsTight.trim_eq {cs : List Char} (h : IsTight cs) : trim cs = cs := by
  have hnone : ∀ c ∈ ([] : List Char), isBlankChar c = true := by simp
  simpa using trim_around hnone hnone h.ne_nil h.first h.last

/-- A tight text is not blank. -/
theorem IsTight.isBlank_eq_false {s : String} (h : IsTight s.toList) : isBlank s = false := by
  obtain ⟨c, rest, hs⟩ := List.exists_cons_of_ne_nil h.ne_nil
  rw [hs] at h
  rw [isBlank, hs, List.all_cons, h.first c rfl, Bool.false_and]

/-- What is trimmed at its start does not start with a blank. -/
theorem isBlankChar_of_head?_trimStart {cs : List Char} {c : Char}
    (h : c ∈ (trimStart cs).head?) : isBlankChar c = false := by
  have hfirst := List.head?_dropWhile_not isBlankChar cs
  rw [trimStart] at h
  rwa [Option.mem_def.mp h] at hfirst

/-- Nothing is left of a text exactly if all of it is blank. -/
theorem trim_eq_nil_iff {cs : List Char} : trim cs = [] ↔ ∀ c ∈ cs, isBlankChar c = true := by
  have hend : trim cs = [] ↔ ∀ c ∈ trimStart cs, isBlankChar c = true :=
    List.rdropWhile_eq_nil_iff
  rw [hend]
  constructor
  · -- the first character left at the start is not blank, so none is left
    intro h
    rw [← List.dropWhile_eq_nil_iff, ← trimStart]
    cases hstart : trimStart cs with
    | nil => rfl
    | cons c rest =>
        have hfirst : isBlankChar c = false :=
          isBlankChar_of_head?_trimStart (by rw [hstart]; rfl)
        have hblank := h c (by rw [hstart]; exact List.mem_cons_self)
        rw [hfirst] at hblank
        cases hblank
  · intro h c hc
    exact h c ((List.dropWhile_suffix isBlankChar).subset hc)

/-- What trimming leaves is tight. -/
theorem isTight_trim {cs : List Char} (hne : trim cs ≠ []) : IsTight (trim cs) := by
  refine ⟨hne, ?_, ?_⟩
  · -- trimming at the end leaves the first character where it was
    intro c hc
    obtain ⟨behind, hbehind⟩ : trim cs <+: trimStart cs := List.rdropWhile_prefix _ _
    have hhead : c ∈ (trimStart cs).head? := by
      rw [← hbehind, List.head?_append, Option.mem_def.mp hc]
      rfl
    exact isBlankChar_of_head?_trimStart hhead
  · intro c hc
    have hlast := List.rdropWhile_last_not isBlankChar (trimStart cs) hne
    rw [List.getLast?_eq_some_getLast hne, Option.mem_some_iff] at hc
    rw [← hc]
    exact Bool.eq_false_iff.mpr hlast

/-- What is left of a text that is not blank is tight. -/
theorem isTight_trimmed {s : String} (h : isBlank s = false) : IsTight (trimmed s).toList := by
  have hne : trim s.toList ≠ [] := by
    rw [Ne, trim_eq_nil_iff, ← isBlank_iff, h]
    exact Bool.false_ne_true
  rw [trimmed, String.toList_ofList]
  exact isTight_trim hne

/-! ## Line breaks -/

/-- A text without line breaks. -/
def Unbroken (cs : List Char) : Prop :=
  ∀ c ∈ cs, isLineBreak c = false

@[simp] theorem unbroken_nil : Unbroken [] := by
  intro c hc
  cases hc

@[simp] theorem unbroken_cons {c : Char} {cs : List Char} :
    Unbroken (c :: cs) ↔ isLineBreak c = false ∧ Unbroken cs :=
  List.forall_mem_cons

@[simp] theorem unbroken_append {cs ds : List Char} :
    Unbroken (cs ++ ds) ↔ Unbroken cs ∧ Unbroken ds :=
  List.forall_mem_append

theorem Unbroken.lineFeed_not_mem {cs : List Char} (h : Unbroken cs) : '\n' ∉ cs := by
  intro hmem
  exact absurd (h '\n' hmem) (by decide)

theorem Unbroken.carriageReturn_not_mem {cs : List Char} (h : Unbroken cs) : '\r' ∉ cs := by
  intro hmem
  exact absurd (h '\r' hmem) (by decide)

/-- A character of a class that has no line break does not break a line. -/
theorem isLineBreak_eq_false_of (p : Char → Prop) (hlineFeed : ¬p '\n') (hreturn : ¬p '\r')
    {c : Char} (h : p c) : isLineBreak c = false := by
  rw [isLineBreak, Bool.or_eq_false_iff, beq_eq_false_iff_ne, beq_eq_false_iff_ne]
  constructor
  · rintro rfl
    exact hlineFeed h
  · rintro rfl
    exact hreturn h

/-- Joining the lines of a text leaves no line break. -/
theorem unbroken_joinLines (cs : List Char) : Unbroken (joinLines cs) := by
  fun_induction joinLines cs with
  | case1 => simp
  | case2 rest ih =>
      -- the two characters of one line break become a single blank
      rw [unbroken_cons]
      exact ⟨by decide, ih⟩
  | case3 c rest _ ih =>
      rw [unbroken_cons]
      refine ⟨?_, ih⟩
      split
      · decide
      · simpa using ‹¬isLineBreak c = true›

/-- Where there is one line, nothing is joined. -/
theorem joinLines_of_unbroken {cs : List Char} (h : Unbroken cs) : joinLines cs = cs := by
  fun_induction joinLines cs with
  | case1 => rfl
  | case2 rest ih => exact absurd (unbroken_cons.mp h).1 (by decide)
  | case3 c rest _ ih =>
      obtain ⟨hc, hrest⟩ := unbroken_cons.mp h
      rw [hc, ih hrest]
      rfl

/-- Joining the lines of a text leaves the part before the first line break as it is. -/
theorem joinLines_append_of_unbroken {cs : List Char} (h : Unbroken cs) (ds : List Char) :
    joinLines (cs ++ ds) = cs ++ joinLines ds := by
  induction cs with
  | nil => rfl
  | cons c cs ih =>
      obtain ⟨hc, hcs⟩ := unbroken_cons.mp h
      rw [List.cons_append, joinLines, hc, ih hcs]
      · rfl
      · rintro rest rfl
        exact absurd hc (by decide)

/-- Lines are joined on either side of a place that is not inside a line break. -/
theorem joinLines_append {ds : List Char} (hds : ds.head? ≠ some '\n') (cs : List Char) :
    joinLines (cs ++ ds) = joinLines cs ++ joinLines ds := by
  fun_induction joinLines cs with
  | case1 => rfl
  | case2 rest ih => rw [List.cons_append, List.cons_append, joinLines, ih, List.cons_append]
  | case3 c rest hbreak ih =>
      rw [List.cons_append, joinLines, ih, List.cons_append]
      -- a line break of two characters that begins in the first text ends there too
      rintro tail rfl htail
      cases rest with
      | nil => exact hds (congrArg List.head? htail)
      | cons d rest =>
          obtain ⟨rfl, -⟩ := List.cons.inj htail
          exact hbreak rest rfl rfl

/-- Lines are joined on either side of a place that is not inside a line break. -/
theorem oneLine_append {t : String} (ht : t.toList.head? ≠ some '\n') (s : String) :
    oneLine (s ++ t) = oneLine s ++ oneLine t := by
  rw [← String.toList_inj]
  simp [oneLine, joinLines_append ht]

/-- The part before the first line break stays as it is. -/
theorem oneLine_append_of_unbroken {s : String} (h : Unbroken s.toList) (t : String) :
    oneLine (s ++ t) = s ++ oneLine t := by
  rw [← String.toList_inj]
  simp [oneLine, joinLines_append_of_unbroken h]

theorem unbroken_oneLine (s : String) : Unbroken (oneLine s).toList := by
  rw [oneLine, String.toList_ofList]
  exact unbroken_joinLines s.toList

/-- A text without line breaks is on one line already. -/
theorem oneLine_of_unbroken {s : String} (h : Unbroken s.toList) : oneLine s = s := by
  rw [oneLine, joinLines_of_unbroken h, String.ofList_toList]

/-! ## Dividing -/

/-- The parts of a text between the places of a divider. -/
structure Divides (divider : Char) (cs : List Char) (parts : List (List Char)) : Prop where
  ne_nil : parts ≠ []
  not_mem : ∀ part ∈ parts, divider ∉ part
  joined : [divider].intercalate parts = cs

/-- The parts are those that the library finds. -/
theorem Divides.eq_splitOn {divider : Char} {cs : List Char} {parts : List (List Char)}
    (h : Divides divider cs parts) : parts = cs.splitOn divider := by
  rw [← h.joined, List.splitOn_intercalate divider h.not_mem h.ne_nil]

/-- The segments of a text divide it. -/
theorem divides_segments (divider : Char) (cs : List Char) :
    Divides divider cs (segments divider cs) := by
  induction cs with
  | nil => exact ⟨by simp [segments], by simp [segments], by simp [segments]⟩
  | cons c cs ih =>
      obtain ⟨hne, hmem, hjoined⟩ := ih
      obtain ⟨segment, others, hsegments⟩ := List.exists_cons_of_ne_nil hne
      rw [hsegments] at hmem hjoined
      rw [segments, hsegments]
      by_cases hc : c = divider
      · -- the divider opens a segment of its own, which is still empty
        rw [if_pos hc]
        refine ⟨by simp, List.forall_mem_cons.mpr ⟨List.not_mem_nil, hmem⟩, ?_⟩
        rw [List.intercalate_cons_cons, hjoined, hc]
        rfl
      · -- any other character joins the segment that follows it
        rw [if_neg hc]
        obtain ⟨hsegment, hothers⟩ := List.forall_mem_cons.mp hmem
        refine ⟨by simp, List.forall_mem_cons.mpr ⟨?_, hothers⟩, ?_⟩
        · rw [List.mem_cons, not_or]
          exact ⟨Ne.symm hc, hsegment⟩
        · rw [← hjoined]
          cases others <;> simp [List.intercalate_cons_cons]

/-- There is no other way to divide a text. -/
theorem Divides.eq_segments {divider : Char} {cs : List Char} {parts : List (List Char)}
    (h : Divides divider cs parts) : parts = segments divider cs := by
  rw [h.eq_splitOn, (divides_segments divider cs).eq_splitOn]

/-- A text is divided at the first occurrence of a character. -/
theorem splitFirst?_append {divider : Char} {before : List Char} (h : divider ∉ before)
    (behind : List Char) :
    splitFirst? divider (before ++ divider :: behind) = some (before, behind) := by
  induction before with
  | nil => simp [splitFirst?]
  | cons c before ih =>
      rw [List.mem_cons, not_or] at h
      obtain ⟨hc, hbefore⟩ := h
      rw [List.cons_append, splitFirst?, if_neg (Ne.symm hc), ih hbefore]
      rfl

/-- A text without the character is not divided. -/
theorem splitFirst?_of_not_mem {divider : Char} {cs : List Char} (h : divider ∉ cs) :
    splitFirst? divider cs = none := by
  induction cs with
  | nil => rfl
  | cons c cs ih =>
      rw [List.mem_cons, not_or] at h
      obtain ⟨hc, hcs⟩ := h
      rw [splitFirst?, if_neg (Ne.symm hc), ih hcs]
      rfl

end TestFlow.Text
