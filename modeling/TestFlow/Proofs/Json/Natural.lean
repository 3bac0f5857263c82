import TestFlow.Proofs.Json.Decode
import TestFlow.Proofs.Json.Reader.Values

/-!
# Whole numbers of 64 bits

A whole number may be given as a number or as text.  A text is read digit by digit and spells the
number that it spells, however many zeros it starts with, as long as 64 bits hold the number.  A
numeral is read by the reader of JSON texts, for which the same digits are a whole number up to the
same limit and a floating-point number from there on.  A floating-point number is no whole number
whatever its value is, and neither is a number with a minus sign, not even zero.

Reference: specification, §3.2 (numeric strings are accepted where a number is needed).

## Main definition

* `Spells` — the texts of a whole number.

## Main statements

* `natural?_string_eq_some_iff`, `natural?_string_eq_none_iff` — the texts that are taken for a
  number and for nothing;
* `value_of_lt` — digits of a number that 64 bits hold are read as that number;
* `natural?_of_le`, `natural?_of_minus` — all other digits are taken for no number.
-/

namespace TestFlow.Json

open Reader

/-! ## Texts -/

/-- A text spells a whole number: decimal digits, of which there is at least one, perhaps behind a
plus sign. -/
inductive Spells : List Char → Nat → Prop
  | plain {digits : List Char} (hne : digits ≠ []) (h : Decimal.Digits digits) :
      Spells digits (Nat.ofDigitChars 10 digits 0)
  | plus {digits : List Char} (hne : digits ≠ []) (h : Decimal.Digits digits) :
      Spells ('+' :: digits) (Nat.ofDigitChars 10 digits 0)

theorem not_spells_nil (n : Nat) : ¬Spells [] n := by
  rintro ⟨hne, -⟩
  exact hne rfl

/-- Digits have the value that they have in base ten. -/
theorem digitsValue_eq (digits : List Char) :
    digitsValue digits = Nat.ofDigitChars 10 digits 0 := by
  simp [digitsValue, Nat.ofDigitChars_eq_foldl, Reader.digitValue, Nat.mul_comm]

/-- The number that digits alone are taken for. -/
def ofDigits? (digits : List Char) : Option Nat :=
  if digits.isEmpty || !digits.all Char.isDigit then none
  else if digitsValue digits < wordLimit then some (digitsValue digits) else none

/-- Digits are taken for their value, if there are any and 64 bits hold it. -/
theorem ofDigits?_eq_some_iff {digits : List Char} {n : Nat} :
    ofDigits? digits = some n ↔ digits ≠ [] ∧ Decimal.Digits digits ∧
      Nat.ofDigitChars 10 digits 0 = n ∧ n < wordLimit := by
  -- The test in front is that there are digits and nothing else.
  have hnot : (digits.isEmpty || !digits.all Char.isDigit) = true ↔
      ¬(digits ≠ [] ∧ Decimal.Digits digits) := by
    simp only [Bool.or_eq_true, List.isEmpty_iff, Bool.not_eq_true', ← Bool.not_eq_true,
      List.all_eq_true, Decimal.Digits, ne_eq, not_and_or, not_not]
  rw [ofDigits?, digitsValue_eq]
  by_cases hdigits : digits ≠ [] ∧ Decimal.Digits digits
  · rw [if_neg (fun h => hnot.mp h hdigits)]
    constructor
    · intro h
      split at h
      · rename_i hlt
        obtain rfl := Option.some.inj h
        exact ⟨hdigits.1, hdigits.2, rfl, hlt⟩
      · cases h
    · rintro ⟨-, -, rfl, hlt⟩
      exact if_pos hlt
  · rw [if_pos (hnot.mpr hdigits)]
    constructor
    · intro h
      cases h
    · rintro ⟨hne, hall, -⟩
      exact absurd ⟨hne, hall⟩ hdigits

theorem naturalOf?_plus (digits : List Char) : naturalOf? ('+' :: digits) = ofDigits? digits :=
  rfl

/-- Without a plus sign, all of a text must be digits. -/
theorem naturalOf?_of_ne {c : Char} (hc : c ≠ '+') (cs : List Char) :
    naturalOf? (c :: cs) = ofDigits? (c :: cs) := by
  rw [naturalOf?]
  · rfl
  · rintro rest heq
    exact hc (List.cons.inj heq).1

/-- The texts that are taken for a number of 64 bits. -/
theorem naturalOf?_eq_some_iff {cs : List Char} {n : Nat} :
    naturalOf? cs = some n ↔ Spells cs n ∧ n < wordLimit := by
  constructor
  · intro h
    cases cs with
    | nil => cases h
    | cons c cs =>
        by_cases hc : c = '+'
        · rw [hc, naturalOf?_plus] at h
          rw [hc]
          obtain ⟨hne, hall, rfl, hlt⟩ := ofDigits?_eq_some_iff.mp h
          exact ⟨.plus hne hall, hlt⟩
        · rw [naturalOf?_of_ne hc] at h
          obtain ⟨hne, hall, rfl, hlt⟩ := ofDigits?_eq_some_iff.mp h
          exact ⟨.plain hne hall, hlt⟩
  · rintro ⟨hspells, hlt⟩
    cases hspells with
    | plus hne hall =>
        rw [naturalOf?_plus]
        exact ofDigits?_eq_some_iff.mpr ⟨hne, hall, rfl, hlt⟩
    | plain hne hall =>
        obtain ⟨d, ds, rfl⟩ := List.exists_cons_of_ne_nil hne
        -- A digit is no plus sign, so the two ways of spelling do not meet.
        have hd : d ≠ '+' := by
          rintro rfl
          exact absurd (Decimal.digits_cons.mp hall).1 (by decide)
        rw [naturalOf?_of_ne hd]
        exact ofDigits?_eq_some_iff.mpr ⟨hne, hall, rfl, hlt⟩

theorem natural?_of_isBlank {s : String} (h : Text.isBlank s = true) :
    natural? (.string s) = .ok none :=
  lenient_natural (.string s) h

/-- A text is taken for the number that it spells between the blanks around it. -/
theorem natural?_of_spells {s : String} {n : Nat} (h : Spells (Text.trim s.toList) n)
    (hn : n < wordLimit) : natural? (.string s) = .ok (some n) := by
  have hpresent : ¬(Json.string s).isAbsent = true := by
    intro hblank
    rw [Text.trim_eq_nil_iff.mpr (Text.isBlank_iff.mp hblank)] at h
    exact not_spells_nil n h
  rw [natural?, if_neg hpresent, naturalOf?_eq_some_iff.mpr ⟨h, hn⟩]

/-- Any other text is a fault. -/
theorem natural?_of_not_spells {s : String} (hblank : Text.isBlank s = false)
    (h : ¬∃ n, Spells (Text.trim s.toList) n ∧ n < wordLimit) :
    natural? (.string s) = .error (.notNaturalText s) := by
  have hnone : naturalOf? (Text.trim s.toList) = none :=
    Option.eq_none_iff_forall_ne_some.mpr fun n hn => h ⟨n, naturalOf?_eq_some_iff.mp hn⟩
  have hpresent : ¬(Json.string s).isAbsent = true := by
    rw [Json.isAbsent, hblank]
    exact Bool.false_ne_true
  rw [natural?, if_neg hpresent, hnone]

/-- A text is taken for nothing, for the number it spells, or for a fault. -/
theorem natural?_string_cases (s : String) :
    (Text.isBlank s = true ∧ natural? (.string s) = .ok none) ∨
      (∃ n, Spells (Text.trim s.toList) n ∧ n < wordLimit ∧ natural? (.string s) = .ok (some n)) ∨
      (Text.isBlank s = false ∧ (¬∃ n, Spells (Text.trim s.toList) n ∧ n < wordLimit) ∧
        natural? (.string s) = .error (.notNaturalText s)) := by
  by_cases hspells : ∃ n, Spells (Text.trim s.toList) n ∧ n < wordLimit
  · obtain ⟨n, hn, hlt⟩ := hspells
    exact Or.inr (Or.inl ⟨n, hn, hlt, natural?_of_spells hn hlt⟩)
  · cases hblank : Text.isBlank s with
    | true => exact Or.inl ⟨rfl, natural?_of_isBlank hblank⟩
    | false => exact Or.inr (Or.inr ⟨rfl, hspells, natural?_of_not_spells hblank hspells⟩)

/-- Exactly the texts that spell a number of 64 bits are taken for it. -/
theorem natural?_string_eq_some_iff {s : String} {n : Nat} :
    natural? (.string s) = .ok (some n) ↔ Spells (Text.trim s.toList) n ∧ n < wordLimit := by
  refine ⟨fun h => ?_, fun h => natural?_of_spells h.1 h.2⟩
  rcases natural?_string_cases s with ⟨-, hnone⟩ | ⟨m, hm, hlt, hsome⟩ | ⟨-, -, herror⟩
  · rw [hnone] at h
    cases h
  · rw [hsome] at h
    cases h
    exact ⟨hm, hlt⟩
  · rw [herror] at h
    cases h

/-- Exactly the blank texts are taken for nothing. -/
theorem natural?_string_eq_none_iff {s : String} :
    natural? (.string s) = .ok none ↔ Text.isBlank s = true := by
  refine ⟨fun h => ?_, natural?_of_isBlank⟩
  rcases natural?_string_cases s with ⟨hblank, -⟩ | ⟨m, -, -, hsome⟩ | ⟨-, -, herror⟩
  · exact hblank
  · rw [hsome] at h
    cases h
  · rw [herror] at h
    cases h

/-- Exactly the others are faults. -/
theorem natural?_string_eq_error_iff {s : String} :
    (∃ e, natural? (.string s) = .error e) ↔
      Text.isBlank s = false ∧ ¬∃ n, Spells (Text.trim s.toList) n ∧ n < wordLimit := by
  refine ⟨?_, fun h => ⟨_, natural?_of_not_spells h.1 h.2⟩⟩
  rintro ⟨e, h⟩
  rcases natural?_string_cases s with ⟨-, hnone⟩ | ⟨m, -, -, hsome⟩ | ⟨hblank, hspells, -⟩
  · rw [hnone] at h
    cases h
  · rw [hsome] at h
    cases h
  · exact ⟨hblank, hspells⟩

/-! ## Numbers -/

/-- A number is taken for the whole number that it is. -/
theorem natural?_of_toNat? {n : Number} {value : Nat} (h : n.toNat? = some value) :
    natural? (.number n) = .ok (some value) := by
  rw [natural?, if_neg (by exact Bool.false_ne_true)]
  simp only [h]

/-- A number that is no whole number is a fault. -/
theorem natural?_of_toNat?_eq_none {n : Number} (h : n.toNat? = none) :
    natural? (.number n) = .error (.notNatural n) := by
  rw [natural?, if_neg (by exact Bool.false_ne_true)]
  simp only [h]

/-- A whole number without a sign is one of 64 bits. -/
theorem toNat?_integer {value : Nat} (fits : FitsWord value) :
    (Number.integer value fits).toNat? = some value := by
  rw [Number.toNat?, if_pos (Int.natCast_nonneg value), Int.toNat_natCast]

/-- No number with a minus sign is a whole number without one. -/
theorem toNat?_wholeNumber_negative (significand : Nat) :
    (wholeNumber true significand).toNat? = none := by
  unfold Reader.wholeNumber
  extract_lets value
  split
  · rfl
  · rename_i hzero
    split
    · rename_i fits
      -- Zero with a minus sign is a floating-point number, so what is left is less than zero.
      have hvalue : value = -significand := if_pos rfl
      have hpos : significand ≠ 0 := fun h => hzero ⟨rfl, h⟩
      exact if_neg (by omega)
    · rfl

/-! ## Numerals -/

/-- A value that begins with a minus sign is a numeral. -/
theorem value_of_minus (fuel depth : Nat) (cs : List Char) :
    value fuel depth ('-' :: cs) = (numeral true cs).map ofNumeral := by
  rw [← scalar_of_minus]
  cases depth <;> exact valueAround_of_skipSpace (skipSpace_cons rfl cs) (by decide) (by decide)

/-- A value that begins with a digit is a numeral. -/
theorem value_of_digit (fuel depth : Nat) {d : Char} (hd : d.isDigit = true) (cs : List Char) :
    value fuel depth (d :: cs) = (numeral false (d :: cs)).map ofNumeral := by
  have hstarts : StartsValue d := Or.inl hd
  have hskip := skipSpace_cons hstarts.isSpace_eq_false cs
  have harray : d ≠ '[' := by
    rintro rfl
    exact absurd hd (by decide)
  have hobject : d ≠ '{' := by
    rintro rfl
    exact absurd hd (by decide)
  rw [← scalar_of_digit hd]
  cases depth <;> exact valueAround_of_skipSpace hskip harray hobject

/-- So the digits of a whole part are read as a numeral. -/
theorem value_of_whole (fuel depth : Nat) {ds : List Char} (hds : Decimal.Whole ds)
    (rest : List Char) :
    value fuel depth (ds ++ rest) = (numeral false (ds ++ rest)).map ofNumeral := by
  cases hds with
  | zero => exact value_of_digit fuel depth (by decide) rest
  | digits hd _ _ => exact value_of_digit fuel depth hd _

/-- The digits of a number that 64 bits hold are read as that number, wherever they stand. -/
theorem value_of_lt (fuel depth : Nat) {ds : List Char} (hds : Decimal.Whole ds)
    (hlt : Nat.ofDigitChars 10 ds 0 < wordLimit) {rest : List Char} (hrest : EndsNumber rest) :
    ∃ v, value fuel depth (ds ++ rest) = .ok (v, rest) ∧
      natural? v = .ok (some (Nat.ofDigitChars 10 ds 0)) := by
  have fits : FitsWord (Nat.ofDigitChars 10 ds 0 : Nat) := by
    unfold FitsWord
    unfold wordLimit at hlt
    omega
  have hnumber : wholeNumber false (Nat.ofDigitChars 10 ds 0) = .integer _ fits :=
    wholeNumber_eq fits rfl fun h => Bool.false_ne_true h.1
  refine ⟨.number (.integer _ fits), ?_, natural?_of_toNat? (toNat?_integer fits)⟩
  rw [value_of_whole fuel depth hds, numeral_of_lt false hds hlt hrest, hnumber]
  rfl

/-- The digits of a number that 64 bits do not hold are never taken for a number. -/
theorem natural?_of_le {fuel depth : Nat} {ds : List Char} (hds : Decimal.Whole ds)
    (hle : wordLimit ≤ Nat.ofDigitChars 10 ds 0) {rest : List Char} (hrest : EndsNumber rest)
    {v : Json} {left : List Char} (h : value fuel depth (ds ++ rest) = .ok (v, left)) :
    ∃ e, natural? v = .error e := by
  rw [value_of_whole fuel depth hds] at h
  obtain ⟨⟨n, left⟩, hread, heq⟩ := map_eq_ok.mp h
  obtain ⟨x, rfl⟩ := numeral_of_le false hds hle hrest hread
  cases heq
  exact ⟨_, natural?_of_toNat?_eq_none rfl⟩

/-- Digits behind a minus sign are never taken for a number. -/
theorem natural?_of_minus {fuel depth : Nat} {ds : List Char} (hds : Decimal.Whole ds)
    {rest : List Char} (hrest : EndsNumber rest) {v : Json} {left : List Char}
    (h : value fuel depth ('-' :: ds ++ rest) = .ok (v, left)) :
    ∃ e, natural? v = .error e := by
  rw [List.cons_append, value_of_minus] at h
  obtain ⟨⟨n, left⟩, hread, heq⟩ := map_eq_ok.mp h
  have hnone : n.toNat? = none := by
    -- Up to the limit this is a whole number with a sign, and from there on a floating-point
    -- number.
    by_cases hlt : Nat.ofDigitChars 10 ds 0 < wordLimit
    · rw [numeral_of_lt true hds hlt hrest] at hread
      cases hread
      exact toNat?_wholeNumber_negative _
    · obtain ⟨x, rfl⟩ := numeral_of_le true hds (Nat.not_lt.mp hlt) hrest hread
      rfl
  cases heq
  exact ⟨_, natural?_of_toNat?_eq_none hnone⟩

end TestFlow.Json
