import TestFlow.Json.Basic
import TestFlow.Proofs.Text.Basic

/-!
# Written numbers are numerals

The grammar of numbers in a JSON text: an optional minus sign, a whole part without leading zeros,
an optional fraction and an optional exponent.  Every number is written by this grammar, except that
a floating-point number which is not finite is written `null`.

For whole numbers this rests on the digits of a number, which start with zero only for zero itself.
For floating-point numbers it rests on the search for the shortest decimal as well: the point of a
grid that stands for a positive number is never the zero point, so its digits do not start with zero
either, wherever the notation puts the decimal point.

Reference: specification, §3.2 (literals are kept as JSON values) and §4.3 (literals in steps).

## Main definitions

* `Digits`, `Whole` — decimal digits, and those without a leading zero;
* `Numeral` — the grammar.

## Main statement

* `numeral_or_null_text` — a written number is a numeral or `null`.
-/

namespace TestFlow

namespace Decimal

/-! ## The grammar -/

/-- A text of decimal digits. -/
def Digits (cs : List Char) : Prop :=
  ∀ c ∈ cs, c.isDigit = true

/-- A zero, or digits that do not start with zero. -/
inductive Whole : List Char → Prop
  | zero : Whole ['0']
  | digits {d : Char} {rest : List Char} (hd : d.isDigit = true) (hne : d ≠ '0')
      (hrest : Digits rest) : Whole (d :: rest)

/-- Nothing, or a point with digits behind it. -/
inductive Fraction : List Char → Prop
  | none : Fraction []
  | digits {cs : List Char} (hne : cs ≠ []) (hcs : Digits cs) : Fraction ('.' :: cs)

/-- Nothing, or a mark with an exponent, signed or not, behind it. -/
inductive Exponent : List Char → Prop
  | none : Exponent []
  | digits {mark : Char} {sign cs : List Char} (hmark : mark ∈ ['e', 'E'])
      (hsign : sign ∈ [[], ['+'], ['-']]) (hne : cs ≠ []) (hcs : Digits cs) :
      Exponent (mark :: (sign ++ cs))

/-- A number without a sign. -/
inductive Unsigned : List Char → Prop
  | parts {whole fraction exponent : List Char} (hwhole : Whole whole)
      (hfraction : Fraction fraction) (hexponent : Exponent exponent) :
      Unsigned (whole ++ (fraction ++ exponent))

/-- A number, with a minus sign or without one. -/
inductive Numeral : List Char → Prop
  | plain {cs : List Char} (h : Unsigned cs) : Numeral cs
  | negative {cs : List Char} (h : Unsigned cs) : Numeral ('-' :: cs)

/-! ## Digits -/

theorem digits_nil : Digits [] := by
  intro c hc
  cases hc

theorem digits_cons {d : Char} {cs : List Char} :
    Digits (d :: cs) ↔ d.isDigit = true ∧ Digits cs :=
  List.forall_mem_cons

theorem digits_append {cs ds : List Char} : Digits (cs ++ ds) ↔ Digits cs ∧ Digits ds :=
  List.forall_mem_append

/-- Zeros are digits. -/
theorem digits_zeros (n : Nat) : Digits (List.replicate n '0') := by
  intro c hc
  rw [List.eq_of_mem_replicate hc]
  decide

theorem Digits.take {cs : List Char} (h : Digits cs) (n : Nat) : Digits (cs.take n) :=
  fun c hc => h c (List.mem_of_mem_take hc)

theorem Digits.drop {cs : List Char} (h : Digits cs) (n : Nat) : Digits (cs.drop n) :=
  fun c hc => h c (List.mem_of_mem_drop hc)

theorem digits_toDigits (n : Nat) : Digits (Nat.toDigits 10 n) :=
  fun _ hc => Nat.isDigit_of_mem_toDigits (by decide) (by decide) hc

/-- Only zero has digits that start with zero. -/
theorem exists_toDigits_eq_cons {n : Nat} (h : 0 < n) :
    ∃ d rest, Nat.toDigits 10 n = d :: rest ∧ d ≠ '0' := by
  induction n using Nat.strongRecOn with
  | ind n ih =>
      rw [Nat.toDigits_eq_if (by decide)]
      by_cases hlt : n < 10
      · refine ⟨n.digitChar, [], if_pos hlt, ?_⟩
        have hcases : ∀ m < 10, 0 < m → m.digitChar ≠ '0' := by decide
        exact hcases n hlt h
      · -- the first digit is that of the number without its last digit
        obtain ⟨d, rest, hdigits, hd⟩ := ih (n / 10) (by omega) (by omega)
        rw [if_neg hlt, hdigits]
        exact ⟨d, rest ++ [(n % 10).digitChar], rfl, hd⟩

/-- The digits of a number are a whole part. -/
theorem whole_toDigits (n : Nat) : Whole (Nat.toDigits 10 n) := by
  rcases Nat.eq_zero_or_pos n with rfl | hpos
  · exact .zero
  · obtain ⟨d, rest, hdigits, hd⟩ := exists_toDigits_eq_cons hpos
    have hall := digits_toDigits n
    rw [hdigits, digits_cons] at hall
    rw [hdigits]
    exact .digits hall.1 hd hall.2

/-- A whole part has digits only. -/
theorem Whole.all_isDigit {cs : List Char} (h : Whole cs) : Digits cs := by
  cases h with
  | zero => exact digits_zeros 1
  | digits hd _ hrest => exact digits_cons.mpr ⟨hd, hrest⟩

theorem Whole.unsigned {cs : List Char} (h : Whole cs) : Unsigned cs := by
  simpa using Unsigned.parts h .none .none

/-! ## The shortest decimal is positive -/

/-- A grid point in the interval around a positive number is not the zero point. -/
theorem Binary.onGrid?_pos {b : Binary} {k : Int} {x : Nat} (hb : b.significand ≠ 0)
    (h : b.onGrid? k = some x) : 0 < x := by
  unfold Binary.onGrid? at h
  extract_lets quarter step low high value inside below above fromBelow fromAbove at h
  have hlow : 0 < low := by
    refine Nat.mul_pos ?_ (Nat.mul_pos (Nat.pow_pos (by decide)) (Nat.pow_pos (by decide)))
    unfold Binary.lowQuarters
    split <;> omega
  -- zero lies below the lower end of the interval
  have hinside : ∀ y, inside y = true → 0 < y := by
    intro y hy
    refine Nat.pos_of_ne_zero ?_
    rintro rfl
    simp only [inside] at hy
    split at hy <;> simp at hy
    omega
  have habove : 0 < above := Nat.succ_pos below
  -- Four cases: neither neighbour is inside, one of them is, or both are and the nearer one is
  -- taken.
  split at h
  · cases h
  · rename_i hbelow _
    obtain rfl : below = x := by simpa using h
    exact hinside below hbelow
  · obtain rfl : above = x := by simpa using h
    exact habove
  · rename_i hbelow _
    have hpos := hinside below hbelow
    split at h
    · obtain rfl : below = x := by simpa using h
      exact hpos
    · split at h
      · obtain rfl : above = x := by simpa using h
        exact habove
      · obtain rfl : (if below % 2 = 0 then below else above) = x := by simpa using h
        split <;> omega

/-- The digits of the shortest decimal are positive, unless no grid has a point for the number. -/
theorem Binary.shortest_pos_or_eq {b : Binary} (hb : b.significand ≠ 0) :
    0 < b.shortest.digits ∨ b.shortest = ⟨0, 0⟩ := by
  unfold Binary.shortest
  cases hfound : gridExponents.findSome? fun k => (b.onGrid? k).map fun x => (⟨x, k⟩ : Scaled) with
  | none => exact Or.inr rfl
  | some scaled =>
      obtain ⟨k, -, hk⟩ := List.exists_of_findSome?_eq_some hfound
      obtain ⟨x, hx, rfl⟩ := Option.map_eq_some_iff.mp hk
      exact Or.inl (Binary.onGrid?_pos hb hx)

/-! ## Notations -/

/-- An exponent is written with its sign, and with one digit at least. -/
theorem exponent_exponentText (exponent : Int) : Exponent (exponentText exponent) := by
  have hdigits := digits_toDigits exponent.natAbs
  have hne : Nat.toDigits 10 exponent.natAbs ≠ [] := Nat.toDigits_ne_nil
  have hminus : ['-'] ∈ [[], ['+'], ['-']] := by decide
  have hplus : ['+'] ∈ [[], ['+'], ['-']] := by decide
  unfold exponentText
  split
  · exact .digits (by decide) hminus hne hdigits
  · exact .digits (by decide) hplus hne hdigits

/-- Digits that do not start with zero make a number wherever the point goes among them. -/
theorem unsigned_positionalText {d : Char} {rest : List Char} (hd : d.isDigit = true)
    (hne : d ≠ '0') (hrest : Digits rest) (leading : Int) :
    Unsigned (positionalText (d :: rest) leading) := by
  have hall : Digits (d :: rest) := digits_cons.mpr ⟨hd, hrest⟩
  unfold positionalText
  split
  · -- the digits follow a zero and a point
    have hfraction : Fraction ('.' :: (List.replicate (-leading - 1).toNat '0' ++ d :: rest)) :=
      .digits (by simp) (digits_append.mpr ⟨digits_zeros _, hall⟩)
    simpa using Unsigned.parts .zero hfraction .none
  · -- the first digit stands before the point, and the whole part starts with it
    have hwhole : Whole (d :: (rest.take leading.toNat ++
        List.replicate (leading.toNat + 1 - (d :: rest).length) '0')) :=
      .digits hd hne (digits_append.mpr ⟨hrest.take _, digits_zeros _⟩)
    have hfraction : Fraction ('.' :: (if ((d :: rest).drop (leading.toNat + 1)).isEmpty then ['0']
        else (d :: rest).drop (leading.toNat + 1))) := by
      split
      · exact .digits (by simp) (digits_zeros 1)
      · rename_i hsome
        exact .digits (by simpa using hsome) (hall.drop _)
    simpa using Unsigned.parts hwhole hfraction .none

/-- Digits that do not start with zero make a number with an exponent behind them. -/
theorem unsigned_scientificText {d : Char} {rest : List Char} (hd : d.isDigit = true)
    (hne : d ≠ '0') (hrest : Digits rest) (leading : Int) :
    Unsigned (scientificText (d :: rest) leading) := by
  have hwhole : Whole [d] := .digits hd hne digits_nil
  have hexponent := exponent_exponentText leading
  cases rest with
  | nil => exact Unsigned.parts hwhole .none hexponent
  | cons e rest =>
      have hfraction : Fraction ('.' :: e :: rest) := .digits (by simp) hrest
      simpa [scientificText] using Unsigned.parts hwhole hfraction hexponent

/-- A positive decimal is a number in either notation. -/
theorem Scaled.unsigned_text {x : Scaled} (h : 0 < x.digits) : Unsigned x.text := by
  obtain ⟨d, rest, hdigits, hne⟩ := exists_toDigits_eq_cons h
  have hall := digits_toDigits x.digits
  rw [hdigits, digits_cons] at hall
  unfold Scaled.text
  rw [hdigits]
  dsimp only
  split
  · exact unsigned_positionalText hall.1 hne hall.2 _
  · exact unsigned_scientificText hall.1 hne hall.2 _

/-- Zero is written with a digit behind the point. -/
theorem unsigned_zero : Unsigned ['0', '.', '0'] :=
  .parts .zero (.digits (by simp) (digits_zeros 1)) .none

/-- The magnitude of a floating-point number is written as a number without a sign. -/
theorem Binary.unsigned_shortest {b : Binary} (hb : b.significand ≠ 0) :
    Unsigned b.shortest.text := by
  rcases Binary.shortest_pos_or_eq hb with hpos | hzero
  · exact Scaled.unsigned_text hpos
  · rw [hzero]
    exact unsigned_zero

/-- A floating-point number is written as a numeral if it is finite. -/
theorem numeral_or_null_floatText (x : Float) :
    Numeral (floatText x) ∨ floatText x = "null".toList := by
  unfold floatText
  split
  · exact Or.inr rfl
  · refine Or.inl ?_
    extract_lets bits sign magnitude
    have hmagnitude : Unsigned (if magnitude.significand = 0 then ['0', '.', '0']
        else magnitude.shortest.text) := by
      split
      · exact unsigned_zero
      · exact Binary.unsigned_shortest (by assumption)
    unfold sign
    split
    · exact .negative hmagnitude
    · exact .plain hmagnitude

end Decimal

namespace Number

open Decimal

/-- A whole number is written as a numeral. -/
theorem numeral_integerText (value : Int) : Numeral (integerText value) := by
  have hwhole := (whole_toDigits value.natAbs).unsigned
  unfold integerText
  split
  · exact .negative hwhole
  · exact .plain hwhole

/-- Every number is written as a numeral, except for those that have no written form. -/
theorem numeral_or_null_text (n : Number) : Numeral n.text ∨ n.text = "null".toList := by
  cases n with
  | integer value fits => exact Or.inl (numeral_integerText value)
  | float value => exact numeral_or_null_floatText value

end Number

/-! ## Numerals are unbroken -/

namespace Decimal

open Text

theorem Digits.unbroken {cs : List Char} (h : Digits cs) : Unbroken cs :=
  fun c hc => isLineBreak_eq_false_of (·.isDigit = true) (by decide) (by decide) (h c hc)

theorem Whole.unbroken {cs : List Char} (h : Whole cs) : Unbroken cs :=
  h.all_isDigit.unbroken

/-- A fraction has no line break. -/
theorem Fraction.unbroken {cs : List Char} (h : Fraction cs) : Unbroken cs := by
  cases h with
  | none => exact unbroken_nil
  | digits hne hcs => exact unbroken_cons.mpr ⟨by decide, hcs.unbroken⟩

/-- An exponent has no line break. -/
theorem Exponent.unbroken {cs : List Char} (h : Exponent cs) : Unbroken cs := by
  cases h with
  | none => exact unbroken_nil
  | @digits mark sign ds hmark hsign hne hds =>
      have hmark := isLineBreak_eq_false_of (· ∈ ['e', 'E']) (by decide) (by decide) hmark
      have hsign : Unbroken sign := by
        simp only [List.mem_cons, List.not_mem_nil, or_false] at hsign
        rcases hsign with rfl | rfl | rfl <;> simp [isLineBreak]
      rw [unbroken_cons, unbroken_append]
      exact ⟨hmark, hsign, hds.unbroken⟩

/-- A numeral has no line break. -/
theorem Numeral.unbroken {cs : List Char} (h : Numeral cs) : Unbroken cs := by
  have hunsigned : ∀ {ds}, Unsigned ds → Unbroken ds := by
    rintro ds ⟨hwhole, hfraction, hexponent⟩
    rw [unbroken_append, unbroken_append]
    exact ⟨hwhole.unbroken, hfraction.unbroken, hexponent.unbroken⟩
  cases h with
  | plain h => exact hunsigned h
  | negative h => exact unbroken_cons.mpr ⟨by decide, hunsigned h⟩

end Decimal

end TestFlow
