import TestFlow.Json.Reader.Values
import TestFlow.Proofs.Json.Grammar

/-!
# Strings and numbers are read back

A reader *reads back* a text if it takes the text off the front of what it is given and stops there,
whatever stands behind.  What can stand behind matters: the digits of a number go on if more digits
follow.  In a compact text a value is followed by a comma, by a closing bracket or by nothing, and
none of these goes on with a number.

Strings are read back character by character, as each written character is read as itself
(`quotedFrom_escapedChar`).  Numbers are read back because their digits have the number as their
value, and because 64 bits hold the value of the first digits if they hold that of all.

Reference: specification, §6 (the input is a JSON text).

## Main definitions

* `EndsValue` — what can stand behind a value;
* `ReadsBack` — a reader takes a text off the front.

## Main statements

* `quoted_inside` — every string is read back;
* `readsBack_integerText` — every whole number that 64 bits hold is read back.
-/

namespace TestFlow.Json.Reader

/-- What can stand behind a value in a compact text: nothing, or a comma or a closing bracket. -/
def EndsValue (rest : List Char) : Prop :=
  ∀ c ∈ rest.head?, c ∈ [',', ']', '}']

/-- A reader takes a text off the front of what is read, whatever stands behind it. -/
def ReadsBack {α : Type} (reader : Reader α) (cs : List Char) (a : α) : Prop :=
  ∀ rest, EndsValue rest → reader (cs ++ rest) = .ok (a, rest)

theorem endsValue_nil : EndsValue [] := by
  intro c hc
  cases hc

/-- A value may be followed by a comma or a closing bracket. -/
theorem endsValue_cons {c : Char} (h : c ∈ [',', ']', '}']) (rest : List Char) :
    EndsValue (c :: rest) := by
  intro d hd
  obtain rfl : c = d := by simpa using hd
  exact h

theorem ok_bind {ε α β : Type} (a : α) (f : α → Except ε β) : (Except.ok a >>= f) = f a := rfl

/-- What a reader takes off the front of a text, it reads from a text that is nothing else. -/
theorem ReadsBack.run {α : Type} {reader : Nat → Reader α} {cs : List Char} {a : α}
    (h : ReadsBack (reader cs.length) cs a) : run reader (String.ofList cs) = .ok a := by
  have hread := h [] endsValue_nil
  rw [List.append_nil] at hread
  rw [Reader.run, String.toList_ofList, whole, hread, ok_bind]
  rfl

/-! ## Strings -/

theorem hexValue?_digitChar {n : Nat} (h : n < 16) : hexValue? (Nat.digitChar n) = some n := by
  have hcases : ∀ m < 16, hexValue? (Nat.digitChar m) = some m := by decide
  exact hcases n h

/-- The escape of a control character by its number. -/
theorem escape_codePoint {n : Nat} (h : n < 0x20) (rest : List Char) :
    escape ('u' :: '0' :: '0' :: Nat.digitChar (n / 16) :: Nat.digitChar (n % 16) :: rest) =
      .ok (Char.ofNat n, 5) := by
  have hzero : hexValue? '0' = some 0 := hexValue?_digitChar (by decide : 0 < 16)
  have hunit : unit ('0' :: '0' :: Nat.digitChar (n / 16) :: Nat.digitChar (n % 16) :: rest) =
      .ok n := by
    have hvalue : 0 * 4096 + 0 * 256 + n / 16 * 16 + n % 16 = n := by omega
    have hhex : fourHex? ('0' :: '0' :: Nat.digitChar (n / 16) :: Nat.digitChar (n % 16) :: rest) =
        some (0 * 4096 + 0 * 256 + n / 16 * 16 + n % 16) := by
      simp [fourHex?, hzero, hexValue?_digitChar (show n / 16 < 16 by omega),
        hexValue?_digitChar (show n % 16 < 16 by omega)]
    rw [unit, hhex, hvalue]
  -- The number is too small for a surrogate, so it stands for itself.
  have hlow : isLowSurrogate n = false := by
    rw [isLowSurrogate, decide_eq_false (by omega), Bool.false_and]
  have hhigh : isHighSurrogate n = false := by
    rw [isHighSurrogate, decide_eq_false (by omega), Bool.false_and]
  simp [escape, unicodeChar, hunit, hlow, hhigh, bind, Except.bind]

/-- A written character is read as that character. -/
theorem quotedFrom_escapedChar (c : Char) (chars rest : List Char) :
    quotedFrom 0 chars (escapedChar c ++ rest) = quotedFrom 0 (c :: chars) rest := by
  unfold escapedChar
  split
  case h_8 _ hquote hbackslash _ _ _ _ _ =>
    split
    -- A control character without a letter of its own is written by its number; the others have a
    -- short escape or none.
    · rename_i hcontrol
      have hchar : Char.ofNat c.toNat = c := Char.ofNat_toNat c
      simp [quotedFrom, escape_codePoint hcontrol]
    · rename_i hspace
      have hcontrol : ¬isControl c = true := by simpa [isControl] using hspace
      rw [List.singleton_append, quotedFrom, if_neg hquote, if_neg hbackslash, if_neg hcontrol]
  all_goals simp [quotedFrom, escape, escapeChar?]

/-- The text of a string, apart from its opening quote. -/
theorem stringText_append (s : String) (rest : List Char) :
    stringText s ++ rest = '"' :: (s.toList.flatMap escapedChar ++ '"' :: rest) := by
  simp [stringText]

/-- Behind characters that were read before, those of a written string are read up to its closing
quote. -/
theorem quotedFrom_inside (cs chars rest : List Char) :
    quotedFrom 0 chars (cs.flatMap escapedChar ++ '"' :: rest) =
      .ok (String.ofList (chars.reverse ++ cs), rest) := by
  induction cs generalizing chars with
  | nil => simp [quotedFrom]
  | cons c cs ih =>
      rw [List.flatMap_cons, List.append_assoc, quotedFrom_escapedChar, ih, List.reverse_cons,
        List.append_assoc]
      rfl

/-- A written string is read back behind its opening quote. -/
theorem quoted_inside (s : String) (rest : List Char) :
    quoted (s.toList.flatMap escapedChar ++ '"' :: rest) = .ok (s, rest) := by
  rw [quoted, quotedFrom_inside, List.reverse_nil, List.nil_append, String.ofList_toList]

/-! ## Numbers -/

/-- Digits never make a number smaller. -/
theorem le_ofDigitChars (ds : List Char) (init : Nat) : init ≤ Nat.ofDigitChars 10 ds init := by
  rw [Nat.ofDigitChars_eq_foldl]
  induction ds generalizing init with
  | nil => exact Nat.le_refl init
  | cons d ds ih =>
      rw [List.foldl_cons]
      exact Nat.le_trans (by omega) (ih _)

/-- Each digit makes ten times as much of the digits before it and adds its own value. -/
theorem ofDigitChars_cons (d : Char) (ds : List Char) (init : Nat) :
    Nat.ofDigitChars 10 (d :: ds) init = Nat.ofDigitChars 10 ds (init * 10 + digitValue d) := by
  simp [Nat.ofDigitChars_eq_foldl, digitValue, Nat.mul_comm]

/-- All digits of a number that 64 bits hold find room in the significand. -/
theorem gather_of_lt {ds : List Char} {significand : Nat}
    (h : Nat.ofDigitChars 10 ds significand < wordLimit) :
    gather significand ds = (Nat.ofDigitChars 10 ds significand, ds.length) := by
  induction ds generalizing significand with
  | nil => rfl
  | cons d ds ih =>
      rw [ofDigitChars_cons] at h
      -- The digits so far make a number that is no larger than all of them do.
      have hroom := Nat.lt_of_le_of_lt (le_ofDigitChars ds _) h
      rw [gather, if_pos hroom, ih h, ofDigitChars_cons, List.length_cons]

/-- A number that 64 bits do not hold has digits that find no room. -/
theorem gather_of_le {ds : List Char} {significand : Nat} (hsignificand : significand < wordLimit)
    (h : wordLimit ≤ Nat.ofDigitChars 10 ds significand) :
    (gather significand ds).2 < ds.length := by
  induction ds generalizing significand with
  | nil => exact absurd h (Nat.not_le.mpr hsignificand)
  | cons d ds ih =>
      rw [ofDigitChars_cons] at h
      rw [gather, List.length_cons]
      split
      · rename_i hroom
        exact Nat.succ_lt_succ (ih hroom h)
      · exact Nat.succ_pos ds.length

/-- What can stand behind the digits of a whole number: anything that does not go on with a number.
-/
def EndsNumber (rest : List Char) : Prop :=
  ∀ c ∈ rest.head?, c.isDigit = false ∧ c ∉ ['.', 'e', 'E']

/-- What ends a value ends a number. -/
theorem EndsValue.endsNumber {rest : List Char} (h : EndsValue rest) : EndsNumber rest := by
  intro c hc
  have hdividers : ∀ d ∈ [',', ']', '}'], d.isDigit = false ∧ d ∉ ['.', 'e', 'E'] := by simp
  exact hdividers c (h c hc)

/-- There is no fraction where a number ends. -/
theorem fraction?_of_endsNumber {rest : List Char} (h : EndsNumber rest) :
    fraction? rest = .ok (none, rest) := by
  unfold fraction?
  split
  · exact absurd (List.mem_cons_self) (h '.' rfl).2
  · rfl

/-- There is no exponent where a number ends. -/
theorem exponent?_of_endsNumber {rest : List Char} (h : EndsNumber rest) (significand : Nat) :
    exponent? significand rest = .ok (none, rest) := by
  cases rest with
  | nil => rfl
  | cons c rest =>
      have hmark : ¬(c = 'e' ∨ c = 'E') := by
        rintro (rfl | rfl)
        · exact absurd (by decide) (h 'e' rfl).2
        · exact absurd (by decide) (h 'E' rfl).2
      rw [exponent?, if_neg hmark]

/-- No digits go on where a number ends. -/
theorem takeWhile_isDigit_of_endsNumber {rest : List Char} (h : EndsNumber rest) :
    rest.takeWhile Char.isDigit = [] ∧ rest.dropWhile Char.isDigit = rest := by
  cases rest with
  | nil => exact ⟨rfl, rfl⟩
  | cons c rest => simp [(h c rfl).1]

/-- Digits alone are a whole number if all of them find room, and a floating-point number
otherwise. -/
theorem numeral_of_whole (negative : Bool) {ds : List Char} (hds : Decimal.Whole ds)
    {rest : List Char} (hrest : EndsNumber rest) :
    numeral negative (ds ++ rest) =
      if ds.length - (gather 0 ds).2 = 0 then .ok (wholeNumber negative (gather 0 ds).1, rest)
      else
        (scaled? (gather 0 ds).1 (ds.length - (gather 0 ds).2 : Nat)).elim
          (.error (.here .numberOutOfRange rest)) fun x =>
            .ok (.float (signed negative x), rest) := by
  -- The digits are taken up to where the number ends, and there is neither a fraction nor an
  -- exponent.
  obtain ⟨htake, hdrop⟩ := takeWhile_isDigit_of_endsNumber hrest
  have hdigits := hds.all_isDigit
  have htaken : (ds ++ rest).takeWhile Char.isDigit = ds := by
    rw [List.takeWhile_append_of_pos hdigits, htake, List.append_nil]
  have hleft : (ds ++ rest).dropWhile Char.isDigit = rest := by
    rw [List.dropWhile_append_of_pos hdigits, hdrop]
  unfold numeral
  rw [htaken, hleft]
  split
  · cases hds
  · cases hds
    contradiction
  · simp [fraction?_of_endsNumber hrest, exponent?_of_endsNumber hrest, gather, bind, Except.bind]
    congr 1
    cases scaled? (gather 0 ds).1 (ds.length - (gather 0 ds).2 : Nat) <;> rfl

/-- The digits of a number that 64 bits hold are read as that number. -/
theorem numeral_of_lt (negative : Bool) {ds : List Char} (hds : Decimal.Whole ds)
    (hlt : Nat.ofDigitChars 10 ds 0 < wordLimit) {rest : List Char} (hrest : EndsNumber rest) :
    numeral negative (ds ++ rest) =
      .ok (wholeNumber negative (Nat.ofDigitChars 10 ds 0), rest) := by
  rw [numeral_of_whole negative hds hrest, gather_of_lt hlt, if_pos (Nat.sub_self _)]

/-- The digits of a number that 64 bits do not hold are read as a floating-point number, if at
all. -/
theorem numeral_of_le (negative : Bool) {ds : List Char} (hds : Decimal.Whole ds)
    (hle : wordLimit ≤ Nat.ofDigitChars 10 ds 0) {rest : List Char} (hrest : EndsNumber rest)
    {n : Number} {left : List Char} (h : numeral negative (ds ++ rest) = .ok (n, left)) :
    ∃ x, n = .float x := by
  have hroom : (gather 0 ds).2 < ds.length := gather_of_le (by decide) hle
  rw [numeral_of_whole negative hds hrest, if_neg (by omega)] at h
  cases hscaled : scaled? (gather 0 ds).1 (ds.length - (gather 0 ds).2 : Nat) with
  | none =>
      rw [hscaled] at h
      cases h
  | some x =>
      rw [hscaled] at h
      cases h
      exact ⟨_, rfl⟩

/-- The digits of a number that 64 bits hold are read back. -/
theorem readsBack_numeral (negative : Bool) {n : Nat} (hn : n < wordLimit) :
    ReadsBack (numeral negative) (Nat.toDigits 10 n) (wholeNumber negative n) := by
  intro rest hrest
  have hvalue : Nat.ofDigitChars 10 (Nat.toDigits 10 n) 0 = n := Nat.ofDigitChars_ten_toDigits
  have hlt : Nat.ofDigitChars 10 (Nat.toDigits 10 n) 0 < wordLimit := by rwa [hvalue]
  rw [numeral_of_lt negative (Decimal.whole_toDigits n) hlt hrest.endsNumber, hvalue]

/-- A sign and digits stand for the whole number that they spell, if 64 bits hold it. -/
theorem wholeNumber_eq {negative : Bool} {significand : Nat} {value : Int} (fits : FitsWord value)
    (hvalue : (if negative then -(significand : Int) else significand) = value)
    (hzero : ¬(negative = true ∧ significand = 0)) :
    wholeNumber negative significand = .integer value fits := by
  subst hvalue
  rw [wholeNumber, if_neg hzero, dif_pos fits]

/-- A whole number is told by its sign and its magnitude. -/
theorem wholeNumber_natAbs {value : Int} (fits : FitsWord value) :
    wholeNumber (decide (value < 0)) value.natAbs = .integer value fits := by
  apply wholeNumber_eq
  · by_cases hneg : value < 0
    · rw [decide_eq_true hneg, if_pos rfl]
      omega
    · rw [decide_eq_false hneg, if_neg Bool.false_ne_true]
      omega
  · -- the only zero with a sign is a floating-point number
    rintro ⟨hneg, hzero⟩
    have hlt := of_decide_eq_true hneg
    omega

/-- The value of a numeral, with what is left behind it. -/
def ofNumeral (read : Number × List Char) : Json × List Char :=
  (.number read.1, read.2)

/-- A minus sign opens a numeral. -/
theorem scalar_of_minus (cs : List Char) :
    scalar ('-' :: cs) = (numeral true cs).map ofNumeral := by
  rw [scalar]
  cases numeral true cs <;> rfl

/-- A digit opens a numeral. -/
theorem scalar_of_digit {d : Char} (hd : d.isDigit = true) (cs : List Char) :
    scalar (d :: cs) = (numeral false (d :: cs)).map ofNumeral := by
  rw [scalar, if_pos hd]
  · cases numeral false (d :: cs) <;> rfl
  -- a digit is none of the characters that the other values start with
  all_goals
    rintro rfl
    exact absurd hd (by decide)

/-- A whole number that 64 bits hold is read back. -/
theorem readsBack_integerText {value : Int} (fits : FitsWord value) :
    ReadsBack scalar (Number.integerText value) (.number (.integer value fits)) := by
  intro rest hrest
  have hlt : value.natAbs < wordLimit := by
    unfold FitsWord at fits
    unfold wordLimit
    omega
  have hnumber := wholeNumber_natAbs fits
  unfold Number.integerText
  by_cases hneg : value < 0
  · rw [decide_eq_true hneg] at hnumber
    rw [if_pos hneg, List.cons_append, scalar_of_minus, readsBack_numeral true hlt rest hrest,
      hnumber]
    rfl
  · rw [decide_eq_false hneg] at hnumber
    have hread := readsBack_numeral false hlt rest hrest
    have hdigits := Decimal.digits_toDigits value.natAbs
    have hne : Nat.toDigits 10 value.natAbs ≠ [] := Nat.toDigits_ne_nil
    obtain ⟨d, ds, hcons⟩ := List.exists_cons_of_ne_nil hne
    rw [hcons] at hread hdigits
    rw [if_neg hneg, hcons, List.cons_append, scalar_of_digit (Decimal.digits_cons.mp hdigits).1,
      ← List.cons_append, hread, hnumber]
    rfl

/-! ## First characters -/

/-- The characters that a value can start with. -/
def StartsValue (c : Char) : Prop :=
  c.isDigit = true ∨ c ∈ ['n', 't', 'f', '"', '-', '[', '{']

instance (c : Char) : Decidable (StartsValue c) :=
  inferInstanceAs (Decidable (_ ∨ _))

/-- What a value starts with is none of the other characters. -/
theorem StartsValue.ne {c d : Char} (h : StartsValue c) (hd : ¬StartsValue d) : c ≠ d := by
  rintro rfl
  exact hd h

/-- No value starts with space. -/
theorem StartsValue.isSpace_eq_false {c : Char} (h : StartsValue c) : isSpace c = false := by
  have hspace : c ≠ ' ' := h.ne (by decide)
  have hfeed : c ≠ '\n' := h.ne (by decide)
  have htab : c ≠ '\t' := h.ne (by decide)
  have hreturn : c ≠ '\r' := h.ne (by decide)
  simp [isSpace, hspace, hfeed, htab, hreturn]

/-- A numeral starts with a digit or a minus sign. -/
theorem exists_cons_of_numeral {cs : List Char} (h : Decimal.Numeral cs) :
    ∃ c rest, cs = c :: rest ∧ (c.isDigit = true ∨ c = '-') := by
  rcases h with ⟨hwhole, -, -⟩ | -
  · cases hwhole with
    | zero => exact ⟨'0', _, rfl, by decide⟩
    | digits hd => exact ⟨_, _, rfl, Or.inl hd⟩
  · exact ⟨'-', _, rfl, Or.inr rfl⟩

/-- Every JSON text starts like a value. -/
theorem exists_cons_of_grammar {cs : List Char} (h : Grammar .value cs) :
    ∃ c rest, cs = c :: rest ∧ StartsValue c := by
  cases h with
  | number h =>
      obtain ⟨c, rest, rfl, hdigit | rfl⟩ := exists_cons_of_numeral h
      · exact ⟨c, rest, rfl, Or.inl hdigit⟩
      · exact ⟨'-', rest, rfl, by decide⟩
  | string h =>
      obtain ⟨-⟩ := h
      exact ⟨'"', _, rfl, by decide⟩
  | _ => exact ⟨_, _, rfl, by decide⟩

theorem exists_text_eq_cons (v : Json) : ∃ c rest, v.text = c :: rest ∧ StartsValue c :=
  exists_cons_of_grammar v.grammar_text

/-- Where no space stands, none is skipped. -/
theorem skipSpace_cons {c : Char} (h : isSpace c = false) (cs : List Char) :
    skipSpace (c :: cs) = c :: cs :=
  List.dropWhile_cons_of_neg (by rw [h]; decide)

/-- In front of the text of a value there is no space to skip. -/
theorem skipSpace_text (v : Json) (rest : List Char) :
    skipSpace (v.text ++ rest) = v.text ++ rest := by
  obtain ⟨c, cs, htext, hc⟩ := exists_text_eq_cons v
  rw [htext, List.cons_append, skipSpace_cons hc.isSpace_eq_false]

end TestFlow.Json.Reader
