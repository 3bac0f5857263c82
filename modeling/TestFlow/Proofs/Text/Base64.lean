import TestFlow.Text.Basic
import Mathlib.Algebra.Ring.Nat

/-!
# Base64 is read back

The reader of Base64 takes four characters at a time.  It knows the digits by their ranges, and not
by the table that they are written from.  A last group may end in padding, and the bits that the
padding leaves over must be zero.

The digits of a 24-bit number have that number as their value (`number?_quad`), and the first two or
three of them what is left of the number without its last twelve or six bits.  So a full group is
read as its three bytes, whatever stands behind it, and a last group of one or two bytes as these.

Reference: specification, §4.3 (basic auth) and §10.5 (Base64).

## Main definitions

* `value?` — the value of a digit;
* `decode?` — the reader;
* `IsCodeChar` — the characters of a written form.

## Main statements

* `decode?_encode` — every sequence of bytes is read back;
* `length_encode` — three bytes take four characters, and so does what is left at the end.
-/

namespace TestFlow.Text.Base64

/-! ## The reader -/

def value? (c : Char) : Option Nat :=
  if c.isUpper then some (c.toNat - 'A'.toNat)
  else if c.isLower then some (c.toNat - 'a'.toNat + 26)
  else if c.isDigit then some (c.toNat - '0'.toNat + 52)
  else if c = '+' then some 62
  else if c = '/' then some 63
  else none

/-- The number of a few digits, six bits each, most significant first. -/
def number? (cs : List Char) : Option Nat :=
  cs.foldlM (fun number c => (value? c).map fun value => number * 64 + value) 0

/-- The byte of a number that is shifted to the right. -/
def byteAt (number shift : Nat) : UInt8 :=
  UInt8.ofNat (number / 2 ^ shift)

/-- Reads the characters before the padding of a last group, of which the third may be padding
too. -/
def decodeLast? (a b c : Char) : Option (List UInt8) :=
  if c = '=' then do
    let number ← number? [a, b]
    if number % 16 = 0 then some [byteAt number 4] else none
  else do
    let number ← number? [a, b, c]
    if number % 4 = 0 then some [byteAt number 10, byteAt number 2] else none

/-- Reads the written form of a sequence of bytes. -/
def decode? : List Char → Option (List UInt8)
  | [] => some []
  | a :: b :: c :: d :: rest =>
    if d = '=' then
      if rest.isEmpty then decodeLast? a b c else none
    else do
      let number ← number? [a, b, c, d]
      let bytes ← decode? rest
      some (byteAt number 16 :: byteAt number 8 :: byteAt number 0 :: bytes)
  | _ => none

/-- The characters of a written form: letters, digits, two marks, and the padding. -/
def IsCodeChar (c : Char) : Prop :=
  c.isAlphanum = true ∨ c = '+' ∨ c = '/' ∨ c = '='

/-! ## Digits -/

/-- A digit that was written for a value has this value. -/
theorem value?_digit {value : Nat} (h : value < 64) : value? (digit value) = some value := by
  have hcases : ∀ v < 64, value? (digit v) = some v := by decide +kernel
  exact hcases value h

/-- No digit is taken for padding. -/
theorem digit_ne_padding {value : Nat} (h : value < 64) : digit value ≠ '=' := by
  intro heq
  have hnone : value? '=' = none := rfl
  rw [← heq, value?_digit h] at hnone
  cases hnone

/-- Every digit that has a value is a letter, a digit or one of the two marks. -/
theorem isCodeChar_of_value? {c : Char} {value : Nat} (h : value? c = some value) :
    IsCodeChar c := by
  have halphanum : c.isAlphanum = (c.isUpper || c.isLower || c.isDigit) := rfl
  unfold value? at h
  split at h
  · exact .inl (by simp [*])
  · split at h
    · exact .inl (by simp [*])
    · split at h
      · exact .inl (by simp [*])
      · split at h
        · exact .inr (.inl ‹_›)
        · split at h
          · exact .inr (.inr (.inl ‹_›))
          · cases h

theorem isCodeChar_digit {value : Nat} (h : value < 64) : IsCodeChar (digit value) :=
  isCodeChar_of_value? (value?_digit h)

/-! ## Groups -/

/-- The digits of a 24-bit number have it as their value, and so have the first of them. -/
theorem number?_quad (number : Nat) (h : number < 2 ^ 24) :
    number? (quad number) = some number ∧
      number? ((quad number).take 3) = some (number / 64) ∧
      number? ((quad number).take 2) = some (number / 4096) := by
  have h1 := value?_digit (show number / 262144 % 64 < 64 by omega)
  have h2 := value?_digit (show number / 4096 % 64 < 64 by omega)
  have h3 := value?_digit (show number / 64 % 64 < 64 by omega)
  have h4 := value?_digit (show number % 64 < 64 by omega)
  refine ⟨?_, ?_, ?_⟩
  · simp only [number?, quad, List.foldlM_cons, List.foldlM_nil, h1, h2, h3, h4, Option.map_some,
      Option.bind_eq_bind, Option.bind_some, Option.pure_def, Option.some_inj]
    omega
  · simp only [number?, quad, List.take_succ_cons, List.take_zero, List.foldlM_cons,
      List.foldlM_nil, h1, h2, h3, Option.map_some, Option.bind_eq_bind, Option.bind_some,
      Option.pure_def, Option.some_inj]
    omega
  · simp only [number?, quad, List.take_succ_cons, List.take_zero, List.foldlM_cons,
      List.foldlM_nil, h1, h2, Option.map_some, Option.bind_eq_bind, Option.bind_some,
      Option.pure_def, Option.some_inj]
    omega

/-- A byte is told by the eight bits at its place. -/
theorem byteAt_eq {number shift : Nat} {a : UInt8} (h : number / 2 ^ shift % 256 = a.toNat) :
    byteAt number shift = a := by
  rw [byteAt, ← UInt8.toNat_inj, UInt8.toNat_ofNat']
  exact h

/-- A full group is read as its three bytes, whatever stands behind it. -/
theorem decode?_full (a b c : UInt8) (rest : List Char) :
    decode? (quad (a.toNat * 65536 + b.toNat * 256 + c.toNat) ++ rest) =
      (decode? rest).map fun bytes => a :: b :: c :: bytes := by
  have ha := a.toNat_lt
  have hb := b.toNat_lt
  have hc := c.toNat_lt
  generalize hn : a.toNat * 65536 + b.toNat * 256 + c.toNat = n
  have hnumber := (number?_quad n (by omega)).1
  have hlast := digit_ne_padding (show n % 64 < 64 by omega)
  have hfirst : byteAt n 16 = a := byteAt_eq (by omega)
  have hsecond : byteAt n 8 = b := byteAt_eq (by omega)
  have hthird : byteAt n 0 = c := byteAt_eq (by omega)
  rw [quad] at hnumber ⊢
  simp only [List.cons_append, List.nil_append]
  -- the last character is a digit, so the group has no padding
  rw [decode?, if_neg hlast, hnumber, Option.bind_eq_bind, Option.bind_some, hfirst, hsecond,
    hthird]
  cases decode? rest with
  | none => rfl
  | some bytes => rfl

/-- A last group of two bytes is read as these. -/
theorem decode?_pair (a b : UInt8) :
    decode? ((quad (a.toNat * 65536 + b.toNat * 256)).take 3 ++ ['=']) = some [a, b] := by
  have ha := a.toNat_lt
  have hb := b.toNat_lt
  generalize hn : a.toNat * 65536 + b.toNat * 256 = n
  have hnumber := (number?_quad n (by omega)).2.1
  have hlast := digit_ne_padding (show n / 64 % 64 < 64 by omega)
  -- two bytes are sixteen bits of the eighteen, so two bits are left over
  have hzero : n / 64 % 4 = 0 := by omega
  have hfirst : byteAt (n / 64) 10 = a := byteAt_eq (by omega)
  have hsecond : byteAt (n / 64) 2 = b := byteAt_eq (by omega)
  simp only [quad, List.take_succ_cons, List.take_zero, List.cons_append, List.nil_append]
    at hnumber ⊢
  rw [decode?, if_pos rfl, List.isEmpty_nil, if_pos rfl, decodeLast?, if_neg hlast, hnumber,
    Option.bind_eq_bind, Option.bind_some, if_pos hzero, hfirst, hsecond]

/-- A last group of a single byte is read as this byte. -/
theorem decode?_single (a : UInt8) :
    decode? ((quad (a.toNat * 65536)).take 2 ++ ['=', '=']) = some [a] := by
  have ha := a.toNat_lt
  generalize hn : a.toNat * 65536 = n
  have hnumber := (number?_quad n (by omega)).2.2
  -- one byte is eight bits of the twelve, so four bits are left over
  have hzero : n / 4096 % 16 = 0 := by omega
  have hbyte : byteAt (n / 4096) 4 = a := byteAt_eq (by omega)
  simp only [quad, List.take_succ_cons, List.take_zero, List.cons_append, List.nil_append]
    at hnumber ⊢
  rw [decode?, if_pos rfl, List.isEmpty_nil, if_pos rfl, decodeLast?, if_pos rfl, hnumber,
    Option.bind_eq_bind, Option.bind_some, if_pos hzero, hbyte]

/-! ## Written forms -/

/-- Every sequence of bytes is read back. -/
theorem decode?_encode (bytes : List UInt8) : decode? (encode bytes) = some bytes := by
  fun_induction encode bytes with
  -- groups of three bytes are taken off the front until fewer are left
  | case1 => rfl
  | case2 a => exact decode?_single a
  | case3 a b => exact decode?_pair a b
  | case4 a b c rest ih => rw [decode?_full, ih, Option.map_some]

/-- Three bytes take four characters, and so does what is left at the end. -/
theorem length_encode (bytes : List UInt8) :
    (encode bytes).length = 4 * ((bytes.length + 2) / 3) := by
  fun_induction encode bytes with
  | case1 => rfl
  | case2 a => simp [quad]
  | case3 a b => simp [quad]
  | case4 a b c rest ih =>
      rw [List.length_append, ih]
      simp only [quad, List.length_cons, List.length_nil]
      omega

/-- The characters of a group are characters of a written form. -/
theorem isCodeChar_quad (number : Nat) : ∀ c ∈ quad number, IsCodeChar c := by
  have hdigit : ∀ n, IsCodeChar (digit (n % 64)) := fun n =>
    isCodeChar_digit (Nat.mod_lt n (by omega))
  simp only [quad, List.forall_mem_cons, hdigit, List.not_mem_nil, false_implies, implies_true,
    and_self]

/-- A written form has letters, digits, the two marks and padding only. -/
theorem isCodeChar_encode (bytes : List UInt8) : ∀ c ∈ encode bytes, IsCodeChar c := by
  have hpadding : IsCodeChar '=' := .inr (.inr (.inr rfl))
  have htake : ∀ number count, ∀ c ∈ (quad number).take count, IsCodeChar c :=
    fun number count c hc => isCodeChar_quad number c (List.mem_of_mem_take hc)
  fun_induction encode bytes with
  | case1 => exact List.forall_mem_nil _
  | case2 a =>
      rw [List.forall_mem_append]
      exact ⟨htake _ 2, List.forall_mem_cons.mpr ⟨hpadding, List.forall_mem_singleton.mpr hpadding⟩⟩
  | case3 a b =>
      rw [List.forall_mem_append]
      exact ⟨htake _ 3, List.forall_mem_singleton.mpr hpadding⟩
  | case4 a b c rest ih =>
      rw [List.forall_mem_append]
      exact ⟨isCodeChar_quad _, ih⟩

/-! ## Texts -/

/-- The bytes of an array, listed from a position on behind those that were listed before. -/
theorem toList_loop (bytes : ByteArray) (i : Nat) (read : List UInt8) :
    ByteArray.toList.loop bytes i read = read.reverse ++ bytes.data.toList.drop i := by
  fun_induction ByteArray.toList.loop bytes i read with
  | case1 i read hlt ih =>
      have hlength : i < bytes.data.toList.length := hlt
      have hget : bytes.get! i = bytes.data.toList[i] := getElem!_pos bytes.data i hlt
      rw [ih, List.reverse_cons, List.append_assoc, List.singleton_append, hget,
        List.getElem_cons_drop hlength]
  | case2 i read hge =>
      have hlength : bytes.data.toList.length ≤ i := Nat.le_of_not_lt hge
      rw [List.drop_eq_nil_of_le hlength, List.append_nil]

theorem toList_toUTF8 (s : String) : s.toUTF8.toList = s.toByteArray.data.toList :=
  toList_loop s.toUTF8 0 []

theorem length_toUTF8 (s : String) : s.toUTF8.toList.length = s.utf8ByteSize := by
  rw [toList_toUTF8]
  rfl

/-- Texts with the same bytes are the same. -/
theorem toUTF8_inj {s t : String} (h : s.toUTF8.toList = t.toUTF8.toList) : s = t := by
  rw [toList_toUTF8, toList_toUTF8, Array.toList_inj] at h
  exact String.toByteArray_inj.mp (ByteArray.ext h)

/-- The bytes of a text are read back from its written form. -/
theorem decode?_ofString (s : String) : decode? (ofString s).toList = some s.toUTF8.toList := by
  rw [ofString, String.toList_ofList, decode?_encode]

theorem length_ofString (s : String) :
    (ofString s).length = 4 * ((s.utf8ByteSize + 2) / 3) := by
  rw [ofString, String.length_ofList, length_encode, length_toUTF8]

theorem isCodeChar_ofString (s : String) : ∀ c ∈ (ofString s).toList, IsCodeChar c := by
  rw [ofString, String.toList_ofList]
  exact isCodeChar_encode s.toUTF8.toList

/-- Texts with the same written form are the same. -/
theorem ofString_inj {s t : String} (h : ofString s = ofString t) : s = t := by
  have hread := decode?_ofString s
  rw [h, decode?_ofString t] at hread
  exact toUTF8_inj (Option.some.inj hread).symm

end TestFlow.Text.Base64
