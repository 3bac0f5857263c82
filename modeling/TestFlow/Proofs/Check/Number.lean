import TestFlow.Graph
import TestFlow.Proofs.Check.Steps
import TestFlow.Proofs.Json.Natural
import TestFlow.Proofs.Json.Place

/-!
# The number of a check

A check of the status expects a number, and a check of the time has one for its limit.  Both take a
number of 64 bits as text or as a numeral, under any of the names of their field, and write it as
decimal digits.  So no number is ever taken for another: what is too large or has a minus sign makes
the payload one that cannot be read.

The number has a place of its own in the payload, so a payload decodes as its number does as long as
nothing else is wrong with it (`HoldsNumber.takesNumber`).

Reference: specification, §3.2 (numeric strings are accepted where a number is needed) and §4.3
(status and response time).

## Main definitions

* `HoldsNumber` — the payloads that differ in their number alone;
* `Component.number` — the number of a check.

## Main statement

* `check_number_never_wraps` — what is taken for a number, and how it is written.
-/

namespace TestFlow

open Json (Shape Slot Spells natural?)

/-! ## The place of the number -/

/-- The expected status has a place of its own in the record of a status check. -/
theorem StatusCheck.places_number : shape.Places
    (.of "expectedStatus" ["statusCode"] natural? fun n check => { check with expected := n })
    natural? fun n check => { check with expected := n } :=
  ⟨fun _ _ => rfl, fun _ _ _ => rfl, by decide, by simp [shape]⟩

/-- The limit has a place of its own in the record of a time check. -/
theorem TimeCheck.places_number : shape.Places
    (.of "maxResponseTime" ["maxTime", "threshold"] natural? fun n check =>
      { check with limit := n })
    natural? fun n check => { check with limit := n } :=
  ⟨fun _ _ => rfl, fun _ _ _ => rfl, by decide, by simp [shape]⟩

/-- The number of a check of the status or of the time. -/
def Component.number : Component → Option Nat
  | .statusCheck check => check.expected
  | .timeCheck check => check.limit
  | _ => none

/-- A payload decodes to a component with the given number, or to one without. -/
def YieldsNumber (kind : Kind) (data : Json) (number : Option Nat) : Prop :=
  (Component.decode kind data).map Component.number = .ok number

/-- A payload does not decode. -/
def Refused (kind : Kind) (data : Json) : Prop :=
  ∃ e, Component.decode kind data = .error e

/-- The payloads of a check that differ in their number alone, which stands under a name of its
field in an object or comes first in an array. -/
inductive HoldsNumber : Kind → (Json → Json) → Prop
  | status {key : String} (hkey : key ∈ ["expectedStatus", "statusCode"])
      (before after : List (String × Json)) :
      HoldsNumber .statusCheck fun v => .object (before ++ (key, v) :: after)
  | statusItem (after : List Json) : HoldsNumber .statusCheck fun v => .array (v :: after)
  | time {key : String} (hkey : key ∈ ["maxResponseTime", "maxTime", "threshold"])
      (before after : List (String × Json)) :
      HoldsNumber .timeCheck fun v => .object (before ++ (key, v) :: after)
  | timeItem (after : List Json) : HoldsNumber .timeCheck fun v => .array (v :: after)

/-- A payload decodes as the number in it does. -/
structure TakesNumber (kind : Kind) (payload : Json → Json) : Prop where
  of_ok : ∀ {v : Json} {number : Option Nat}, natural? v = .ok number →
    (Component.decode kind (payload v)).map Component.number =
      (Component.decode kind (payload .null)).map fun _ => number
  of_error : ∀ {v : Json} {e : Json.DecodeError}, natural? v = .error e → Refused kind (payload v)

/-- A payload takes a number wherever a field with a place of its own may stand, if the component
has the number that is filled in there. -/
theorem takesNumber_of_places {σ : Type} {shape : Shape σ} {slot : Slot σ}
    {fill : Option Nat → σ → σ} (hplaces : shape.Places slot natural? fill) (make : σ → Component)
    (hnumber : ∀ number state, (make (fill number state)).number = number) {kind : Kind}
    {payload : Json → Json} (hholds : shape.Holds slot payload)
    (hdecode : ∀ v, Component.decode kind (payload v) = (shape.decode (payload v)).map make) :
    TakesNumber kind payload where
  of_ok {v number} hv := by
    rw [hdecode, hdecode, hplaces.decode_of_holds hholds hv (w := .null) rfl]
    cases shape.decode (payload .null) with
    | error e => rfl
    | ok state => exact congrArg Except.ok (hnumber number state)
  of_error {v e} hv := by
    -- The fault that counts is the first of the payload, so it may be another than that of the
    -- number.
    obtain ⟨e, he⟩ := hplaces.decode_of_error hholds hv
    refine ⟨e, ?_⟩
    rw [hdecode, he]
    rfl

/-- The payloads that differ in their number alone decode as it does. -/
theorem HoldsNumber.takesNumber {kind : Kind} {payload : Json → Json}
    (h : HoldsNumber kind payload) : TakesNumber kind payload := by
  cases h with
  | status hkey before after =>
      refine takesNumber_of_places StatusCheck.places_number .statusCheck (fun _ _ => rfl)
        (.field ?_ before after) fun _ => rfl
      simp only [List.mem_cons, List.not_mem_nil, or_false] at hkey
      rcases hkey with rfl | rfl <;> rfl
  | statusItem after =>
      exact takesNumber_of_places StatusCheck.places_number .statusCheck (fun _ _ => rfl)
        (.item [] rfl [] rfl after) fun _ => rfl
  | time hkey before after =>
      refine takesNumber_of_places TimeCheck.places_number .timeCheck (fun _ _ => rfl)
        (.field ?_ before after) fun _ => rfl
      simp only [List.mem_cons, List.not_mem_nil, or_false] at hkey
      rcases hkey with rfl | rfl | rfl <;> rfl
  | timeItem after =>
      exact takesNumber_of_places TimeCheck.places_number .timeCheck (fun _ _ => rfl)
        (.item [] rfl [] rfl after) fun _ => rfl

/-- A payload with nothing else wrong yields what its number yields. -/
theorem TakesNumber.yieldsNumber_iff {kind : Kind} {payload : Json → Json}
    (h : TakesNumber kind payload) {component : Component}
    (hrest : Component.decode kind (payload .null) = .ok component) {v : Json}
    {number : Option Nat} : YieldsNumber kind (payload v) number ↔ natural? v = .ok number := by
  -- If the number is refused, so is the payload, which then yields nothing at all.
  cases hv : natural? v with
  | error e =>
      obtain ⟨e', he⟩ := h.of_error hv
      simp [YieldsNumber, he, Except.map]
  | ok found =>
      rw [YieldsNumber, h.of_ok hv, hrest]
      exact Iff.rfl

/-- A payload with nothing else wrong is refused exactly if its number is. -/
theorem TakesNumber.refused_iff {kind : Kind} {payload : Json → Json} (h : TakesNumber kind payload)
    {component : Component} (hrest : Component.decode kind (payload .null) = .ok component)
    {v : Json} : Refused kind (payload v) ↔ ∃ e, natural? v = .error e := by
  cases hv : natural? v with
  | error e => exact ⟨fun _ => ⟨e, rfl⟩, fun _ => h.of_error hv⟩
  | ok number =>
      have hyields := (h.yieldsNumber_iff hrest).mpr hv
      obtain ⟨component, hdecode, -⟩ := Json.map_eq_ok.mp hyields
      simp [Refused, hdecode]

/-! ## The written number -/

/-- A text without decimal digits. -/
def Digitless (s : String) : Prop :=
  ∀ c ∈ s.toList, c.isDigit = false

/-- What is looked at and how it is compared are said without digits. -/
theorem digitless_comparison {subject : String} (h : subject ∈ ["responseStatus", "responseTime"])
    (comparison : Comparison) :
    Digitless ("assert" ++ " " ++ subject ++ " " ++ comparison.token) := by
  have hall : (("assert" ++ " " ++ subject ++ " " ++ comparison.token).toList.all
      fun c => !c.isDigit) = true := by
    simp only [List.mem_cons, List.not_mem_nil, or_false] at h
    -- There are two things to look at and eight signs.
    rcases h with rfl | rfl <;> cases comparison <;> rfl
  intro c hc
  simpa using List.all_eq_true.mp hall c hc

/-- A check with a number compares something with its decimal digits, and no other digit stands
before them. -/
theorem Component.compares_of_number {check : Component} {n : Nat} (h : check.number = some n) :
    ∃ subject, check.Compares subject n.repr ∧ Digitless (check.words subject) := by
  cases check with
  | statusCheck check =>
      obtain ⟨expected, operator⟩ := check
      cases h
      refine ⟨"responseStatus", .status n operator, ?_⟩
      rw [words]
      split
      · simp [Digitless]
      · exact digitless_comparison (by decide) _
  | timeCheck check =>
      obtain ⟨limit, operator⟩ := check
      cases h
      refine ⟨"responseTime", .time n operator, ?_⟩
      rw [words_of_ne Kind.noConfusion]
      exact digitless_comparison (by decide) _
  | _ => cases h

/-- The step of a check ends in the decimal digits of its number, which are the only ones in it. -/
theorem steps_of_yieldsNumber {kind : Kind} {data : Json} {n : Nat}
    (h : YieldsNumber kind data (some n)) (id : String) :
    ∃ keyword words decimal,
      Node.steps ⟨id, kind, Component.decode kind data⟩ =
        [.instruction keyword (words ++ " " ++ decimal)] ∧
      Digitless words ∧ Script.IsDecimal decimal ∧ Nat.ofDigitChars 10 decimal.toList 0 = n := by
  obtain ⟨check, hdecode, hnumber⟩ := Json.map_eq_ok.mp h
  obtain ⟨subject, hcompares, hwords⟩ := check.compares_of_number hnumber
  refine ⟨check.kind.checkKeyword, check.words subject, n.repr, ?_, hwords,
    Script.isDecimal_repr n, ?_⟩
  · rw [Node.steps, hdecode]
    exact hcompares.steps_eq id
  · rw [Nat.toList_repr, Nat.ofDigitChars_ten_toDigits]

/-! ## Main statement -/

/-- A payload with nothing else wrong yields a number from a text that spells one which 64 bits
hold, and none from a blank text; every other text is refused.  It yields the same number from its
digits as a numeral, wherever they are read.  A numeral that 64 bits do not hold or that has a minus
sign is refused.  The step of a check ends in the decimal digits of the number that its payload
yields. -/
theorem check_number_never_wraps {kind : Kind} {payload : Json → Json}
    (hpayload : HoldsNumber kind payload) :
    ((∃ component, Component.decode kind (payload .null) = .ok component) →
      (∀ s n, YieldsNumber kind (payload (.string s)) (some n) ↔
        Spells (Text.trim s.toList) n ∧ n < wordLimit) ∧
      (∀ s, YieldsNumber kind (payload (.string s)) none ↔ Text.isBlank s = true) ∧
      (∀ s, Refused kind (payload (.string s)) ↔
        Text.isBlank s = false ∧ ¬∃ n, Spells (Text.trim s.toList) n ∧ n < wordLimit) ∧
      ∀ digits, Decimal.Whole digits → Nat.ofDigitChars 10 digits 0 < wordLimit →
        ∀ fuel depth rest, Json.Reader.EndsNumber rest →
          ∃ v, Json.Reader.value fuel depth (digits ++ rest) = .ok (v, rest) ∧
            YieldsNumber kind (payload v) (some (Nat.ofDigitChars 10 digits 0))) ∧
    (∀ digits, Decimal.Whole digits → ∀ fuel depth rest, Json.Reader.EndsNumber rest →
      ∀ v left,
        (wordLimit ≤ Nat.ofDigitChars 10 digits 0 →
          Json.Reader.value fuel depth (digits ++ rest) = .ok (v, left) →
            Refused kind (payload v)) ∧
        (Json.Reader.value fuel depth ('-' :: digits ++ rest) = .ok (v, left) →
          Refused kind (payload v))) ∧
    ∀ v n, YieldsNumber kind (payload v) (some n) → ∀ id, ∃ keyword words decimal,
      Node.steps ⟨id, kind, Component.decode kind (payload v)⟩ =
        [.instruction keyword (words ++ " " ++ decimal)] ∧
      Digitless words ∧ Script.IsDecimal decimal ∧ Nat.ofDigitChars 10 decimal.toList 0 = n := by
  have htakes := hpayload.takesNumber
  refine ⟨?_, ?_, fun v n h id => steps_of_yieldsNumber h id⟩
  · rintro ⟨component, hrest⟩
    -- With nothing else wrong, all that is said of the payload is said of the number in it.
    simp only [htakes.yieldsNumber_iff hrest, htakes.refused_iff hrest]
    refine ⟨?_, ?_, ?_, ?_⟩
    · exact fun s n => Json.natural?_string_eq_some_iff
    · exact fun s => Json.natural?_string_eq_none_iff
    · exact fun s => Json.natural?_string_eq_error_iff
    · exact fun digits hdigits hlt fuel depth rest hends =>
        Json.value_of_lt fuel depth hdigits hlt hends
  · intro digits hdigits fuel depth rest hends v left
    refine ⟨fun hle hread => ?_, fun hread => ?_⟩
    · obtain ⟨e, he⟩ := Json.natural?_of_le hdigits hle hends hread
      exact htakes.of_error he
    · obtain ⟨e, he⟩ := Json.natural?_of_minus hdigits hends hread
      exact htakes.of_error he

/-- A check that some status is reached. -/
def statusPayload (expected : Json) : Json :=
  .object ([("operator", .string "gte")] ++ ("statusCode", expected) :: [])

/-- A sign, zeros and blanks around a number do not count; the first number that 64 bits do not
hold is refused, the last that they hold is not, and a minus sign is refused before a zero as
well. -/
theorem statusPayload_never_wraps :
    YieldsNumber .statusCheck (statusPayload (.string " +007\u00A0")) (some 7) ∧
      Node.steps ⟨"s", .statusCheck,
          Component.decode .statusCheck (statusPayload (.string " +007\u00A0"))⟩ =
        [.instruction .then "assert responseStatus >= 7"] ∧
      Refused .statusCheck (statusPayload (.string "18446744073709551616")) ∧
      (∃ v, Json.Reader.value 0 0 "18446744073709551615]".toList = .ok (v, [']']) ∧
        YieldsNumber .statusCheck (statusPayload v) (some 18446744073709551615)) ∧
      ∀ v left, Json.Reader.value 0 0 "-0,".toList = .ok (v, left) →
        Refused .statusCheck (statusPayload v) := by
  have hkey : "statusCode" ∈ ["expectedStatus", "statusCode"] := by decide
  have hholds : HoldsNumber .statusCheck statusPayload :=
    .status hkey [("operator", .string "gte")] []
  have hrest : Component.decode .statusCheck (statusPayload .null) =
      .ok (.statusCheck ⟨none, some "gte"⟩) := rfl
  obtain ⟨htext, hnumeral, -⟩ := check_number_never_wraps hholds
  obtain ⟨hsome, -, hrefused, hdigits⟩ := htext ⟨_, hrest⟩
  refine ⟨(hsome " +007\u00A0" 7).mpr ⟨?_, by decide⟩, by decide +kernel, ?_, ?_, ?_⟩
  · have hzeros : Decimal.Digits ['0', '0', '7'] := by simp [Decimal.Digits]
    exact .plus (List.cons_ne_nil _ _) hzeros
  · refine (hrefused _).mpr ⟨by decide, ?_⟩
    rintro ⟨n, hn⟩
    have hnone : Json.naturalOf? (Text.trim "18446744073709551616".toList) = none := by decide
    rw [← Json.naturalOf?_eq_some_iff, hnone] at hn
    cases hn
  · have hends : Json.Reader.EndsNumber [']'] := by simp [Json.Reader.EndsNumber]
    have hvalue : Nat.ofDigitChars 10 (Nat.toDigits 10 18446744073709551615) 0 =
        18446744073709551615 := Nat.ofDigitChars_ten_toDigits
    have htext : "18446744073709551615]".toList =
        Nat.toDigits 10 18446744073709551615 ++ [']'] := by decide
    have hread := hdigits _ (Decimal.whole_toDigits 18446744073709551615)
      (by rw [hvalue]; decide) 0 0 [']'] hends
    rw [hvalue] at hread
    rw [htext]
    exact hread
  · have hends : Json.Reader.EndsNumber [','] := by simp [Json.Reader.EndsNumber]
    exact fun v left hread => (hnumeral ['0'] .zero 0 0 [','] hends v left).2 hread

end TestFlow
