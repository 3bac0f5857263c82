import TestFlow.Proofs.Check.Steps
import TestFlow.Proofs.Text.Basic

/-!
# Paths into the response

A field check looks at an expression on the variable that holds the response.  Whatever path the
check is given, the expression is the name of that variable with something behind it, and what comes
first there decides where the name ends (`Continues`): a field or an index leaves it as it is, and
anything else runs on from it into another name.  The latter happens to the paths that have the root
sign right before something else than a field or an index, as in `$id`, since the sign stands for
the name; in front of all other paths a dot is put where one is needed.

An expression on the response is not changed when it is taken for a path again.  Any other one is
then taken for a field of the response.  So a second pass tells the same paths apart.

Reference: specification, §4.3 (field assertions).

## Main definitions

* `variableOf` — the variable that an expression starts from;
* `OnResponse` — an expression on the response;
* `Strays` — a path that runs on from the root sign.

## Main statement

* `paths_lead_into_response` — all paths lead into the response but those that stray.
-/

namespace TestFlow.Script

/-! ## Where a name ends -/

/-- The variable that an expression starts from.  Its name ends where the test of `responsePath`
ends it, at the first point or opening bracket or at the end of the expression, so that what this
gives for a path is the response exactly if the expression is on the response.  The script language
may end an identifier before that: of `response-id` all is taken for the name here. -/
def variableOf (expression : String) : String :=
  String.ofList (expression.toList.takeWhile fun c => c != '.' && c != '[')

/-- The variable that holds the response, alone or with a field or an index behind it. -/
def OnResponse (expression : String) : Prop :=
  expression = "response" ∨ "response.".toList <+: expression.toList ∨
    "response[".toList <+: expression.toList

instance (expression : String) : Decidable (OnResponse expression) :=
  inferInstanceAs (Decidable (_ ∨ _ ∨ _))

/-- A path that has the root sign before something else than a field or an index. -/
def Strays (path : String) : Prop :=
  ∃ rest : String, Text.trimmed path = "$" ++ rest ∧ rest ≠ "" ∧
    rest.toList.head? ≠ some '.' ∧ rest.toList.head? ≠ some '['

/-- What stands behind a name leaves it as it is: nothing, a field or an index. -/
def Continues (rest : List Char) : Prop :=
  ∀ c ∈ rest.head?, c = '.' ∨ c = '['

/-- What runs on from a name starts with something else than a dot or a bracket. -/
theorem not_continues_iff {rest : List Char} :
    ¬Continues rest ↔ rest ≠ [] ∧ rest.head? ≠ some '.' ∧ rest.head? ≠ some '[' := by
  cases rest <;> simp [Continues]

/-- A path strays if what is behind its root sign runs on from it. -/
theorem strays_iff {path : String} :
    Strays path ↔ ∃ rest, Text.trim path.toList = '$' :: rest ∧ ¬Continues rest := by
  constructor
  · rintro ⟨rest, htrim, hne, hdot, hbracket⟩
    refine ⟨rest.toList, ?_, not_continues_iff.mpr ⟨by simpa using hne, hdot, hbracket⟩⟩
    simpa [Text.trimmed] using congrArg String.toList htrim
  · rintro ⟨rest, htrim, hrest⟩
    obtain ⟨hne, hdot, hbracket⟩ := not_continues_iff.mp hrest
    refine ⟨String.ofList rest, ?_, by simpa using hne, by simpa using hdot,
      by simpa using hbracket⟩
    rw [← String.toList_inj]
    simp [Text.trimmed, htrim]

/-- With something behind it, the variable makes an expression on the response exactly if its
name ends there. -/
theorem onResponse_append_iff {rest : List Char} :
    OnResponse ("response" ++ String.ofList rest) ↔ Continues rest := by
  cases rest with
  | nil => simp [OnResponse, Continues]
  | cons c rest => simp [OnResponse, Continues, ← String.toList_inj, eq_comm]

/-- With something behind it, the variable is still the one that the expression starts from
exactly if its name ends there. -/
theorem variableOf_append_eq_iff {rest : List Char} :
    variableOf ("response" ++ String.ofList rest) = "response" ↔ Continues rest := by
  cases rest with
  | nil => simp [variableOf, Continues]
  | cons c rest => simp [variableOf, Continues, ← String.toList_inj, or_iff_not_imp_left]

/-! ## The expression of a path -/

/-- The test that a path is one on the response already looks at where the name ends. -/
theorem startsAtResponse_append_iff {rest : List Char} :
    responsePath.startsAtResponse ("response".toList ++ rest) = true ↔ Continues rest := by
  cases rest with
  | nil => simp [responsePath.startsAtResponse, responseVariable, Continues]
  | cons c rest => simp [responsePath.startsAtResponse, responseVariable, Continues]

/-- What passes that test starts with the name of the variable. -/
theorem exists_append_of_startsAtResponse {cs : List Char}
    (h : responsePath.startsAtResponse cs = true) : ∃ rest, cs = "response".toList ++ rest := by
  rw [responsePath.startsAtResponse, Bool.and_eq_true, beq_iff_eq] at h
  have hsplit := List.take_append_drop responseVariable.toList.length cs
  rw [h.1] at hsplit
  exact ⟨_, hsplit.symm⟩

section Trimmed

variable {path : String} {cs : List Char} {c : Char}

theorem responsePath_of_blank (h : Text.trim path.toList = []) :
    responsePath path = "response" := by
  simp only [responsePath, h]
  rfl

/-- The root sign stands for the name of the variable. -/
theorem responsePath_of_root (h : Text.trim path.toList = '$' :: cs) :
    responsePath path = "response" ++ String.ofList cs := by
  simp only [responsePath, h]
  rfl

/-- An index is put behind the name as it is. -/
theorem responsePath_of_index (h : Text.trim path.toList = '[' :: cs) :
    responsePath path = "response" ++ String.ofList ('[' :: cs) := by
  simp only [responsePath, h]
  rfl

/-- A path that starts neither at the root sign nor with an index. -/
theorem responsePath_of_name (h : Text.trim path.toList = c :: cs) (hroot : c ≠ '$')
    (hindex : c ≠ '[') :
    responsePath path = if responsePath.startsAtResponse (c :: cs) then String.ofList (c :: cs)
      else "response" ++ String.ofList ('.' :: c :: cs) := by
  have hdot : responseVariable ++ "." ++ String.ofList (c :: cs) =
      "response" ++ String.ofList ('.' :: c :: cs) := by
    rw [← String.toList_inj]
    simp [responseVariable]
  simp only [responsePath, h]
  split
  · rename_i heq
    cases heq
  · rename_i heq
    cases heq
    exact absurd rfl hroot
  · rename_i heq
    cases heq
    exact absurd rfl hindex
  · rw [hdot]

end Trimmed

/-- The expression of a path is the name of the variable with something behind it, which leaves the
name as it is unless the path strays. -/
theorem exists_responsePath (path : String) :
    ∃ rest, responsePath path = "response" ++ String.ofList rest ∧
      (Continues rest ↔ ¬Strays path) ∧ ∀ c ∈ rest.getLast?, Text.isBlankChar c = false := by
  cases htrim : Text.trim path.toList with
  | nil =>
      refine ⟨[], by simp [responsePath_of_blank htrim], ?_, by simp⟩
      simp [strays_iff, htrim, Continues]
  | cons c cs =>
      have htight := Text.isTight_trim (htrim ▸ List.cons_ne_nil c cs)
      rw [htrim] at htight
      -- what the path ends with is not blank, and the expression ends with it as well
      have hlast : ∀ before rest : List Char, c :: cs = before ++ rest →
          ∀ d ∈ rest.getLast?, Text.isBlankChar d = false := by
        intro before rest hsplit d hd
        refine htight.last d ?_
        rw [hsplit]
        exact List.mem_getLast?_append_of_mem_getLast? hd
      -- Only a path with the root sign can stray.  All others get the name and, where none is
      -- there, a dot.
      by_cases hroot : c = '$'
      · subst hroot
        refine ⟨cs, responsePath_of_root htrim, by simp [strays_iff, htrim], ?_⟩
        exact hlast ['$'] cs rfl
      have hstays : ¬Strays path := by
        rw [strays_iff, htrim]
        rintro ⟨rest, hcons, -⟩
        exact hroot (List.cons.inj hcons).1
      by_cases hindex : c = '['
      · subst hindex
        exact ⟨'[' :: cs, responsePath_of_index htrim, by simp [hstays, Continues], htight.last⟩
      have hname := responsePath_of_name htrim hroot hindex
      cases hstarts : responsePath.startsAtResponse (c :: cs) with
      | true =>
          obtain ⟨rest, hrest⟩ := exists_append_of_startsAtResponse hstarts
          rw [hstarts, if_pos rfl, hrest, String.ofList_append, String.ofList_toList] at hname
          rw [hrest, startsAtResponse_append_iff] at hstarts
          exact ⟨rest, hname, iff_of_true hstarts hstays, hlast _ rest hrest⟩
      | false =>
          rw [hstarts, if_neg Bool.false_ne_true] at hname
          refine ⟨'.' :: c :: cs, hname, by simp [hstays, Continues], ?_⟩
          rw [List.getLast?_cons_cons]
          exact htight.last

/-- An expression that starts with the name of the variable is left as it is by a second pass
exactly if it is one on the response. -/
theorem responsePath_append_eq_iff {rest : List Char}
    (hlast : ∀ c ∈ rest.getLast?, Text.isBlankChar c = false) :
    responsePath ("response" ++ String.ofList rest) = "response" ++ String.ofList rest ↔
      Continues rest := by
  have htight : Text.IsTight ("response".toList ++ rest) := by
    refine ⟨by simp, by simp [Text.isBlankChar], ?_⟩
    cases rest with
    | nil => simp [Text.isBlankChar]
    | cons c rest =>
        rw [List.getLast?_append_of_ne_nil _ (List.cons_ne_nil c rest)]
        exact hlast
  -- Neither trimming nor the first character gets in the way: only the test for the name is left.
  have hcons : "response".toList ++ rest = 'r' :: ("esponse".toList ++ rest) := by simp
  have htext : ("response" ++ String.ofList rest).toList = "response".toList ++ rest := by simp
  have htrim : Text.trim ("response" ++ String.ofList rest).toList =
      'r' :: ("esponse".toList ++ rest) := by
    rw [htext, htight.trim_eq, hcons]
  rw [responsePath_of_name htrim (by decide) (by decide), ← hcons, ← startsAtResponse_append_iff]
  cases responsePath.startsAtResponse ("response".toList ++ rest) with
  | true =>
      rw [if_pos rfl, String.ofList_append, String.ofList_toList]
      exact iff_of_true rfl rfl
  | false =>
      -- the name and a dot have been put in front
      refine iff_of_false (fun hsame => ?_) Bool.false_ne_true
      have hlength := congrArg (fun s : String => s.toList.length) hsame
      simp only [String.toList_append, String.toList_ofList, List.length_append, List.length_cons,
        Bool.false_eq_true, if_false] at hlength
      omega

/-! ## Field checks -/

/-- Joining lines does not change where a name ends. -/
theorem continues_joinLines_iff {rest : List Char} :
    Continues (Text.joinLines rest) ↔ Continues rest := by
  fun_cases Text.joinLines rest with
  | case1 => exact Iff.rfl
  | case2 rest => simp [Continues]
  | case3 c rest hbreak =>
      cases hline : Text.isLineBreak c with
      | false => simp [Continues]
      | true =>
          -- A line break becomes a space, and neither is a dot or a bracket.
          have hc : ¬(c = '.' ∨ c = '[') := by
            rintro (rfl | rfl)
            · exact absurd hline (by decide)
            · exact absurd hline (by decide)
          simpa [Continues] using hc

/-- The expression of a path is written into a step on one line, which does not change whether it is
one on the response. -/
theorem onResponse_oneLine_iff (path : String) :
    OnResponse (Text.oneLine (responsePath path)) ↔ ¬Strays path := by
  obtain ⟨rest, hpath, hcontinues, -⟩ := exists_responsePath path
  have hname : Text.Unbroken "response".toList := by simp [Text.isLineBreak]
  rw [hpath, Text.oneLine_append_of_unbroken hname, Text.oneLine, String.toList_ofList,
    onResponse_append_iff, continues_joinLines_iff, hcontinues]

end TestFlow.Script

namespace TestFlow

open Script

/-! ## Main statement -/

/-- The expression of a path is one on the response, and is left as it is by a second pass, unless
the root sign of the path runs on into something else than a field or an index.  The expressions of
exactly those paths start from another variable and are changed by a second pass.  What a field
check looks at is the expression of its path, on one line. -/
theorem paths_lead_into_response (path : String) :
    (OnResponse (responsePath path) ↔ ¬Strays path) ∧
      (responsePath (responsePath path) = responsePath path ↔ ¬Strays path) ∧
      (variableOf (responsePath path) ≠ "response" ↔ Strays path) ∧
      ∀ (id : String) (expected : Json) (operator : Option String), ∃ verb subject sign,
        (Component.fieldCheck ⟨some path, some expected, operator⟩).steps id =
          [.instruction .and
            (verb ++ " " ++ subject ++ " " ++ sign ++ " " ++ literal expected)] ∧
        subject = Text.oneLine (responsePath path) ∧ (OnResponse subject ↔ ¬Strays path) := by
  refine ⟨?_, ?_, ?_, fun id expected operator => ?_⟩
  · obtain ⟨rest, hpath, hcontinues, -⟩ := exists_responsePath path
    rw [hpath, onResponse_append_iff, hcontinues]
  · obtain ⟨rest, hpath, hcontinues, hlast⟩ := exists_responsePath path
    rw [hpath, responsePath_append_eq_iff hlast, hcontinues]
  · obtain ⟨rest, hpath, hcontinues, -⟩ := exists_responsePath path
    rw [hpath, Ne, variableOf_append_eq_iff, hcontinues, not_not]
  · have hsteps := (Component.Compares.field path expected operator).steps_eq id
    rw [Component.words_of_ne Kind.noConfusion] at hsteps
    exact ⟨_, _, _, hsteps, rfl, onResponse_oneLine_iff path⟩

/-- A root sign that runs on into a name makes another variable, and one before an index does not.
-/
theorem root_before_name_leads_elsewhere :
    Strays " $id\t" ∧ responsePath " $id\t" = "responseid" ∧
      variableOf (responsePath " $id\t") ≠ "response" ∧
      responsePath (responsePath " $id\t") ≠ responsePath " $id\t" ∧
      ¬Strays "$[0].id" ∧ OnResponse (responsePath "$[0].id") := by
  have hstrays : Strays " $id\t" := ⟨"id", by decide, by decide, by decide, by decide⟩
  have hindex : OnResponse (responsePath "$[0].id") := by decide
  obtain ⟨-, hagain, hvariable, -⟩ := paths_lead_into_response " $id\t"
  refine ⟨hstrays, by decide, hvariable.mpr hstrays, ?_, ?_, hindex⟩
  · exact fun hsame => hagain.mp hsame hstrays
  · exact (paths_lead_into_response "$[0].id").1.mp hindex

end TestFlow
