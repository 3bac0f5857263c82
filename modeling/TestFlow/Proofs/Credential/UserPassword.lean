import TestFlow.Proofs.Component.Sentences
import TestFlow.Proofs.Script.Literal
import TestFlow.Proofs.Text.Base64
import TestFlow.Proofs.Text.Basic

/-!
# User names and passwords are read back

A user name and a password go into one header, as the Base64 of the bytes of both with a colon
between them.  Base64 has none of the characters that quoting escapes, so it stands in the step as
it was written, and can be read back from there.

What is read back is the text with the colon.  Where the user name has no colon itself, the first
colon tells the two apart, so that different credentials have different steps.

Reference: specification, §4.3 (basic auth) and §10.5 (Base64).

## Main statement

* `UserPassword.credential_is_read_back` — the step of a credential tells its bytes.
-/

namespace TestFlow

open Script Text.Base64

/-- Base64 is quoted without escapes. -/
theorem Text.Base64.IsCodeChar.quotedChar_eq {c : Char} (h : IsCodeChar c) :
    quotedChar c = [c] := by
  have hne : ∀ d : Char, ¬IsCodeChar d → c ≠ d := by
    rintro d hd rfl
    exact hd h
  -- Four characters are escaped inside quotes, and none of them is in a code.
  have hbackslash := hne '\\' (by simp [IsCodeChar])
  have hquote := hne '\'' (by simp [IsCodeChar])
  have hlineFeed := hne '\n' (by simp [IsCodeChar])
  have hreturn := hne '\r' (by simp [IsCodeChar])
  rw [quotedChar]
  all_goals assumption

namespace UserPassword

/-- A code is quoted with the word before it as it stands. -/
theorem quote_basic {code : String} (h : ∀ c ∈ code.toList, IsCodeChar c) :
    quote ("Basic " ++ code) = "'Basic " ++ code ++ "'" := by
  have hcode : code.toList.flatMap quotedChar = code.toList := by
    rw [List.flatMap_congr fun c hc => (h c hc).quotedChar_eq]
    exact List.flatMap_singleton' code.toList
  rw [← String.toList_inj]
  simp [quote, quoteChars, quotedChar, hcode]

/-- The step of a credential. -/
theorem steps_eq (subject username password : String) :
    (Component.userPassword ⟨some username, some password⟩).steps subject =
      [.instruction .and ("header Authorization = 'Basic " ++
        ofString (username ++ ":" ++ password) ++ "'")] := by
  -- The draft is a sentence, so its step has the same text.
  show [(authorization ("Basic " ++ ofString (username ++ ":" ++ password))).step subject] = _
  have hwords : "header Authorization = 'Basic " = "header Authorization = " ++ "'Basic " := by
    decide
  rw [authorization, Draft.step, (sentence_authorization _).say_eq,
    quote_basic (isCodeChar_ofString _), hwords]
  simp only [String.append_assoc]

/-- Where the user name has no colon, the first colon divides the text of a credential. -/
theorem eq_of_joined {username password username' password' : String}
    (hcolon : ':' ∉ username.toList) (hcolon' : ':' ∉ username'.toList)
    (h : username ++ ":" ++ password = username' ++ ":" ++ password') :
    username = username' ∧ password = password' := by
  have hsplit : ∀ user word : String, ':' ∉ user.toList →
      Text.splitFirst? ':' (user ++ ":" ++ word).toList = some (user.toList, word.toList) := by
    intro user word huser
    rw [← Text.splitFirst?_append huser word.toList]
    simp
  have hparts := hsplit username password hcolon
  rw [h, hsplit username' password' hcolon', Option.some_inj, Prod.mk.injEq, String.toList_inj,
    String.toList_inj] at hparts
  exact ⟨hparts.1.symm, hparts.2.symm⟩

/-- The step of a credential sets the authorization header to the word `Basic` and a code of
letters, digits, plus signs, slashes and padding.  The code has four characters for every three
bytes of the user name, a colon and the password, and for what is left of them, and it is read back
as these bytes.  So credentials whose user names have no colon have different steps if they differ.
-/
theorem credential_is_read_back (subject username password : String) :
    (∃ code : String,
      (Component.userPassword ⟨some username, some password⟩).steps subject =
        [.instruction .and ("header Authorization = 'Basic " ++ code ++ "'")] ∧
      (∀ c ∈ code.toList, c.isAlphanum = true ∨ c = '+' ∨ c = '/' ∨ c = '=') ∧
      code.length = 4 * (((username ++ ":" ++ password).utf8ByteSize + 2) / 3) ∧
      decode? code.toList = some (username ++ ":" ++ password).toUTF8.toList) ∧
    ∀ subject' username' password', ':' ∉ username.toList → ':' ∉ username'.toList →
      (username ≠ username' ∨ password ≠ password') →
      (Component.userPassword ⟨some username, some password⟩).steps subject ≠
        (Component.userPassword ⟨some username', some password'⟩).steps subject' := by
  refine ⟨⟨_, steps_eq subject username password, isCodeChar_ofString _, length_ofString _,
    decode?_ofString _⟩, ?_⟩
  intro subject' username' password' hcolon hcolon' hdiffer heq
  -- Equal steps have equal codes, which are read back as equal texts.
  have htext : ofString (username ++ ":" ++ password) =
      ofString (username' ++ ":" ++ password') := by
    rw [steps_eq, steps_eq] at heq
    simpa [String.append_assoc, ← String.toList_inj] using heq
  obtain ⟨rfl, rfl⟩ := eq_of_joined hcolon hcolon' (ofString_inj htext)
  rcases hdiffer with hne | hne
  · exact hne rfl
  · exact hne rfl

/-- A user name of a character with two bytes, and passwords that begin with a colon. -/
theorem accented_credential_is_read_back :
    (∃ code : String,
      (Component.userPassword ⟨some "é", some ":"⟩).steps "a" =
        [.instruction .and ("header Authorization = 'Basic " ++ code ++ "'")] ∧
      code.length = 8 ∧ decode? code.toList = some [0xC3, 0xA9, 0x3A, 0x3A]) ∧
    decode? "w6k6Og==".toList = some [0xC3, 0xA9, 0x3A, 0x3A] ∧
    (Component.userPassword ⟨some "é", some ":"⟩).steps "a" ≠
      (Component.userPassword ⟨some "é", some "::"⟩).steps "b" := by
  obtain ⟨⟨code, hstep, -, hlength, hread⟩, hdiffer⟩ := credential_is_read_back "a" "é" ":"
  have hbytes : ("é" ++ ":" ++ ":").toUTF8.toList = [0xC3, 0xA9, 0x3A, 0x3A] := by
    rw [toList_toUTF8]
    decide +kernel
  rw [hbytes] at hread
  exact ⟨⟨code, hstep, hlength, hread⟩, by decide +kernel,
    hdiffer "b" "é" "::" (by decide) (by decide) (.inr (by decide))⟩

end UserPassword

end TestFlow
