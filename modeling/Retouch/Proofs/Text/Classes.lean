import Retouch.Text.Blank
import Retouch.Text.Case
import Retouch.Text.Digit
import Retouch.Text.Word

/-!
# Classes of characters

There are few blank characters, so going through them shows what none of them is: a character of a
word, a letter that matches one of ASCII, or a digit of any form.
-/

namespace Retouch.Text

def codesOf (ranges : List (Nat × Nat)) : List Nat :=
  ranges.flatMap fun range => List.range' range.1 (range.2 + 1 - range.1)

theorem mem_codesOf {code : Nat} {ranges : List (Nat × Nat)} (isIn : inRanges code ranges) :
    code ∈ codesOf ranges := by
  induction ranges with
  | nil => simp [inRanges] at isIn
  | cons range ranges ih =>
      simp only [inRanges, Bool.if_false_left, Bool.and_eq_true, Bool.not_eq_true',
        decide_eq_false_iff_not, Bool.or_eq_true, decide_eq_true_eq, Nat.not_lt] at isIn
      rw [codesOf, List.flatMap_cons, List.mem_append, List.mem_range'_1]
      rcases isIn.2 with within | later
      · exact .inl ⟨isIn.1, by omega⟩
      · exact .inr (ih later)

variable {c : Char}

theorem isWordChar_of_isBlank (isBlank : isBlank c) : isWordChar c = false := by
  have blanks : ∀ code ∈ codesOf blankRanges, code ≠ '_'.toNat ∧
      inRanges code letterOrNumberRanges = false := by
    decide +kernel
  rcases blanks c.toNat (mem_codesOf isBlank) with ⟨notUnderscore, notWord⟩
  have other : c ≠ '_' := fun same => notUnderscore (by rw [same])
  simp [isWordChar, notWord, other]

theorem not_isBlank_of_isWordChar (isWord : isWordChar c) : isBlank c = false := by
  cases blank : isBlank c with
  | false => rfl
  | true => simp [isWordChar_of_isBlank blank] at isWord

theorem isAnyLetter_of_isBlank (blank : isBlank c) : isAnyLetter c = false := by
  have blanks : ∀ code ∈ codesOf blankRanges, (('a'.toNat ≤ code && code ≤ 'z'.toNat) ||
      ('A'.toNat ≤ code && code ≤ 'Z'.toNat) || [0x17F, 0x212A, 0x130, 0x131].contains code) =
          false := by
    decide +kernel
  exact blanks c.toNat (mem_codesOf blank)

theorem isBlank_of_isDigitForm (isForm : isDigitForm c) : isBlank c = false := by
  have blanks : ∀ code ∈ codesOf blankRanges,
      (zeroDigits.find? fun first => first ≤ code && code < first + 10) = none ∧
      inRanges code decoratedDigitRanges = false := by
    decide +kernel
  cases blank : isBlank c with
  | false => rfl
  | true =>
      rcases blanks c.toNat (mem_codesOf blank) with ⟨noDigit, notDecorated⟩
      simp [isDigitForm, isDigit, digitValue?, noDigit, notDecorated] at isForm

end Retouch.Text
