import Mathlib.Data.List.TakeWhile
import Retouch.Proofs.Text.Classes
import Retouch.Settings

/-!
# Seeds

A seed is an integer: decimal digits of any script behind an optional minus sign, and no more of
them than are read. The test for the form of a seed lets other texts pass as well. It counts
decorated digits as digits, and it sees neither how many minus signs there are nor how many digits.
Such a text is read all the same and refused, and then there are no settings at all. In every other
environment there are settings, whatever its variables hold.
-/

namespace Retouch

namespace Integer

variable {text digits : Text} {value : Int}

/-- Whether a text is not empty and has nothing but digits in it, as far as their form goes. -/
structure IsForm (digits : Text) : Prop where
  nonempty : digits ≠ []
  areForms : ∀ c ∈ digits, Text.isDigitForm c

/-- Whether a text is a run of decimal digits that is not too long to be read. -/
structure IsRun (digits : Text) : Prop where
  nonempty : digits ≠ []
  areDigits : ∀ c ∈ digits, Text.isDigit c
  short : digits.length ≤ IntegerError.digitLimit

/-- The integer that a text stands for. -/
inductive Denotes : Text → Int → Prop where
  | plain {digits : Text} (isRun : IsRun digits) : Denotes digits (Numeral.digitsValue digits)
  /-- Digits behind a minus sign. -/
  | negative {digits : Text} (isRun : IsRun digits) :
      Denotes ('-' :: digits) (-Numeral.digitsValue digits)

/-- Whether a text looks like an integer and is none: there is more than one minus sign, or what
stands behind the signs has the form of digits only or is too long. -/
def IsLookalike (text : Text) : Prop :=
  ∃ count digits, text = List.replicate count '-' ++ digits ∧ IsForm digits ∧
    (2 ≤ count ∨ ¬IsRun digits)

theorem IsRun.isForm (isRun : IsRun digits) : IsForm digits where
  nonempty := isRun.nonempty
  areForms := by
    intro c member
    rw [Text.isDigitForm, isRun.areDigits c member, Bool.true_or]

/-! ## Reading -/

theorem withoutPadding_eq_self (notBlank : ∀ c ∈ text, Text.isBlank c = false) :
    withoutPadding text = text := by
  have kept {text : Text} (notBlank : ∀ c ∈ text, Text.isBlank c = false) :
      text.dropWhile isPadding = text := by
    cases text with
    | nil => rfl
    | cons c rest =>
        exact List.dropWhile_cons_of_neg (by simp [isPadding, notBlank c List.mem_cons_self])
  have keptEnd : text.reverse.dropWhile isPadding = text.reverse := by
    apply kept
    intro c member
    exact notBlank c (List.mem_reverse.mp member)
  rw [withoutPadding, kept notBlank, Text.dropEndWhile, keptEnd, List.reverse_reverse]

/-- There is no padding around minus signs and digits, and the first sign is the one that is
read. -/
theorem signed_of_isForm (isForm : IsForm digits) (count : Nat) :
    Numeral.signed (withoutPadding (List.replicate count '-' ++ digits)) =
      (decide (0 < count), List.replicate (count - 1) '-' ++ digits) := by
  have notPadded : withoutPadding (List.replicate count '-' ++ digits) =
      List.replicate count '-' ++ digits := by
    apply withoutPadding_eq_self
    intro c member
    rcases List.mem_append.mp member with isSign | inDigits
    · rw [List.eq_of_mem_replicate isSign]
      decide
    · exact Text.isBlank_of_isDigitForm (isForm.areForms c inDigits)
  rw [notPadded]
  cases count with
  | succ count => rfl
  | zero =>
      rcases List.exists_cons_of_ne_nil isForm.nonempty with ⟨c, rest, rfl⟩
      have here := isForm.areForms c List.mem_cons_self
      change Numeral.signed (c :: rest) = (false, c :: rest)
      unfold Numeral.signed
      split
      · next same =>
          cases same
          exact absurd here (by decide)
      · next same =>
          cases same
          exact absurd here (by decide)
      · rfl

/-- What has the form of digits has no underscores, so its digits are found up to the first that is
decorated. -/
theorem scanDigits_of_forms (areForms : ∀ c ∈ digits, Text.isDigitForm c) (afterDigit : Bool) :
    scanDigits afterDigit digits =
      (digits.takeWhile Text.isDigit, digits.dropWhile Text.isDigit) := by
  induction digits generalizing afterDigit with
  | nil => rfl
  | cons c digits ih =>
      rcases List.forall_mem_cons.mp areForms with ⟨here, later⟩
      have noUnderscore : c ≠ '_' := by
        rintro rfl
        exact absurd here (by decide)
      rw [scanDigits.eq_def, List.takeWhile_cons, List.dropWhile_cons]
      by_cases isDigit : Text.isDigit c
      · simp only [isDigit, if_true, ih later]
      · simp only [isDigit, noUnderscore, Bool.false_eq_true, false_and, if_false]

theorem read_of_isRun {negative : Bool} (isRun : IsRun digits)
    (parts : Numeral.signed (withoutPadding text) = (negative, digits)) :
    read text = .ok (if negative then -Numeral.digitsValue digits
        else Numeral.digitsValue digits) := by
  have nonempty : digits.isEmpty = false := by simpa using isRun.nonempty
  have whole : scanDigits false digits = (digits, []) := by
    rw [scanDigits_of_forms isRun.isForm.areForms, List.takeWhile_eq_self_iff.mpr isRun.areDigits,
      List.dropWhile_eq_nil_iff.mpr isRun.areDigits]
  simp only [read, parts, whole, if_neg (Nat.not_lt.mpr isRun.short), nonempty, List.isEmpty_nil,
    Bool.not_true, Bool.or_self, Bool.false_eq_true, if_false]

theorem read_of_not_isRun {negative : Bool} (isForm : IsForm digits) (notRun : ¬IsRun digits)
    (parts : Numeral.signed (withoutPadding text) = (negative, digits)) :
    ∃ error, read text = .error error := by
  simp only [read, parts, scanDigits_of_forms isForm.areForms]
  split
  · exact ⟨_, rfl⟩
  · next short =>
      split
      · exact ⟨_, rfl⟩
      · next whole =>
          have areDigits : ∀ c ∈ digits, Text.isDigit c := by
            rw [← List.dropWhile_eq_nil_iff]
            simp only [Bool.or_eq_true, not_or] at whole
            simpa using whole.2
          rw [List.takeWhile_eq_self_iff.mpr areDigits] at short
          exact absurd ⟨isForm.nonempty, areDigits, Nat.not_lt.mp short⟩ notRun

theorem read_of_denotes (denotes : Denotes text value) : read text = .ok value := by
  cases denotes with
  | plain isRun => exact read_of_isRun isRun (signed_of_isForm isRun.isForm 0)
  | negative isRun => exact read_of_isRun isRun (signed_of_isForm isRun.isForm 1)

theorem read_of_isLookalike (isLookalike : IsLookalike text) :
    ∃ error, read text = .error error := by
  rcases isLookalike with ⟨count, digits, rfl, isForm, noInteger⟩
  have parts := signed_of_isForm isForm count
  by_cases many : 2 ≤ count
  · have noDigits : scanDigits false (List.replicate (count - 1) '-' ++ digits) =
        ([], List.replicate (count - 1) '-' ++ digits) := by
      obtain ⟨more, rfl⟩ : ∃ more, count = more + 2 := Nat.exists_eq_add_of_le' many
      rfl
    simp only [read, parts, noDigits]
    exact ⟨_, rfl⟩
  · have alone : List.replicate (count - 1) '-' ++ digits = digits := by
      have noMore : count - 1 = 0 := by omega
      rw [noMore]
      rfl
    rw [alone] at parts
    exact read_of_not_isRun isForm (noInteger.resolve_left many) parts

end Integer

namespace Settings

open Integer

variable {text : Text} {value : Int}

theorem isSeedForm_iff :
    isSeedForm text ↔ ∃ count digits, text = List.replicate count '-' ++ digits ∧
      IsForm digits := by
  constructor
  · intro isForm
    simp only [isSeedForm, Bool.and_eq_true, Bool.not_eq_true', List.isEmpty_eq_false_iff,
      List.all_eq_true] at isForm
    have areSigns : text.takeWhile (· == '-') =
        List.replicate (text.takeWhile (· == '-')).length '-' := by
      rw [List.eq_replicate_iff]
      exact ⟨rfl, fun c member => by simpa using List.mem_takeWhile_imp member⟩
    have parts : text = List.replicate (text.takeWhile (· == '-')).length '-' ++
        text.dropWhile (· == '-') := by
      rw [← areSigns, List.takeWhile_append_dropWhile]
    exact ⟨_, _, parts, isForm.1, isForm.2⟩
  · rintro ⟨count, digits, rfl, isForm⟩
    have behind : (List.replicate count '-' ++ digits).dropWhile (· == '-') = digits := by
      rw [List.dropWhile_append_of_pos fun c member => by simp [List.eq_of_mem_replicate member]]
      rcases List.exists_cons_of_ne_nil isForm.nonempty with ⟨c, rest, rfl⟩
      have noSign : c ≠ '-' := by
        rintro rfl
        exact absurd (isForm.areForms '-' List.mem_cons_self) (by decide)
      exact List.dropWhile_cons_of_neg (by simpa using noSign)
    have nonempty : digits.isEmpty = false := by simpa using isForm.nonempty
    simp only [isSeedForm, behind, nonempty, List.all_eq_true.mpr isForm.areForms, Bool.not_false,
      Bool.and_self]

theorem seedOf_of_denotes (denotes : Denotes text value) : seedOf text = .ok (some value) := by
  have isForm : isSeedForm text := by
    rw [isSeedForm_iff]
    cases denotes with
    | plain isRun => exact ⟨0, _, rfl, isRun.isForm⟩
    | negative isRun => exact ⟨1, _, rfl, isRun.isForm⟩
  rw [seedOf, if_pos isForm, read_of_denotes denotes]
  rfl

theorem seedOf_of_isLookalike (isLookalike : IsLookalike text) :
    ∃ error, seedOf text = .error error := by
  have isForm : isSeedForm text := by
    rcases isLookalike with ⟨count, digits, parts, isForm, -⟩
    exact isSeedForm_iff.mpr ⟨count, digits, parts, isForm⟩
  rcases read_of_isLookalike isLookalike with ⟨error, refused⟩
  refine ⟨error, ?_⟩
  rw [seedOf, if_pos isForm, refused]
  rfl

/-- A text of the form of a seed is one, or it only looks like one. -/
theorem denotes_or_isLookalike (isSeedForm : isSeedForm text) : (∃ value, Denotes text value) ∨
    IsLookalike text := by
  rcases isSeedForm_iff.mp isSeedForm with ⟨count, digits, rfl, isForm⟩
  by_cases isRun : IsRun digits
  · match count with
    | 0 => exact .inl ⟨_, .plain isRun⟩
    | 1 => exact .inl ⟨_, .negative isRun⟩
    | count + 2 => exact .inr ⟨count + 2, digits, rfl, isForm, .inl (by omega)⟩
  · exact .inr ⟨count, digits, rfl, isForm, .inr isRun⟩

/-- Unless a text only looks like a seed, the seed is the integer that it stands for, and there is
none if it stands for none. -/
theorem seedOf_eq_ok (noLookalike : ¬IsLookalike text) :
    ∃ seed, seedOf text = .ok seed ∧ ∀ value, seed = some value ↔ Denotes text value := by
  by_cases isInteger : ∃ value, Denotes text value
  · rcases isInteger with ⟨value, denotes⟩
    refine ⟨some value, seedOf_of_denotes denotes, fun other => ⟨?_, ?_⟩⟩
    · rintro ⟨⟩
      exact denotes
    · intro denotesOther
      have same := (seedOf_of_denotes denotes).symm.trans (seedOf_of_denotes denotesOther)
      exact Except.ok.inj same
  · have noForm : ¬isSeedForm text := by
      intro isForm
      exact (denotes_or_isLookalike isForm).elim isInteger noLookalike
    refine ⟨none, if_neg noForm, fun value => ⟨?_, ?_⟩⟩
    · rintro ⟨⟩
    · intro denotes
      exact absurd ⟨value, denotes⟩ isInteger

/-- There are settings in an environment, with a side of at least one and with the integer that its
variable stands for as the seed, exactly if this variable does not hold what only looks like an
integer. If it does, reading the settings fails. -/
theorem ofEnvironment_iff (environment : Environment) :
    ((∃ settings, ofEnvironment environment = .ok settings ∧ 1 ≤ settings.maxDimension ∧
        ∀ value, settings.seed = some value ↔
          Denotes (environment.trimmed seedVariable) value) ↔
      ¬IsLookalike (environment.trimmed seedVariable)) ∧
    ((∃ error, ofEnvironment environment = .error error) ↔
        IsLookalike (environment.trimmed seedVariable)) := by
  by_cases isLookalike : IsLookalike (environment.trimmed seedVariable)
  · rcases seedOf_of_isLookalike isLookalike with ⟨error, refused⟩
    have fails : ofEnvironment environment = .error error := by
      rw [ofEnvironment, refused]
      rfl
    rw [fails]
    simp [isLookalike]
  · rcases seedOf_eq_ok isLookalike with ⟨seed, found, isSeed⟩
    have answers : ∃ settings, ofEnvironment environment = .ok settings ∧
        1 ≤ settings.maxDimension ∧
        settings.seed = seed := by
      rw [ofEnvironment, found]
      exact ⟨_, rfl, Int.le_max_left _ _, rfl⟩
    rcases answers with ⟨settings, answers, atLeastOne, rfl⟩
    rw [answers]
    simp [isLookalike, atLeastOne, isSeed]

/-- Texts that pass for seeds and cannot be read: two minus signs, and a digit that is a
superscript. -/
theorem ofEnvironment_lookalikes :
    (∃ error, ofEnvironment [(seedVariable, "--5")] = .error error) ∧
      ∃ error, ofEnvironment [(seedVariable, "\u00B2")] = .error error :=
  ⟨⟨_, rfl⟩, ⟨_, rfl⟩⟩

end Settings

end Retouch
