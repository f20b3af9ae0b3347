import Retouch.Proofs.Command.Tokenization
import Retouch.Proofs.Number.CommandText

/-!
# Quantities and flags

A token that begins with a sign is a flag unless it is a number. Two looks decide that: a digit of
ASCII or a point behind the sign, or the token as a whole. A quantity is a number too if a percent
sign is behind it, and then only the first look can tell, which knows no digits of other scripts: a
signed percentage that begins with one is a quantity and a flag at once, and no other token is.
-/

namespace Retouch

namespace Numeral

variable {text unit : Text} {value : Binary64}

theorem exists_scan_of_quantity? (found : quantity? text = some (value, unit)) :
    ∃ numeral, scan text = some (numeral, unit) := by
  unfold quantity? at found
  split at found
  · next numeral rest scanned =>
      split at found
      · cases found
        exact ⟨numeral, scanned⟩
      · cases found
  · cases found

/-- A numeral begins, behind its sign, with a digit or a point. -/
theorem start_of_scan {numeral : Numeral} {rest : Text}
    (scanned : scan text = some (numeral, rest)) :
    ∃ c body, (signed text).2 = c :: body ∧ (Text.isDigit c ∨ c = '.') := by
  cases parts : (signed text).2 with
  | nil => simp [scan, parts, scanMantissa] at scanned
  | cons c body =>
      refine ⟨c, body, rfl, ?_⟩
      by_contra! other
      rcases other with ⟨noDigit, noPoint⟩
      have nothing : scanMantissa (c :: body) = none := by
        unfold scanMantissa
        rw [List.takeWhile_cons, List.dropWhile_cons, if_neg noDigit, if_neg noDigit]
        split
        · next same => cases same; exact absurd rfl noPoint
        · rfl
      simp [scan, parts, nothing] at scanned

/-- A quantity is a number by itself if it has no percent sign. -/
theorem isNumber_of_quantity? (found : quantity? text = some (value, unit)) :
    isNumber text = unit.isEmpty := by
  rcases exists_scan_of_quantity? found with ⟨numeral, scanned⟩
  rw [isNumber, scanned]

end Numeral

namespace Token

variable {token unit : Text} {value : Binary64}

/-- Whether a token begins with a sign and a digit of another script than ASCII. -/
def BeginsForeign (token : Text) : Prop :=
  ∃ sign digit rest, token = sign :: digit :: rest ∧ (sign = '-' ∨ sign = '+') ∧
    Text.isDigit digit ∧ Text.isAsciiDigit digit = false

theorem isFlag_iff : isFlag token ↔ ∃ sign second rest, token = sign :: second :: rest ∧
    (sign = '-' ∨ sign = '+') ∧
    Text.isAsciiDigit second = false ∧ second ≠ '.' ∧ Numeral.isNumber token = false := by
  constructor
  · intro isFlag
    unfold Token.isFlag at isFlag
    split at isFlag
    · next sign second rest =>
        exact ⟨sign, second, rest, rfl, by simpa [and_assoc] using isFlag⟩
    · cases isFlag
  · rintro ⟨sign, second, rest, rfl, isSign, noDigit, noPoint, noNumber⟩
    simp [isFlag, isSign, noDigit, noPoint, noNumber]

theorem isGroup_of_quantity? (found : Numeral.quantity? token = some (value, unit)) :
    isGroup token = false := by
  by_contra isGroup
  have nothing : Numeral.quantity? groupOpen = none ∧ Numeral.quantity? groupClose = none := by
    decide
  rcases isGroup_iff.mp (by simpa using isGroup) with rfl | rfl
  · rw [nothing.1] at found
    cases found
  · rw [nothing.2] at found
    cases found

theorem isFlag_iff_of_quantity? (found : Numeral.quantity? token = some (value, unit)) :
    isFlag token ↔ unit = ['%'] ∧ BeginsForeign token := by
  have isWhole := Numeral.isNumber_of_quantity? found
  rw [isFlag_iff]
  constructor
  · rintro ⟨sign, second, rest, rfl, isSign, noDigit, noPoint, noNumber⟩
    have isPercentage : unit = ['%'] := by
      rcases (Number.isFinite_of_quantity? found).2 with rfl | percent
      · rw [isWhole] at noNumber
        cases noNumber
      · exact percent
    refine ⟨isPercentage, sign, second, rest, rfl, isSign, ?_, noDigit⟩
    have body : (Numeral.signed (sign :: second :: rest)).2 = second :: rest := by
      rcases isSign with rfl | rfl <;> rfl
    rcases Numeral.exists_scan_of_quantity? found with ⟨numeral, scanned⟩
    rcases Numeral.start_of_scan scanned with ⟨c, _, start, isStart⟩
    rw [body] at start
    cases start
    exact isStart.resolve_right noPoint
  · rintro ⟨rfl, sign, digit, rest, rfl, isSign, isDigit, noAscii⟩
    refine ⟨sign, digit, rest, rfl, isSign, noAscii, ?_, isWhole⟩
    rintro rfl
    exact absurd isDigit (by decide)

/-- A token that is read as a quantity is taken for a flag, and not for an argument, exactly if it
is a percentage that begins with a sign and a digit of another script than ASCII. -/
theorem isArgument_iff_of_quantity? (found : Numeral.quantity? token = some (value, unit)) :
    (isFlag token ↔ unit = ['%'] ∧ BeginsForeign token) ∧
      (isArgument token ↔ ¬(unit = ['%'] ∧ BeginsForeign token)) := by
  have classes := isFlag_iff_of_quantity? found
  refine ⟨classes, ?_⟩
  rw [← classes, isArgument, isGroup_of_quantity? found]
  simp

theorem isArgument_quantity_percentages :
    (Numeral.quantity? "-50%").map Prod.snd = some ['%'] ∧ isArgument "-50%" ∧
      (Numeral.quantity? "-\u0663%").map Prod.snd = some ['%'] ∧ isFlag "-\u0663%" := by
  have plain : (Numeral.quantity? "-50%").map Prod.snd = some ['%'] := by decide +kernel
  have foreign : (Numeral.quantity? "-\u0663%").map Prod.snd = some ['%'] := by decide +kernel
  refine ⟨plain, ?_, foreign, ?_⟩
  · rcases Option.map_eq_some_iff.mp plain with ⟨⟨value, _⟩, found, rfl⟩
    apply (isArgument_iff_of_quantity? found).2.mpr
    rintro ⟨-, sign, digit, rest, parts, -, -, noAscii⟩
    cases parts
    exact absurd noAscii (by decide)
  · rcases Option.map_eq_some_iff.mp foreign with ⟨⟨value, _⟩, found, rfl⟩
    apply (isArgument_iff_of_quantity? found).1.mpr
    exact ⟨rfl, '-', '\u0663', ['%'], rfl, .inl rfl, by decide +kernel, by decide⟩

/-- A percentage that is taken for a flag. -/
theorem isFlag_foreign_percentage :
    (Numeral.quantity? "-\u0663%").isSome ∧ isFlag "-\u0663%" ∧
      isArgument "-\u0663%" = false := by
  decide +kernel

end Token

end Retouch
