import Mathlib.Data.List.DropRight
import Mathlib.Data.List.TakeWhile
import Retouch.Text.Blank

/-!
# Trimmed texts

Trimming changes nothing exactly when no blank character stands at the end in question, and what it
leaves has no blank character there. Blank characters put around a text are trimmed away again.
-/

namespace Retouch.Text

theorem trimStart_eq_self_iff {text : Text} :
    trimStart text = text ↔ ∀ c ∈ text.head?, isBlank c = false := by
  rw [trimStart, List.dropWhile_eq_self_iff]
  cases text <;> simp

theorem trimEnd_eq_self_iff {text : Text} :
    trimEnd text = text ↔ ∀ c ∈ text.getLast?, isBlank c = false := by
  change List.rdropWhile isBlank text = text ↔ _
  rw [List.rdropWhile_eq_self_iff]
  constructor
  · intro last c member
    obtain ⟨nonempty, rfl⟩ := List.mem_getLast?_eq_getLast member
    simpa using last nonempty
  · intro last nonempty
    simpa using last _ (List.getLast?_eq_some_getLast nonempty)

theorem isPrefix_trimEnd (text : Text) : trimEnd text <+: text :=
  List.rdropWhile_prefix isBlank text

theorem isBlank_getLast?_trimEnd (text : Text) :
    ∀ c ∈ (trimEnd text).getLast?, isBlank c = false :=
  trimEnd_eq_self_iff.mp (List.rdropWhile_idempotent isBlank text)

theorem isBlank_head?_trim (text : Text) : ∀ c ∈ (trim text).head?, isBlank c = false := by
  intro c member
  rcases isPrefix_trimEnd (trimStart text) with ⟨blanks, parts⟩
  have first : c ∈ (trim text ++ blanks).head? := by
    rw [List.head?_append, Option.mem_def.mp member]
    rfl
  rw [trim, parts] at first
  exact trimStart_eq_self_iff.mp (List.dropWhile_idempotent isBlank text) c first

/-- A text loses at its end blank characters only. -/
theorem trimEnd_append (text : Text) :
    ∃ blanks : Text, (∀ c ∈ blanks, isBlank c) ∧ trimEnd text ++ blanks = text :=
  ⟨List.rtakeWhile isBlank text, fun _ member => List.mem_rtakeWhile_imp member,
    List.rdropWhile_append_rtakeWhile⟩

/-- Around a trimmed text stood blank characters only. -/
theorem exists_blanks_around_trim (text : Text) :
    ∃ front back, text = front ++ trim text ++ back ∧ (∀ c ∈ front, isBlank c) ∧
      ∀ c ∈ back, isBlank c := by
  obtain ⟨back, isBack, ends⟩ := trimEnd_append (trimStart text)
  refine ⟨text.takeWhile isBlank, back, ?_,
    fun _ member => List.mem_takeWhile_imp member, isBack⟩
  have starts : text = text.takeWhile isBlank ++ trimStart text :=
    List.takeWhile_append_dropWhile.symm
  rwa [← ends, ← List.append_assoc] at starts

theorem isInfix_trim (text : Text) : trim text <:+: text :=
  (isPrefix_trimEnd _).isInfix.trans (List.dropWhile_suffix _).isInfix

theorem mem_of_mem_trim {c : Char} {text : Text} (member : c ∈ trim text) : c ∈ text :=
  (isInfix_trim text).subset member

/-- A text whose first character is not blank is trimmed at its end only. -/
theorem trim_eq_trimEnd {text : Text} (start : ∀ c ∈ text.head?, isBlank c = false) :
    trim text = trimEnd text := by
  rw [trim, trimStart_eq_self_iff.mpr start]

theorem trim_eq_self_of_ends {text : Text} (start : ∀ c ∈ text.head?, isBlank c = false)
    (stop : ∀ c ∈ text.getLast?, isBlank c = false) : trim text = text := by
  rw [trim_eq_trimEnd start]
  exact trimEnd_eq_self_iff.mpr stop

theorem trim_eq_self {text : Text} (notBlank : ∀ c ∈ text, isBlank c = false) :
    trim text = text := by
  apply trim_eq_self_of_ends
  · exact fun c member => notBlank c (List.mem_of_mem_head? member)
  · exact fun c member => notBlank c (List.mem_of_mem_getLast? member)

/-! ## Blank characters put around a text -/

theorem trimEnd_append_blanks {back : Text} (blank : ∀ c ∈ back, isBlank c) (text : Text) :
    trimEnd (text ++ back) = trimEnd text := by
  rw [trimEnd, dropEndWhile, List.reverse_append,
    List.dropWhile_append_of_pos (by simpa using blank)]
  rfl

theorem trim_around {front back : Text} (blankFront : ∀ c ∈ front, isBlank c)
    (blankBack : ∀ c ∈ back, isBlank c)
    (text : Text) : trim (front ++ text ++ back) = trim text := by
  rw [trim, trim, trimStart, List.append_assoc, List.dropWhile_append_of_pos blankFront,
    List.dropWhile_append]
  split
  · next allBlank =>
      rw [trimStart, List.isEmpty_iff.mp allBlank, List.dropWhile_eq_nil_iff.mpr blankBack]
  · exact trimEnd_append_blanks blankBack _

theorem trim_eq_nil {text : Text} (blank : ∀ c ∈ text, isBlank c) : trim text = [] := by
  have nothing := trim_around blank (List.forall_mem_nil _) []
  rw [List.append_nil, List.append_nil] at nothing
  exact nothing

theorem trim_trimEnd (text : Text) : trim (trimEnd text) = trim text := by
  rcases trimEnd_append text with ⟨blanks, areBlank, parts⟩
  have around : trim ([] ++ trimEnd text ++ blanks) = trim (trimEnd text) :=
    trim_around (by simp) areBlank _
  rw [List.nil_append, parts] at around
  exact around.symm

/-- Behind a text that ends with no blank character, only what follows it is trimmed. -/
theorem trimEnd_append_eq {front : Text} (last : ∀ c ∈ front.getLast?, isBlank c = false)
    (text : Text) :
    trimEnd (front ++ text) = front ++ trimEnd text := by
  rcases trimEnd_append text with ⟨blanks, areBlank, parts⟩
  have kept : trimEnd (front ++ trimEnd text) = front ++ trimEnd text := by
    refine trimEnd_eq_self_iff.mpr fun c member => ?_
    rw [List.getLast?_append] at member
    cases found : (trimEnd text).getLast? with
    | none => exact last c (by simpa [found] using member)
    | some d => exact isBlank_getLast?_trimEnd text c (by simpa [found] using member)
  rw [← kept]
  conv_lhs => rw [← parts, ← List.append_assoc, trimEnd_append_blanks areBlank]

end Retouch.Text
