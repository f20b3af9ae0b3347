import Mathlib.Data.List.TakeWhile
import Retouch.Text.Basic

/-!
# Cutting at a separator

A text is cut at the first separator, or at each one. Where a separator was put between pieces that
have none, cutting gives the pieces back. A start that is cut off is found again in front of what
was left.
-/

namespace Retouch.Text

theorem bne_of_notMem {separator : Char} {text : Text} (absent : separator ∉ text) :
    ∀ c ∈ text, (c != separator) = true := by
  intro c member
  simpa using fun same : c = separator => absent (same ▸ member)

theorem before_eq_self {separator : Char} {text : Text} (absent : separator ∉ text) :
    before separator text = text :=
  List.takeWhile_eq_self_iff.mpr (bne_of_notMem absent)

theorem notMem_before (separator : Char) (text : Text) : separator ∉ before separator text := by
  intro member
  simpa using List.mem_takeWhile_imp member

theorem before_cases (separator : Char) (text : Text) :
    before separator text = text ∨ ∃ rest, text =
      before separator text ++ separator :: rest := by
  have parts := List.takeWhile_append_dropWhile (p := (· != separator)) (l := text)
  cases dropped : text.dropWhile (· != separator) with
  | nil =>
      rw [dropped, List.append_nil] at parts
      exact .inl parts
  | cons c rest =>
      have isSeparator : c = separator := by
        have stop := List.head?_dropWhile_not (· != separator) text
        simpa [dropped] using stop
      rw [dropped, isSeparator] at parts
      exact .inr ⟨rest, parts.symm⟩

theorem before_append {separator : Char} {front : Text} (absent : separator ∉ front)
    (back : Text) :
    before separator (front ++ separator :: back) = front := by
  rw [before, List.takeWhile_append_of_pos (bne_of_notMem absent)]
  simp

theorem after?_append {separator : Char} {front : Text} (absent : separator ∉ front)
    (back : Text) :
    after? separator (front ++ separator :: back) = some back := by
  rw [after?, List.dropWhile_append_of_pos (bne_of_notMem absent)]
  simp

theorem after?_eq_none_iff {separator : Char} {text : Text} :
    after? separator text = none ↔ separator ∉ text := by
  unfold after?
  split
  · next dropped =>
      simp only [List.dropWhile_eq_nil_iff, bne_iff_ne, ne_eq] at dropped
      simpa using fun member => dropped separator member rfl
  · next c rest dropped =>
      have stop := List.head?_dropWhile_not (· != separator) text
      rw [dropped] at stop
      simp only [List.head?_cons, bne_eq_false_iff_eq] at stop
      have member : c ∈ text.dropWhile (· != separator) := by simp [dropped]
      simpa [← stop] using (List.dropWhile_suffix _).subset member

theorem eq_append_of_after? {separator : Char} {text rest : Text}
    (found : after? separator text = some rest) :
    text = before separator text ++ separator :: rest := by
  have parts := List.takeWhile_append_dropWhile (p := (· != separator)) (l := text)
  have stop := List.head?_dropWhile_not (· != separator) text
  unfold after? at found
  split at found
  · simp at found
  · next c after dropped =>
      obtain rfl := Option.some.inj found
      rw [dropped] at parts stop
      obtain rfl : c = separator := by simpa using stop
      exact parts.symm

theorem mem_of_mem_after? {separator c : Char} {text rest : Text}
    (found : after? separator text = some rest) (member : c ∈ rest) : c ∈ text := by
  rw [eq_append_of_after? found]
  exact List.mem_append_right _ (List.mem_cons_of_mem _ member)

theorem afterStart?_append (start rest : Text) : afterStart? start (start ++ rest) = some rest := by
  induction start with
  | nil => rfl
  | cons c start ih =>
      rw [List.cons_append, afterStart?, if_pos rfl]
      exact ih

/-- A start that a text does not begin with is not completed by a character that is not in it. -/
theorem afterStart?_append_eq_none {start text back : Text} (absent : afterStart? start text = none)
    (foreign : ∀ c ∈ back.head?, c ∉ start) : afterStart? start (text ++ back) = none := by
  induction start generalizing text with
  | nil => simp [afterStart?] at absent
  | cons expected start ih =>
      have foreignRest : ∀ c ∈ back.head?, c ∉ start := fun c isHead member =>
        foreign c isHead (List.mem_cons_of_mem _ member)
      cases text with
      | nil =>
          cases back with
          | nil => rfl
          | cons c back =>
              have different : c ≠ expected := by
                rintro rfl
                exact foreign c rfl List.mem_cons_self
              exact if_neg different
      | cons d text =>
          unfold afterStart? at absent
          rw [List.cons_append, afterStart?]
          split
          · next same =>
              rw [if_pos same] at absent
              exact ih absent foreignRest
          · rfl

theorem splitOn_eq_singleton {separator : Char} {text : Text} (absent : separator ∉ text) :
    splitOn separator text = [text] := by
  induction text with
  | nil => rfl
  | cons c rest ih =>
      simp only [List.mem_cons, not_or] at absent
      rw [splitOn, if_neg (Ne.symm absent.1), ih absent.2]

theorem splitOn_append {separator : Char} {front : Text} (absent : separator ∉ front)
    (back : Text) :
    splitOn separator (front ++ separator :: back) = front :: splitOn separator back := by
  induction front with
  | nil => simp [splitOn]
  | cons c front ih =>
      simp only [List.mem_cons, not_or] at absent
      rw [List.cons_append, splitOn, if_neg (Ne.symm absent.1), ih absent.2]

/-- Cutting at the separators gives the pieces back. -/
theorem splitOn_join {separator : Char} {pieces : List Text} (pieces_ne : pieces ≠ [])
    (absent : ∀ piece ∈ pieces, separator ∉ piece) :
    splitOn separator (join [separator] pieces) = pieces := by
  induction pieces with
  | nil => exact absurd rfl pieces_ne
  | cons piece rest ih =>
      have absentFirst : separator ∉ piece := absent piece (by simp)
      cases rest with
      | nil => exact splitOn_eq_singleton absentFirst
      | cons next rest =>
          have others : ∀ other ∈ next :: rest, separator ∉ other := fun other member =>
            absent other (List.mem_cons_of_mem _ member)
          rw [join_cons_cons, List.append_assoc, List.singleton_append, splitOn_append absentFirst,
            ih (by simp) others]

theorem mem_join {separator : Text} {c : Char} {pieces : List Text}
    (member : c ∈ join separator pieces) :
    c ∈ separator ∨ ∃ piece ∈ pieces, c ∈ piece := by
  induction pieces with
  | nil => simp at member
  | cons piece rest ih =>
      cases rest with
      | nil => exact Or.inr ⟨piece, by simp, member⟩
      | cons next rest =>
          rw [join_cons_cons] at member
          rcases List.mem_append.mp member with front | back
          · rcases List.mem_append.mp front with inPiece | inSeparator
            · exact Or.inr ⟨piece, by simp, inPiece⟩
            · exact Or.inl inSeparator
          · exact (ih back).imp_right fun ⟨other, otherMem, inside⟩ =>
              ⟨other, List.mem_cons_of_mem _ otherMem, inside⟩

end Retouch.Text
