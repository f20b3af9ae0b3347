import Mathlib.Data.List.Basic
import Retouch.Text.Basic

/-!
# Joined pieces

Facts about pieces with one space between neighbours: how a join splits at an append, which
characters it has, and how joins of joins flatten.
-/

namespace Retouch.Text

-- A property of all characters can be decided by going through all of them. These two come first,
-- so that a property of the characters of a text is decided by going through the text.
instance (text : Text) (property : Char → Prop) [DecidablePred property] :
    Decidable (∀ c ∈ text, property c) :=
  List.decidableBAll property text

instance (found : Option Char) (property : Char → Prop) [DecidablePred property] :
    Decidable (∀ c ∈ found, property c) :=
  Option.decidableForallMem found

@[simp]
theorem unwords_nil : unwords [] = [] := rfl

@[simp]
theorem unwords_singleton (piece : Text) : unwords [piece] = piece := rfl

theorem unwords_cons_cons (piece next : Text) (rest : List Text) :
    unwords (piece :: next :: rest) = piece ++ ' ' :: unwords (next :: rest) := by
  simp [unwords, join_cons_cons]

theorem unwords_cons (piece : Text) {rest : List Text} (more : rest ≠ []) :
    unwords (piece :: rest) = piece ++ ' ' :: unwords rest := by
  cases rest with
  | nil => exact absurd rfl more
  | cons next rest => exact unwords_cons_cons piece next rest

theorem unwords_append {front back : List Text} (front_ne : front ≠ []) (back_ne : back ≠ []) :
    unwords (front ++ back) = unwords front ++ ' ' :: unwords back := by
  induction front with
  | nil => exact absurd rfl front_ne
  | cons piece front ih =>
      cases front with
      | nil => simpa using unwords_cons piece back_ne
      | cons next front =>
          rw [List.cons_append, List.cons_append, unwords_cons_cons, unwords_cons_cons,
            ← List.cons_append, ih (by simp)]
          simp

theorem mem_unwords {c : Char} {pieces : List Text} (member : c ∈ unwords pieces) :
    c = ' ' ∨ ∃ piece ∈ pieces, c ∈ piece := by
  induction pieces with
  | nil => simp at member
  | cons piece rest ih =>
      cases rest with
      | nil => exact Or.inr ⟨piece, by simp, by simpa using member⟩
      | cons next rest =>
          rw [unwords_cons_cons, List.mem_append, List.mem_cons] at member
          rcases member with here | space | later
          · exact Or.inr ⟨piece, by simp, here⟩
          · exact Or.inl space
          · rcases ih later with space | ⟨other, otherMem, inOther⟩
            · exact Or.inl space
            · exact Or.inr ⟨other, List.mem_cons_of_mem _ otherMem, inOther⟩

theorem unwords_eq_nil_iff {pieces : List Text} (nonempty : ∀ piece ∈ pieces, piece ≠ []) :
    unwords pieces = [] ↔ pieces = [] := by
  cases pieces with
  | nil => simp
  | cons piece rest =>
      cases rest with
      | nil => simpa using nonempty piece (by simp)
      | cons next rest => simp [unwords_cons_cons]

/-- Joins of joins are one join, as long as no inner list is empty. -/
theorem unwords_map_unwords (groups : List (List Text))
    (nonempty : ∀ group ∈ groups, group ≠ []) :
    unwords (groups.map unwords) = unwords groups.flatten := by
  induction groups with
  | nil => rfl
  | cons group rest ih =>
      have group_ne : group ≠ [] := nonempty group (by simp)
      have rest_ne : ∀ other ∈ rest, other ≠ [] := fun other otherMem =>
        nonempty other (List.mem_cons_of_mem _ otherMem)
      cases rest with
      | nil => simp
      | cons next rest =>
          have flat_ne : (next :: rest).flatten ≠ [] := by
            simp [rest_ne next (by simp)]
          rw [List.flatten_cons, unwords_append group_ne flat_ne, ← ih rest_ne, List.map_cons,
            unwords_cons _ (by simp)]

theorem head?_unwords_cons {piece : Text} (piece_ne : piece ≠ []) (rest : List Text) :
    (unwords (piece :: rest)).head? = piece.head? := by
  cases rest with
  | nil => rfl
  | cons next rest => rw [unwords_cons_cons, List.head?_append_of_ne_nil _ piece_ne]

theorem getLast?_unwords_concat {piece : Text} (front : List Text) (piece_ne : piece ≠ []) :
    (unwords (front ++ [piece])).getLast? = piece.getLast? := by
  cases front with
  | nil => rfl
  | cons first front =>
      rw [unwords_append (by simp) (by simp), unwords_singleton,
        List.getLast?_append_of_ne_nil _ (by simp), List.getLast?_cons_of_ne_nil piece_ne]

/-- A join ends like one of its pieces. -/
theorem forall_getLast?_unwords {property : Char → Prop} {pieces : List Text}
    (nonempty : ∀ piece ∈ pieces, piece ≠ [])
    (ends : ∀ piece ∈ pieces, ∀ c ∈ piece.getLast?, property c) :
    ∀ c ∈ (unwords pieces).getLast?, property c := by
  intro c last
  rcases pieces.eq_nil_or_concat with rfl | ⟨front, piece, rfl⟩
  · simp at last
  · rw [List.concat_eq_append] at nonempty ends last
    have member : piece ∈ front ++ [piece] := by simp
    rw [getLast?_unwords_concat front (nonempty piece member)] at last
    exact ends piece member c last

end Retouch.Text
