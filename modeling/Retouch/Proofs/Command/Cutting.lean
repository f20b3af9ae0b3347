import Retouch.Text.Basic

/-!
# Cutting tokens into pieces

Validation cuts the tokens of a command into blocks, and splitting cuts them into segments. Both go
through the tokens in the same way: the first piece is the first token with some of those behind it,
and the tokens that it leaves are cut as if they stood alone. The pieces are therefore consecutive,
nothing is lost between them, and a piece depends on nothing in front of it.
-/

namespace Retouch

/-- A way of cutting token lists, given how the piece of a first token is made and which tokens it
has. -/
structure Cuts {Piece : Type} (cut : List Text → List Piece)
    (piece : Text → List Text → Piece) (tokens : Piece → List Text) : Prop where
  nil : cut [] = []
  /-- What the first piece leaves is cut in the same way. -/
  cons : ∀ token rest,
    cut (token :: rest) = piece token rest ::
      cut (rest.drop ((tokens (piece token rest)).length - 1))
  /-- The first piece is the first token with some of those behind it. -/
  starts : ∀ token rest, ∃ front, tokens (piece token rest) = token :: front ∧ front <+: rest

namespace Cuts

variable {Piece : Type} {cut : List Text → List Piece} {piece : Text → List Text → Piece}
  {tokens : Piece → List Text}

theorem cons_append (cuts : Cuts cut piece tokens) {token : Text} {front following : List Text}
    (made : tokens (piece token (front ++ following)) = token :: front) :
    cut (token :: (front ++ following)) = piece token (front ++ following) :: cut following := by
  rw [cuts.cons, made, List.length_cons, Nat.add_sub_cancel, List.drop_left]

/-- A list with a first token is cut into the piece of this token and the pieces of what it
leaves. -/
theorem exists_cons (cuts : Cuts cut piece tokens) (token : Text) (rest : List Text) :
    ∃ front following, rest = front ++ following ∧
      tokens (piece token rest) = token :: front ∧
      cut (token :: rest) = piece token rest :: cut following := by
  rcases cuts.starts token rest with ⟨front, made, following, rfl⟩
  exact ⟨front, following, rfl, made, cuts.cons_append made⟩

theorem flatMap_tokens (cuts : Cuts cut piece tokens) (list : List Text) :
    (cut list).flatMap tokens = list := by
  induction isLength : list.length using Nat.strongRecOn generalizing list with
  | _ length ih =>
      cases list with
      | nil => rw [cuts.nil, List.flatMap_nil]
      | cons token rest =>
          rcases cuts.exists_cons token rest with ⟨front, following, rfl, made, isCut⟩
          have shorter : following.length < length := by
            rw [← isLength, List.length_cons, List.length_append]
            omega
          rw [isCut, List.flatMap_cons, made, ih following.length shorter following rfl,
            List.cons_append]

/-- The first piece is made of the first token, given its other tokens and those behind it, and the
pieces behind it are those of their own tokens. -/
theorem exists_of_cons (cuts : Cuts cut piece tokens) {list : List Text} {part : Piece}
    {after : List Piece} (parts : cut list = part :: after) :
    ∃ token front, tokens part = token :: front ∧
      part = piece token (front ++ after.flatMap tokens) ∧
      cut (after.flatMap tokens) = after := by
  cases list with
  | nil => simp [cuts.nil] at parts
  | cons token rest =>
      rcases cuts.exists_cons token rest with ⟨front, following, rfl, made, isCut⟩
      rw [isCut] at parts
      rcases List.cons.inj parts with ⟨rfl, rfl⟩
      rw [cuts.flatMap_tokens]
      exact ⟨token, front, made, rfl, rfl⟩

/-- The last pieces are those of their own tokens, whatever stands in front of them. -/
theorem cut_flatMap_of_append (cuts : Cuts cut piece tokens) {list : List Text}
    {before after : List Piece}
    (parts : cut list = before ++ after) : cut (after.flatMap tokens) = after := by
  induction before generalizing list with
  | nil =>
      rw [List.nil_append] at parts
      rw [← parts, cuts.flatMap_tokens]
  | cons part before ih =>
      rcases cuts.exists_of_cons parts with ⟨-, -, -, -, later⟩
      exact ih later

/-- A piece is made of its first token, given its other tokens and those behind it. -/
theorem exists_piece (cuts : Cuts cut piece tokens) {list : List Text} {before after : List Piece}
    {part : Piece} (parts : cut list = before ++ part :: after) :
    ∃ token front, tokens part = token :: front ∧
      part = piece token (front ++ after.flatMap tokens) := by
  rcases cuts.exists_of_cons (cuts.cut_flatMap_of_append parts) with
    ⟨token, front, made, isPiece, -⟩
  exact ⟨token, front, made, isPiece⟩

end Cuts

end Retouch
