import Retouch.Proofs.Command.Cleaning
import Retouch.Proofs.Command.Tokenization

/-!
# Tokens of clean text

Joining some of the tokens of a clean text gives clean text again. The only thing to show is that no
placeholder comes about: an angle bracket that a token leaves open is followed by no closing one in
any later token, so removing tokens between the two cannot bring them together.
-/

namespace Retouch.Cleanup

/-- Whether an angle bracket in the text is opened and not closed at once. -/
def LeavesOpen : Text → Prop
  | [] => False
  | c :: rest => (c = '<' ∧ rest.head? ≠ some '>') ∨ LeavesOpen rest

/-- Behind an angle bracket that is left open no other is closed, unless the bracket is closed right
behind the seam. -/
theorem HasNoPlaceholder.notMem_back {front back : Text} (absent : HasNoPlaceholder (front ++ back))
    (seam : front.getLast? = some '<' → back.head? ≠ some '>') (leavesOpen : LeavesOpen front) :
    '>' ∉ back := by
  induction front with
  | nil => exact leavesOpen.elim
  | cons c front ih =>
      rcases leavesOpen with ⟨rfl, following⟩ | later
      · rcases absent.1 rfl with closed | never
        · cases front with
          | nil => exact absurd closed (seam rfl)
          | cons d front => exact absurd closed following
        · exact fun member => never (List.mem_append_right _ member)
      · refine ih absent.2 ?_ later
        cases front with
        | nil => exact later.elim
        | cons d front => simpa using seam

theorem HasNoPlaceholder.append_space {front back : Text} (absentFront : HasNoPlaceholder front)
    (absentBack : HasNoPlaceholder back) (apart : LeavesOpen front → '>' ∉ back) :
    HasNoPlaceholder (front ++ ' ' :: back) := by
  induction front with
  | nil => exact ⟨fun opening => absurd opening (by decide), absentBack⟩
  | cons c front ih =>
      refine ⟨fun opening => ?_, ih absentFront.2 fun later => apart (Or.inr later)⟩
      by_cases following : front.head? = some '>'
      · exact Or.inl (by simp [List.head?_append, following])
      · right
        have notFront : '>' ∉ front := (absentFront.1 opening).resolve_left following
        have notBack : '>' ∉ back := apart (Or.inl ⟨opening, following⟩)
        simp [notFront, notBack]

/-- Tokens without placeholders of which no later one closes what an earlier one leaves open. -/
structure HaveNoPlaceholder (tokens : List Text) : Prop where
  each : ∀ token ∈ tokens, HasNoPlaceholder token
  apart : tokens.Pairwise fun earlier later => LeavesOpen earlier → '>' ∉ later

theorem HaveNoPlaceholder.sublist {tokens some : List Text} (absent : HaveNoPlaceholder tokens)
    (sublist : some.Sublist tokens) : HaveNoPlaceholder some where
  each := fun token member => absent.each token (sublist.subset member)
  apart := absent.apart.sublist sublist

theorem HaveNoPlaceholder.unwords {tokens : List Text} (absent : HaveNoPlaceholder tokens) :
    HasNoPlaceholder (Text.unwords tokens) := by
  induction tokens with
  | nil => exact trivial
  | cons token rest ih =>
      obtain ⟨each, apart⟩ := absent
      rw [List.pairwise_cons] at apart
      have absentRest : HaveNoPlaceholder rest :=
        ⟨fun other member => each other (List.mem_cons_of_mem _ member), apart.2⟩
      cases rest with
      | nil => exact each token (by simp)
      | cons next rest =>
          rw [Text.unwords_cons_cons]
          refine (each token (by simp)).append_space (ih absentRest) fun leavesOpen member => ?_
          rcases Text.mem_unwords member with space | ⟨other, otherMem, inside⟩
          · simp at space
          · exact apart.1 other otherMem leavesOpen inside

/-- A token before others that are made of the text that follows it. -/
theorem HaveNoPlaceholder.cons {front back : Text} {tokens : List Text}
    (absent : HasNoPlaceholder (front ++ back))
    (seam : front.getLast? = some '<' → back.head? ≠ some '>')
    (absentBack : HaveNoPlaceholder tokens)
    (inBack : ∀ token ∈ tokens, token ⊆ back) : HaveNoPlaceholder (front :: tokens) where
  each := by
    intro token member
    rcases List.mem_cons.mp member with rfl | later
    · exact absent.of_append.1
    · exact absentBack.each token later
  apart := by
    refine List.pairwise_cons.mpr ⟨fun token member leavesOpen inside => ?_, absentBack.apart⟩
    exact absent.notMem_back seam leavesOpen (inBack token member inside)

theorem HaveNoPlaceholder.cons_scan {front back : Text} (absent : HasNoPlaceholder (front ++ back))
    (seam : front.getLast? = some '<' → back.head? ≠ some '>')
    (absentBack : HaveNoPlaceholder (Token.scan back)) :
    HaveNoPlaceholder (front :: Token.scan back) :=
  .cons absent seam absentBack fun _ member _ => Token.mem_of_mem_scan member

theorem HasNoPlaceholder.scan {text : Text} (absent : HasNoPlaceholder text) :
    HaveNoPlaceholder (Token.scan text) := by
  induction text using Token.scan_induction with
  | nil => rw [Token.scan]; exact ⟨by simp, .nil⟩
  | separator c rest separator ih => rw [Token.scan_separator separator]; exact ih absent.2
  | parenthesis c rest parenthesis ih =>
      rw [Token.scan_parenthesis parenthesis]
      have parts : c :: rest = [c] ++ rest := rfl
      rw [parts] at absent
      refine .cons_scan absent (fun last => ?_) (ih absent.2)
      obtain rfl : c = '<' := by simpa using last
      exact absurd parenthesis (by decide)
  | literal quote body rest isQuote inside ih =>
      rw [Token.scan_literal isQuote inside]
      have parts : quote :: (body ++ quote :: rest) = (quote :: body ++ [quote]) ++ rest := by simp
      rw [parts] at absent
      refine .cons_scan absent (fun last => ?_) (ih absent.of_append.2)
      rw [List.getLast?_concat, Option.some.injEq] at last
      subst last
      exact absurd isQuote (by decide)
  | openLiteral quote body isQuote inside =>
      rw [Token.scan_open_literal isQuote inside]
      exact ⟨by simpa using absent, List.pairwise_singleton _ _⟩
  | word c word rest unquoted plain stop ih =>
      rw [Token.scan_word unquoted plain stop]
      rw [← List.cons_append] at absent
      refine .cons_scan absent (fun _ closed => ?_) (ih absent.of_append.2)
      exact absurd (stop '>' closed) (by decide)

theorem IsClean.unwords {text : Text} (clean : IsClean text) {tokens : List Text}
    (sublist : tokens.Sublist (Token.scan text)) : IsClean (Text.unwords tokens) where
  noBacktick := by
    intro member
    rcases Text.mem_unwords member with space | ⟨token, tokenMem, inside⟩
    · simp [backtick] at space
    · exact clean.noBacktick (Token.mem_of_mem_scan (sublist.subset tokenMem) inside)
  noBreak := by
    intro c member
    rcases Text.mem_unwords member with rfl | ⟨token, tokenMem, inside⟩
    · decide
    · exact clean.noBreak c (Token.mem_of_mem_scan (sublist.subset tokenMem) inside)
  noPlaceholder := (clean.noPlaceholder.scan.sublist sublist).unwords

end Retouch.Cleanup
