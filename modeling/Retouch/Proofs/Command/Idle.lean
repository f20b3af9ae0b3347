import Retouch.Command.Segment
import Retouch.Proofs.Command.Segments

/-!
# Commands without entries

Splitting a command skips some tokens. A command of which nothing but skipped tokens is left makes
no entry, although it is not empty: stray arguments, closes, the safety pair, and openings of groups
that are not closed any more.
-/

namespace Retouch

/-- Tokens of which no entry is made. -/
inductive Segment.IsIdle : List Text → Prop
  | nil : IsIdle []
  | argument {token : Text} {rest : List Text} (isArgument : Token.isArgument token) :
      IsIdle rest → IsIdle (token :: rest)
  | regionClose {rest : List Text} : IsIdle rest → IsIdle (Flag.regionClose :: rest)
  | groupClose {rest : List Text} : IsIdle rest → IsIdle (Token.groupClose :: rest)
  | groupOpen {rest : List Text} (unclosed : Token.groupClose ∉ rest) :
      IsIdle rest → IsIdle (Token.groupOpen :: rest)
  | safety {rest : List Text} : IsIdle rest → IsIdle (safetyFlag :: safetyArgument :: rest)

namespace Segment

/-- Whether a token is skipped by itself, given the tokens after it. -/
def IsAlone (token : Text) (rest : List Text) : Prop :=
  Token.isArgument token ∨ token = Flag.regionClose ∨ token = Token.groupClose ∨
    token = Token.groupOpen ∧ lengthToClose? Token.groupOpen Token.groupClose 0 rest = none

variable {opener closer token : Text} {inner : Nat} {rest : List Text}

theorem lengthToClose?_eq_none (unclosed : closer ∉ rest) (inner : Nat) :
    lengthToClose? opener closer inner rest = none := by
  rcases found : lengthToClose? opener closer inner rest with _ | length
  · rfl
  · rcases exists_of_lengthToClose? found with ⟨front, back, rfl, -⟩
    simp at unclosed

theorem lengthToClose?_of_ne (notOpener : token ≠ opener) (notCloser : token ≠ closer) :
    lengthToClose? opener closer inner (token :: rest) =
      (lengthToClose? opener closer inner rest).map (· + 1) := by
  cases inner <;> simp [lengthToClose?, notOpener, notCloser]

theorem first_of_ne (notRegion : token ≠ Flag.regionOpen) (notGroup : token ≠ Token.groupOpen) :
    first token rest = single token rest := by
  rw [first, if_neg notRegion, if_neg notGroup]

theorem IsIdle.isSome_lengthToClose? {tokens : List Text} (isIdle : IsIdle tokens)
    (closes : Token.groupClose ∈ tokens) :
    (lengthToClose? Token.groupOpen Token.groupClose 0 tokens).isSome := by
  induction isIdle with
  | nil => simp at closes
  | @argument token rest isArgument _ ih =>
      have notGroup : token ≠ Token.groupOpen ∧ token ≠ Token.groupClose := by
        constructor <;> rintro rfl <;> exact absurd isArgument (by decide)
      rw [lengthToClose?_of_ne notGroup.1 notGroup.2, Option.isSome_map]
      exact ih (by simpa [notGroup.2.symm] using closes)
  | regionClose _ ih =>
      rw [lengthToClose?_of_ne (by decide) (by decide), Option.isSome_map]
      exact ih (by simpa [show Token.groupClose ≠ Flag.regionClose by decide] using closes)
  | groupClose _ _ => rfl
  | groupOpen unclosed _ _ =>
      simp [unclosed, show Token.groupClose ≠ Token.groupOpen by decide] at closes
  | safety _ ih =>
      rw [lengthToClose?_of_ne (by decide) (by decide),
        lengthToClose?_of_ne (by decide) (by decide)]
      rw [Option.isSome_map, Option.isSome_map]
      exact ih (by
        simpa [show Token.groupClose ≠ safetyFlag by decide,
          show Token.groupClose ≠ safetyArgument by decide] using closes)

theorem single_of_not_isFlag (notFlag : Token.isFlag token = false) (rest : List Text) :
    single token rest = ⟨.skipped, [token]⟩ := by
  simp [single, notFlag]

theorem first_safety (rest : List Text) :
    first safetyFlag (safetyArgument :: rest) = ⟨.skipped, [safetyFlag, safetyArgument]⟩ := by
  have isArgument : Token.isArgument safetyArgument := by decide
  have arity : Flag.arity safetyFlag = 1 := by decide +kernel
  rw [first_of_ne (by decide) (by decide), single, if_neg (by decide)]
  simp [Token.argumentRun, isArgument, arity]

theorem single_skipped (isSkipped : (single token rest).kind = .skipped) :
    token = Flag.regionClose ∨ Token.isFlag token = false ∨
      token = safetyFlag ∧ ∃ later, rest = safetyArgument :: later := by
  unfold single at isSkipped
  split at isSkipped
  · next stands =>
      rcases (Bool.or_eq_true _ _).mp stands with notFlag | closes
      · exact .inr (.inl (by simpa using notFlag))
      · exact .inl (by simpa using closes)
  · dsimp only at isSkipped
    split at isSkipped
    · next isPair =>
        refine .inr (.inr ⟨isPair.1, ?_⟩)
        rcases rest with _ | ⟨next, later⟩
        · simp [Token.argumentRun] at isPair
        · refine ⟨later, ?_⟩
          have isHead := isPair.2
          rw [Token.argumentRun, List.head?_take, List.takeWhile_cons] at isHead
          rcases isArgument : Token.isArgument next
          · simp [isArgument] at isHead
          · simp only [isArgument, if_true, List.head?_cons] at isHead
            split at isHead
            · simp at isHead
            · rw [Option.some.inj isHead]
    · simp at isSkipped

theorem ofTokens_safety (rest : List Text) :
    ofTokens (safetyFlag :: safetyArgument :: rest) =
      ⟨.skipped, [safetyFlag, safetyArgument]⟩ :: ofTokens rest := by
  rw [ofTokens]
  simp [first_safety]

theorem first_skipped (isSkipped : (first token rest).kind = .skipped) :
    IsAlone token rest ∨ token = safetyFlag ∧ ∃ later, rest = safetyArgument :: later := by
  by_cases opensRegion : token = Flag.regionOpen
  · exfalso
    subst opensRegion
    rw [first, if_pos rfl] at isSkipped
    split at isSkipped
    · simp at isSkipped
    · rcases single_skipped isSkipped with other | other | ⟨other, -⟩ <;>
        revert other <;> decide
  by_cases opensGroup : token = Token.groupOpen
  · subst opensGroup
    rw [first, if_neg opensRegion, if_pos rfl] at isSkipped
    split at isSkipped
    · simp at isSkipped
    · next unclosed => exact .inl (.inr (.inr (.inr ⟨rfl, unclosed⟩)))
  · rw [first_of_ne opensRegion opensGroup] at isSkipped
    rcases single_skipped isSkipped with closes | notFlag | safety
    · exact .inl (.inr (.inl closes))
    · by_cases closes : token = Token.groupClose
      · exact .inl (.inr (.inr (.inl closes)))
      · exact .inl (.inl (by simp [Token.isArgument, Token.isGroup, notFlag, closes, opensGroup]))
    · exact .inr safety

theorem first_of_isAlone (isAlone : IsAlone token rest) :
    first token rest = ⟨.skipped, [token]⟩ := by
  rcases isAlone with isArgument | rfl | rfl | ⟨rfl, unclosed⟩
  · have notOpen : token ≠ Flag.regionOpen ∧ token ≠ Token.groupOpen := by
      constructor <;> rintro rfl <;> exact absurd isArgument (by decide)
    have notFlag : Token.isFlag token = false := by
      simp only [Token.isArgument, Bool.and_eq_true, Bool.not_eq_true'] at isArgument
      exact isArgument.2
    rw [first_of_ne notOpen.1 notOpen.2, single_of_not_isFlag notFlag]
  · rw [first_of_ne (by decide) (by decide), single, if_pos (by simp)]
  · rw [first_of_ne (by decide) (by decide), single_of_not_isFlag (by decide)]
  · rw [first, if_neg (by decide), if_pos rfl, unclosed]
    exact single_of_not_isFlag (by decide) rest

theorem ofTokens_of_isAlone (isAlone : IsAlone token rest) :
    ofTokens (token :: rest) = ⟨.skipped, [token]⟩ :: ofTokens rest := by
  rw [ofTokens]
  simp [first_of_isAlone isAlone]

/-- Exactly the idle tokens are cut into segments that are all skipped. -/
theorem forall_skipped_iff (tokens : List Text) :
    (∀ segment ∈ ofTokens tokens, segment.kind = .skipped) ↔ IsIdle tokens := by
  constructor
  · intro areSkipped
    -- A safety pair takes two tokens at once, so the induction is on the length.
    induction isCount : tokens.length using Nat.strong_induction_on generalizing tokens with
    | _ count ih =>
        rcases tokens with _ | ⟨token, rest⟩
        · exact .nil
        have isFirst := areSkipped (first token rest) (by simp [ofTokens])
        rcases first_skipped isFirst with isAlone | ⟨rfl, later, rfl⟩
        · rw [ofTokens_of_isAlone isAlone] at areSkipped
          have shorter : rest.length < count := by
            rw [← isCount, List.length_cons]
            omega
          have isIdle := ih rest.length shorter rest
            (fun segment member => areSkipped segment (List.mem_cons_of_mem _ member)) rfl
          rcases isAlone with isArgument | rfl | rfl | ⟨rfl, unclosed⟩
          · exact .argument isArgument isIdle
          · exact .regionClose isIdle
          · exact .groupClose isIdle
          · refine .groupOpen ?_ isIdle
            intro closes
            simpa [unclosed] using isIdle.isSome_lengthToClose? closes
        · rw [ofTokens_safety] at areSkipped
          have shorter : later.length < count := by
            rw [← isCount, List.length_cons, List.length_cons]
            omega
          exact .safety (ih later.length shorter later
            (fun segment member => areSkipped segment (List.mem_cons_of_mem _ member)) rfl)
  · intro isIdle
    induction isIdle with
    | nil => simp [ofTokens]
    | argument isArgument _ ih =>
        rw [ofTokens_of_isAlone (.inl isArgument)]
        simpa using ih
    | regionClose _ ih =>
        rw [ofTokens_of_isAlone (.inr (.inl rfl))]
        simpa using ih
    | groupClose _ ih =>
        rw [ofTokens_of_isAlone (.inr (.inr (.inl rfl)))]
        simpa using ih
    | groupOpen unclosed _ ih =>
        rw [ofTokens_of_isAlone (.inr (.inr (.inr ⟨rfl, lengthToClose?_eq_none unclosed 0⟩)))]
        simpa using ih
    | safety _ ih =>
        rw [ofTokens_safety]
        simpa using ih

/-- A command makes no entry exactly if its tokens are idle. -/
theorem split_eq_nil_iff (command : Text) : split command = [] ↔
    IsIdle (Token.ofText command) := by
  rw [← forall_skipped_iff, split, List.filterMap_eq_nil_iff]
  refine forall₂_congr fun segment _ => ?_
  simp [ entry?]

end Segment

end Retouch
