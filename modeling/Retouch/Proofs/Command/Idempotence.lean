import Mathlib.Data.List.Flatten
import Retouch.Proofs.Command.CleanTokens
import Retouch.Proofs.Command.Unit

/-!
# Validating twice

The command that remains of a text is clean, begins with a flag or a group and joins whole units, so
validating it again only trims its end. That changes nothing unless the last argument that was kept
ends with a blank character: a token ends at spaces and tabs only, while a text is trimmed of every
blank character.
-/

namespace Retouch

theorem Token.isStart_of_not_isArgument {token : Text} (notArgument : isArgument token = false) :
    token ≠ [] ∧ ∀ c ∈ token.head?, Cleanup.IsStart c := by
  simp only [isArgument, Bool.and_eq_false_imp, Bool.not_eq_true', Bool.not_eq_false']
    at notArgument
  cases isGroup : Token.isGroup token with
  | true =>
      rcases Token.isGroup_iff.mp isGroup with rfl | rfl <;>
        simp [groupOpen, groupClose, Cleanup.IsStart]
  | false =>
      have isFlag := notArgument isGroup
      obtain ⟨sign, head, isSign⟩ := exists_head?_of_isFlag isFlag
      refine ⟨fun none => by simp [none] at head, fun c member => ?_⟩
      obtain rfl : sign = c := Option.some.inj (head.symm.trans member)
      exact isSign.imp_right Or.inl

theorem Token.isStart_unwords {tokens : List Text}
    (start : ∀ token ∈ tokens.head?, isArgument token = false) :
    ∀ c ∈ (Text.unwords tokens).head?, Cleanup.IsStart c := by
  intro c member
  cases tokens with
  | nil => simp at member
  | cons token rest =>
      have isStart := isStart_of_not_isArgument (start token rfl)
      rw [Text.head?_unwords_cons isStart.1] at member
      exact isStart.2 c member

namespace Validation

/-- Some tokens of a cleaned text, in their order, that make up whole units. -/
structure IsExcerpt (text : Text) (tokens : List Text) : Prop where
  units : ∃ units : List (List Text), (∀ unit ∈ units, IsUnit unit) ∧ tokens = units.flatten
  sublist : tokens.Sublist (Token.ofText (Cleanup.forValidation text))

namespace IsExcerpt

variable {text : Text} {tokens : List Text}

theorem separable (excerpt : IsExcerpt text tokens) : Token.Separable tokens :=
  (Token.separable_scan _).sublist excerpt.sublist

theorem isStart_unwords (excerpt : IsExcerpt text tokens) :
    ∀ c ∈ (Text.unwords tokens).head?, Cleanup.IsStart c := by
  rcases excerpt.units with ⟨units, areUnits, rfl⟩
  exact Token.isStart_unwords (isArgument_head?_units areUnits)

theorem isClean_unwords (excerpt : IsExcerpt text tokens) :
    Cleanup.IsClean (Text.unwords tokens) := by
  have clean : Cleanup.IsClean (Text.trim (Cleanup.forValidation text)) :=
    (Cleanup.isClean_forValidation text).of_isInfix (Text.isInfix_trim _)
  exact clean.unwords excerpt.sublist

/-- The tokens of a join whose end is not blank are those that were joined. -/
theorem ofText_tokens (excerpt : IsExcerpt text tokens)
    (last : ∀ c ∈ (Text.unwords tokens).getLast?, Text.isBlank c = false) :
    Token.ofText (Text.unwords tokens) = tokens :=
  Token.ofText_unwords excerpt.separable
    (fun c member => (excerpt.isStart_unwords c member).isBlank) last

/-- Validation changes nothing in a join whose end is not blank. -/
theorem ofText_of_not_blank (excerpt : IsExcerpt text tokens)
    (last : ∀ c ∈ (Text.unwords tokens).getLast?, Text.isBlank c = false) :
    ofText (Text.unwords tokens) = ⟨Text.unwords tokens, []⟩ := by
  have cleaned : Cleanup.forValidation (Text.unwords tokens) = Text.unwords tokens := by
    rw [excerpt.isClean_unwords.forValidation_eq excerpt.isStart_unwords,
      Text.trimEnd_eq_self_iff.mpr last]
  rw [ofText, cleaned, excerpt.ofText_tokens last]
  rcases excerpt.units with ⟨units, areUnits, rfl⟩
  exact ofBlocks_blocks_flatten areUnits

theorem isSeparator_getLast?_of_mem (excerpt : IsExcerpt text tokens) {token : Text}
    (member : token ∈ tokens) :
    ∀ c ∈ token.getLast?, Token.isSeparator c = false := by
  refine Token.isSeparator_getLast?_of_mem_scan ?_ (excerpt.sublist.subset member)
  intro c last
  exact Token.isSeparator_of_not_isBlank (Text.isBlank_getLast?_trimEnd _ c last)

/-- A join of tokens of a cleaned text ends like its last token, and so with no separator. -/
theorem isSeparator_getLast? (excerpt : IsExcerpt text tokens) :
    ∀ c ∈ (Text.unwords tokens).getLast?, Token.isSeparator c = false := by
  apply Text.forall_getLast?_unwords
  · intro token member
    exact excerpt.separable.ne_nil member
  · intro token member
    exact excerpt.isSeparator_getLast?_of_mem member

theorem of_isInfix {units run : List (List Text)} (excerpt : IsExcerpt text units.flatten)
    (areUnits : ∀ unit ∈ units, IsUnit unit) (isInfix : run <:+: units) :
    IsExcerpt text run.flatten where
  units := ⟨run, fun unit member => areUnits unit (isInfix.subset member), rfl⟩
  sublist := isInfix.sublist.flatten.trans excerpt.sublist

end IsExcerpt

def keptTokens (text : Text) : List Text :=
  (units (Token.ofText (Cleanup.forValidation text))).flatten

theorem isExcerpt_keptTokens (text : Text) : IsExcerpt text (keptTokens text) where
  units := ⟨_, fun _ => isUnit_of_mem_units, rfl⟩
  sublist := flatten_units_sublist _

theorem separable_keptTokens (text : Text) : Token.Separable (keptTokens text) :=
  (isExcerpt_keptTokens text).separable

theorem isStart_command (text : Text) :
    ∀ c ∈ (ofText text).command.head?, Cleanup.IsStart c := by
  rw [command_ofText]
  exact (isExcerpt_keptTokens text).isStart_unwords

theorem isClean_command (text : Text) : Cleanup.IsClean (ofText text).command := by
  rw [command_ofText]
  exact (isExcerpt_keptTokens text).isClean_unwords

/-- The tokens of a command whose end is not blank are those that were kept. -/
theorem ofText_command_tokens {text : Text}
    (last : ∀ c ∈ (ofText text).command.getLast?, Text.isBlank c = false) :
    Token.ofText (ofText text).command = keptTokens text := by
  rw [command_ofText] at last ⊢
  exact (isExcerpt_keptTokens text).ofText_tokens last

/-- Validation changes nothing in a command whose end is not blank. -/
theorem ofText_command_of_not_blank {text : Text}
    (last : ∀ c ∈ (ofText text).command.getLast?, Text.isBlank c = false) :
    ofText (ofText text).command = ⟨(ofText text).command, []⟩ := by
  rw [command_ofText] at last ⊢
  exact (isExcerpt_keptTokens text).ofText_of_not_blank last

theorem isSeparator_getLast?_command (text : Text) :
    ∀ c ∈ (ofText text).command.getLast?, Token.isSeparator c = false := by
  rw [command_ofText]
  exact (isExcerpt_keptTokens text).isSeparator_getLast?

/-- A command has no characters, separators left out, that its text did not have after cleaning. -/
theorem filter_command_sublist (text : Text) :
    ((ofText text).command.filter (!Token.isSeparator ·)).Sublist
      ((Cleanup.forValidation text).filter (!Token.isSeparator ·)) := by
  have joined : (ofText text).command.filter (!Token.isSeparator ·) =
      (keptTokens text).flatten.filter (!Token.isSeparator ·) := by
    rw [command_ofText, ← keptTokens, Token.filter_unwords]
  have all : (keptTokens text).flatten.Sublist
      (Token.ofText (Cleanup.forValidation text)).flatten :=
    (isExcerpt_keptTokens text).sublist.flatten
  rw [joined]
  refine (all.filter _).trans ?_
  rw [Token.ofText, Token.filter_flatten_scan]
  exact (Text.isInfix_trim _).sublist.filter _

/-- Clean text that begins with a flag or a group and that validation leaves as it is has no blank
character at its end if it has no separator there. -/
theorem isBlank_getLast?_of_command_eq {text : Text} (clean : Cleanup.IsClean text)
    (start : ∀ c ∈ text.head?, Cleanup.IsStart c)
    (last : ∀ c ∈ text.getLast?, Token.isSeparator c = false)
    (stable : (ofText text).command = text) : ∀ c ∈ text.getLast?, Text.isBlank c = false := by
  refine Text.trimEnd_eq_self_iff.mp ?_
  obtain ⟨blanks, -, parts⟩ := Text.trimEnd_append text
  have sublist := filter_command_sublist text
  rw [stable, clean.forValidation_eq start] at sublist
  have noCharacters : blanks.filter (!Token.isSeparator ·) = [] := by
    have length := sublist.length_le
    rw [← List.length_eq_zero_iff]
    nth_rewrite 1 [← parts] at length
    rw [List.filter_append, List.length_append] at length
    omega
  -- So every blank character that was cut off is a separator, and the command ends with none.
  have noBlanks : blanks = [] := by
    rcases blanks.eq_nil_or_concat with none | ⟨front, c, some⟩
    · exact none
    · have isLast : c ∈ text.getLast? := by
        rw [← parts, some]
        simp
      have notSeparator := last c isLast
      simp [some, notSeparator] at noCharacters
  simpa [noBlanks] using parts

/-- Validating a command again changes nothing exactly if the command does not end with a blank
character. -/
theorem ofText_command_iff (text : Text) :
    ofText (ofText text).command = ⟨(ofText text).command, []⟩ ↔
      ∀ c ∈ (ofText text).command.getLast?, Text.isBlank c = false := by
  constructor
  · intro stable
    exact isBlank_getLast?_of_command_eq (isClean_command text) (isStart_command text)
      (isSeparator_getLast?_command text) (congrArg (·.command) stable)
  · exact ofText_command_of_not_blank

/-- An argument that is a no-break space is kept the first time and trimmed the second time. -/
theorem ofText_command_no_break_space :
    ofText (ofText "-fill \u00a0 x").command ≠ ⟨(ofText "-fill \u00a0 x").command, []⟩ := by
  decide +kernel

end Validation

end Retouch
