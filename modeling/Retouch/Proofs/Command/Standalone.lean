import Retouch.Proofs.Command.Idempotence
import Retouch.Proofs.Command.Segments

/-!
# Entries on their own

Splitting a validated command cuts it between whole units, so each entry is made of tokens that
validation has cleaned and kept. Validation therefore leaves an entry as it stands, unless the entry
ends with a blank character that separates no tokens. Of the blank characters the tokenizer knows
the space and the tab, and line breaks do not outlast the cleaning, so a text without other blank
characters makes entries that are valid on their own.
-/

namespace Retouch.Validation

variable {text : Text} {tokens : List Text}

/-- Whether the blank characters of a text are spaces, tabs and line breaks. -/
def IsPlainlySpaced (text : Text) : Prop :=
  ∀ c ∈ text, Text.isBlank c → c = ' ' ∨ c = '\t' ∨ c = '\r' ∨ c = '\n'

/-- After the cleaning of such a text its blank characters are separators. -/
theorem IsPlainlySpaced.isSeparator (spaced : IsPlainlySpaced text) {c : Char}
    (member : c ∈ Cleanup.forValidation text) (isBlank : Text.isBlank c) :
    Token.isSeparator c := by
  have noBreak := (Cleanup.isClean_forValidation text).noBreak c member
  rcases Cleanup.mem_forValidation member with rfl | rfl | inText
  · rfl
  · exact absurd isBlank (by decide)
  · rcases spaced c ((Cleanup.removeFences_sublist text).subset inText) isBlank with
      rfl | rfl | rfl | rfl
    · rfl
    · rfl
    · exact absurd noBreak (by decide)
    · exact absurd noBreak (by decide)

/-- So no join of its tokens ends with a blank character. -/
theorem IsExcerpt.isBlank_getLast? (excerpt : IsExcerpt text tokens)
    (spaced : IsPlainlySpaced text) :
    ∀ c ∈ (Text.unwords tokens).getLast?, Text.isBlank c = false := by
  intro c last
  have notSeparator := excerpt.isSeparator_getLast? c last
  by_contra blank
  have isBlank : Text.isBlank c := by simpa using blank
  rcases Text.mem_unwords (List.mem_of_mem_getLast? last) with rfl | ⟨token, tokenMem, inToken⟩
  · exact absurd notSeparator (by decide)
  · have inScan := Token.mem_of_mem_scan (excerpt.sublist.subset tokenMem) inToken
    have isSeparator := spaced.isSeparator (Text.mem_of_mem_trim inScan) isBlank
    simp [isSeparator] at notSeparator

/-- Every segment of the kept tokens of a text is made of whole units among them. -/
theorem isExcerpt_of_mem_ofTokens {segment : Segment}
    (member : segment ∈ Segment.ofTokens (keptTokens text)) :
    IsExcerpt text segment.tokens := by
  have areUnits : ∀ unit ∈ units (Token.ofText (Cleanup.forValidation text)), IsUnit unit :=
    fun _ => isUnit_of_mem_units
  rcases Segment.exists_units_of_mem_ofTokens areUnits member with ⟨run, isInfix, made, -⟩
  rw [made]
  exact (isExcerpt_keptTokens text).of_isInfix areUnits isInfix

/-- An entry of a validated command that ends with no blank character is made of whole units. -/
theorem exists_isExcerpt_of_mem_split
    (last : ∀ c ∈ (ofText text).command.getLast?, Text.isBlank c = false)
    {part : LabelledCommand} (member : part ∈ Segment.split (ofText text).command) :
    ∃ tokens, IsExcerpt text tokens ∧ part.command = Text.unwords tokens := by
  rcases Segment.exists_of_mem_split member with ⟨segment, segmentMem, command⟩
  rw [ofText_command_tokens last] at segmentMem
  exact ⟨segment.tokens, isExcerpt_of_mem_ofTokens segmentMem, command⟩

/-- Every entry of the validated command of a text is valid on its own, if the text has no blank
characters but spaces, tabs and line breaks: validation keeps it as it stands and removes
nothing. -/
theorem ofText_of_mem_split (text : Text)
    (spaced : ∀ c ∈ text, Text.isBlank c → c = ' ' ∨ c = '\t' ∨ c = '\r' ∨ c = '\n') :
    ∀ part ∈ Segment.split (ofText text).command, ofText part.command =
      ⟨part.command, []⟩ := by
  intro part member
  have notBlank : ∀ c ∈ (ofText text).command.getLast?, Text.isBlank c = false := by
    rw [command_ofText]
    exact (isExcerpt_keptTokens text).isBlank_getLast? spaced
  rcases exists_isExcerpt_of_mem_split notBlank member with ⟨tokens, excerpt, command⟩
  rw [command]
  exact excerpt.ofText_of_not_blank (excerpt.isBlank_getLast? spaced)

/-- A fenced text with the name of the tool, a placeholder, a flag that is not allowed, a region and
a group. -/
theorem ofText_of_mem_split_fenced :
    let text : Text :=
      "\x60\x60\x60bash\r\nmagick -blur <radius>\n-foo -channel Red\t-negate +channel " ++
        "( -fill 'a \"b' )"
    (∀ c ∈ text, Text.isBlank c → c = ' ' ∨ c = '\t' ∨ c = '\r' ∨ c = '\n') ∧
      (Segment.split (ofText text).command).map LabelledCommand.command =
        ["-blur 1", "-channel Red -negate +channel", "( -fill 'a \"b' )"] ∧
      ∀ part ∈ Segment.split (ofText text).command, ofText part.command =
          ⟨part.command, []⟩ := by
  intro text
  have spaced : ∀ c ∈ text, Text.isBlank c → c = ' ' ∨ c = '\t' ∨ c = '\r' ∨
      c = '\n' := by decide +kernel
  exact ⟨spaced, by decide +kernel, ofText_of_mem_split text spaced⟩

end Retouch.Validation
