import Retouch.Invocation
import Retouch.Proofs.Invocation.Entries

/-!
# The allow-list at the engine

The engine gets the literal arguments of the command of a stack. As long as every argument of the
validated command stands for one value and the second cleaning has nothing to do, these are the
words of the entries, one entry after the other. If no argument stands for a flag outside the
allow-list, none reaches the engine. An argument can hide one, since validation judges arguments
with their quotes: then the engine reads it as an option exactly if an entry exposes it.
-/

namespace Retouch

/-- Whether an argument stands for a flag outside the allow-list. -/
def Token.HidesForbidden (token : Text) : Prop :=
  ∃ value, Literal.Reads token value ∧ Invocation.IsForbidden value

/-- Whether an argument stands for one value that is an argument or a hidden flag. -/
def Token.StandsForValue (token : Text) : Prop :=
  ∃ value, Literal.Reads token value ∧ IsValue value

namespace Invocation

/-- Whether the engine reads a text as validation did, given the command of its stack: no blank
character ends the validated command, each argument stands for one value, and the second cleaning
has nothing to do. -/
structure IsInStep (text command : Text) : Prop where
  last : ∀ c ∈ (Validation.ofText text).command.getLast?, Text.isBlank c = false
  closed : ∀ token ∈ Token.ofText (Validation.ofText text).command, Token.isArgument token →
    ∃ value, Literal.Reads token value
  cleaned : Cleanup.forEngine command = command

theorem exists_piece {text : Text}
    (last : ∀ c ∈ (Validation.ofText text).command.getLast?, Text.isBlank c = false)
    {part : LabelledCommand} (member : part ∈ Segment.split (Validation.ofText text).command) :
    ∃ units : List (List Text), part.command = Text.unwords units.flatten ∧
      (∀ unit ∈ units, IsUnit unit) ∧ Segment.IsPiece units.flatten ∧
        Token.Separable units.flatten ∧
      ∀ token ∈ units.flatten, token ∈ Token.ofText (Validation.ofText text).command := by
  obtain ⟨segment, segmentMem, command⟩ := Segment.exists_of_mem_split member
  have kept := Validation.ofText_command_tokens last
  rw [kept] at segmentMem ⊢
  have areUnits : ∀ unit ∈ Validation.units (Token.ofText (Cleanup.forValidation text)),
      IsUnit unit :=
    fun unit unitMem => Validation.isUnit_of_mem_units unitMem
  obtain ⟨run, isInfix, tokens, isPiece⟩ :=
    Segment.exists_units_of_mem_ofTokens areUnits segmentMem
  have sublist : run.flatten.Sublist (Validation.keptTokens text) := isInfix.sublist.flatten
  rw [tokens] at isPiece command
  exact ⟨run, command, fun unit unitMem => areUnits unit (isInfix.subset unitMem), isPiece,
    (Validation.separable_keptTokens text).sublist sublist, fun _ tokenMem =>
      sublist.subset tokenMem⟩

/-- The texts and words of entries, of which each has a property. -/
theorem exists_groups {property : Text → List Text → Prop} {parts : List LabelledCommand}
    (each : ∀ part ∈ parts, ∃ text words, Entry.Renders part.command text words ∧
        property part.command words) :
    ∃ texts groups,
      List.Forall₂ (fun part text => Entry.renderCommand part.command = .ok text) parts texts ∧
      (∀ text ∈ texts, Text.isAllBlank text = false) ∧
      List.Forall₂ Literal.Carries texts groups ∧
      (∀ group ∈ groups, group ≠ []) ∧
      List.Forall₂ (fun part group => property part.command group) parts groups := by
  induction parts with
  | nil => exact ⟨[], [], .nil, by simp, .nil, by simp, .nil⟩
  | cons part parts ih =>
      obtain ⟨text, words, renders, holds⟩ := each part (by simp)
      obtain ⟨texts, groups, rendered, visible, carries, nonempty, hold⟩ :=
        ih fun other member => each other (List.mem_cons_of_mem _ member)
      exact ⟨text :: texts, words :: groups, .cons renders.renders rendered,
        by simpa using ⟨renders.visible, visible⟩, .cons renders.carries carries,
        by simpa using ⟨renders.nonempty, nonempty⟩, .cons holds hold⟩

/-- The texts of entries joined carry the words of the entries. -/
theorem exists_split_unwords (property : Text → List Text → Prop) {parts : List LabelledCommand}
    {texts : List Text}
    (rendered :
      List.Forall₂ (fun part text => Entry.renderCommand part.command = .ok text) parts texts)
    (each : ∀ part ∈ parts, ∃ text words, Entry.Renders part.command text words ∧
        property part.command words) :
    ∃ groups, List.Forall₂ (fun part group => property part.command group) parts groups ∧
      (∀ group ∈ groups, group ≠ []) ∧
      Literal.split (Text.unwords (texts.filter fun text => !Text.isAllBlank text)) =
        groups.flatten := by
  obtain ⟨others, groups, renderedAgain, visible, carries, nonempty, hold⟩ := exists_groups each
  obtain rfl : others = texts := List.right_unique_forall₂'
    (fun _ _ _ first second => Except.ok.inj (first.symm.trans second)) renderedAgain rendered
  have kept : others.filter (fun text => !Text.isAllBlank text) = others := by
    rw [List.filter_eq_self]
    simpa using visible
  exact ⟨groups, hold, nonempty,
    by rw [kept, (Literal.Carries.unwords carries nonempty).split_eq]⟩

/-- What reaches the engine are the words of the entries, or the fallback if there is none. -/
theorem exists_userStage (property : Text → List Text → Prop) {parts : List LabelledCommand}
    {texts : List Text}
    (rendered :
      List.Forall₂ (fun part text => Entry.renderCommand part.command = .ok text) parts texts)
    (each : ∀ part ∈ parts, ∃ text words, Entry.Renders part.command text words ∧
        property part.command words)
    (cleaned : Cleanup.forEngine (Text.unwords (texts.filter fun text => !Text.isAllBlank text)) =
      Text.unwords (texts.filter fun text => !Text.isAllBlank text)) :
    ∃ groups, List.Forall₂ (fun part group => property part.command group) parts groups ∧
      (userStage (Text.unwords (texts.filter fun text => !Text.isAllBlank text)) =
          groups.flatten ∨
        (groups = [] ∧
          userStage (Text.unwords (texts.filter fun text => !Text.isAllBlank text)) =
            [fallback])) := by
  obtain ⟨groups, hold, nonempty, words⟩ := exists_split_unwords property rendered each
  refine ⟨groups, hold, ?_⟩
  rw [userStage, cleaned]
  split
  · next empty =>
      rw [List.isEmpty_iff.mp empty] at words
      refine .inr ⟨?_, rfl⟩
      cases groups with
      | nil => rfl
      | cons group groups =>
          exact absurd (List.append_eq_nil_iff.mp words.symm).1 (nonempty group (by simp))
  · exact .inl words

theorem optionsAllowed_fallback : OptionsAllowed [fallback] := by decide +kernel

/-- Of entries that expose a flag or are sound, one leaks exactly if one exposes a flag. -/
theorem forall_not_leak_iff {parts : List LabelledCommand} {groups : List (List Text)}
    (shows : List.Forall₂ (fun part group => Entry.Shows part.command group) parts groups) :
    (∀ group ∈ groups, AreSound group ∨ Leak group) ∧
      ((∀ group ∈ groups, ¬Leak group) ↔
        ∀ part ∈ parts, ¬Effect.Exposes false (Entry.editableEffects part.command)) := by
  induction shows with
  | nil => simp
  | cons first _ ih =>
      rcases first with ⟨exposes, leak⟩ | ⟨none, sound⟩
      · exact ⟨by simpa [leak] using ih.1, by simp [exposes, leak]⟩
      · refine ⟨by simpa [sound] using ih.1, ?_⟩
        rw [List.forall_mem_cons, List.forall_mem_cons, ih.2]
        simp [none, sound.not_leak]

/-- A text that is validated and pushed on a stack entry by entry always has a command. As long as
the engine reads the text as validation did, no option of the engine is a flag outside the
allow-list if no argument hides one, and, where the arguments stand for arguments and hidden flags,
exactly if no entry exposes one. -/
theorem optionsAllowed_iff (text : Text) (supply : IdSupply) (provenance : Provenance)
    (width height : Int) (isExport : Bool) :
    ∃ command arguments,
      (EditStack.ofParts supply provenance
          (Segment.split (Validation.ofText text).command)).command =
        .ok command ∧
      build command width height isExport =
        inputStage width height ++ arguments ++ outputStage width height isExport ∧
      (IsInStep text command →
        ((∀ token ∈ Token.ofText (Validation.ofText text).command,
            ¬Token.HidesForbidden token) →
          OptionsAllowed arguments) ∧
        ((∀ token ∈ Token.ofText (Validation.ofText text).command, Token.isArgument token →
            Token.StandsForValue token) →
          (OptionsAllowed arguments ↔ ∀ part ∈ Segment.split (Validation.ofText text).command,
            ¬Effect.Exposes false (Entry.editableEffects part.command)))) := by
  obtain ⟨texts, rendered⟩ : ∃ texts, List.Forall₂
      (fun part text => Entry.renderCommand part.command = .ok text)
      (Segment.split (Validation.ofText text).command) texts :=
    exists_forall₂ fun part _ => Entry.exists_renderCommand part.command
  refine ⟨_, _, EditStack.command_ofParts supply provenance rendered, rfl,
    fun inStep => ⟨?_, ?_⟩⟩
  · intro harmless
    obtain ⟨groups, areHarmless, arguments⟩ := exists_userStage
      (fun _ words => ∀ word ∈ words, ¬IsForbidden word) rendered (fun part member => by
        obtain ⟨units, command, areUnits, isPiece, -, tokens⟩ := exists_piece inStep.last member
        rw [command]
        refine isPiece.exists_renders_harmless areUnits fun token tokenMem isArgument => ?_
        obtain ⟨value, reads⟩ := inStep.closed token (tokens token tokenMem) isArgument
        exact ⟨value, reads, fun forbidden =>
          harmless token (tokens token tokenMem) ⟨value, reads, forbidden⟩⟩)
      inStep.cleaned
    rcases arguments with same | ⟨-, same⟩ <;> rw [same]
    · refine optionsAllowed_of_forall fun word member => ?_
      obtain ⟨group, groupMem, inGroup⟩ := List.mem_flatten.mp member
      exact forall_of_forall₂ areHarmless (fun _ _ each => each) group groupMem word inGroup
    · exact optionsAllowed_fallback
  · intro valued
    obtain ⟨groups, shows, arguments⟩ :=
        exists_userStage Entry.Shows rendered (fun part member => by
      obtain ⟨units, command, areUnits, isPiece, separable, tokens⟩ :=
        exists_piece inStep.last member
      rw [command]
      exact isPiece.exists_renders_exposed areUnits separable fun token tokenMem =>
        valued token (tokens token tokenMem)) inStep.cleaned
    obtain ⟨soundOrLeak, leaks⟩ := forall_not_leak_iff shows
    rw [← leaks, ← optionsAllowed_flatten_iff soundOrLeak]
    rcases arguments with same | ⟨rfl, same⟩ <;> rw [same]
    exact iff_of_true optionsAllowed_fallback areSound_nil.optionsAllowed

/-- A hidden flag stays an argument in a group, which is kept raw, and behind a flag without a
default. -/
theorem optionsAllowed_hidden_write :
    OptionsAllowed (userStage "( -fill '-write' ) -resize -write") := by
  let text : Text := "( -fill '-write' ) -resize '-write'"
  have tokens : Token.ofText (Validation.ofText text).command =
      ["(", "-fill", "'-write'", ")", "-resize", "'-write'"] := by
    decide +kernel
  have valued : ∀ token ∈ Token.ofText (Validation.ofText text).command,
      Token.isArgument token →
      Token.StandsForValue token := by
    have isHidden : Flag.IsHidden "-write" := by
      exact {
        writable := ⟨by decide, by decide⟩
        named := by decide
        notAllowed := by decide +kernel
        ownFlag := by decide }
    intro token member isArgument
    obtain rfl : token = "'-write'" := by
      have arguments : (Token.ofText (Validation.ofText text).command).filter Token.isArgument =
          ["'-write'", "'-write'"] := by
        rw [tokens]
        decide
      simpa [arguments] using List.mem_filter.mpr ⟨member, isArgument⟩
    exact ⟨"-write", fun _ _ => rfl, .inr isHidden⟩
  have inStep : IsInStep text "( -fill '-write' ) -resize -write" := by
    refine ⟨by decide +kernel, fun token member isArgument => ?_, by decide +kernel⟩
    obtain ⟨value, reads, -⟩ := valued token member isArgument
    exact ⟨value, reads⟩
  have command :
      (EditStack.ofParts {} .manual (Segment.split (Validation.ofText text).command)).command =
      .ok "( -fill '-write' ) -resize -write".toList := by
    decide +kernel
  obtain ⟨_, arguments, same, built, allowed⟩ := optionsAllowed_iff text {} .manual 64 48 false
  obtain rfl := Except.ok.inj (command.symm.trans same)
  obtain rfl : userStage "( -fill '-write' ) -resize -write" = arguments :=
    List.append_cancel_left (List.append_cancel_right built)
  exact ((allowed inStep).2 valued).mpr (by decide +kernel)

/-- A default takes the place of a flag that was quoted, a backslash moves the end of a quotation,
and a name of a file is cut off in front of a flag: each time, a forbidden flag is read as an
option. -/
theorem not_optionsAllowed_write :
    ((EditStack.ofParts {} .manual
        (Segment.split (Validation.ofText "-evaluate Add '-write'").command)).command =
          .ok "-evaluate Add 0 -write".toList ∧
      ¬OptionsAllowed (userStage "-evaluate Add 0 -write")) ∧
    ((EditStack.ofParts {} .manual
        (Segment.split
            (Validation.ofText "( -fill \x22a\\\x22 -tint \x22 -write x\x22 )").command)).command =
          .ok "( -fill \x22a\\\x22 -tint \x22 -write x\x22 )".toList ∧
      ¬OptionsAllowed (userStage "( -fill \x22a\\\x22 -tint \x22 -write x\x22 )")) ∧
    ((EditStack.ofParts {} .manual
        (Segment.split (Validation.ofText "-roll out.png -fill out.png-write").command)).command =
          .ok "-roll out.png -fill out.png-write".toList ∧
      ¬OptionsAllowed (userStage "-roll out.png -fill out.png-write")) := by
  decide +kernel

end Invocation

end Retouch
