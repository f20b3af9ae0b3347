import Retouch.Proofs.Command.Idempotence
import Retouch.Proofs.Command.Segments
import Retouch.Proofs.Effect.Exposure
import Retouch.Proofs.Effect.RoundTrip
import Retouch.Stack

/-!
# Entries of a validated command

A stack of pushed commands joins what its entries render. An entry is made of whole units; where
each argument stands for a value, the text of the entry carries words that are known: those of its
effects, or, where a group keeps it raw, the flags with the values of their arguments.
-/

namespace Retouch

open Invocation

/-! ## Stacks of pushed commands -/

/-- The text of an entry that was made of a command. -/
def Entry.renderCommand (command : Text) : Except RangeError Text :=
  if (editableEffects command).isEmpty then .ok command
    else Effect.toCommand (editableEffects command)

theorem Entry.exists_renderCommand (command : Text) :
    ∃ text, renderCommand command = .ok text := by
  unfold renderCommand editableEffects
  split
  · exact ⟨_, rfl⟩
  · split
    · exact ⟨_, rfl⟩
    · exact Effect.exists_toCommand fun _ => Effect.exists_readRun_of_mem_ofCommand

namespace EditStack

/-- The stack that the parts of a command are pushed on, one after the other. -/
def ofParts (supply : IdSupply) (provenance : Provenance) (parts : List LabelledCommand) :
    EditStack :=
  (pushAll {} supply provenance parts).2.1

/-- The entries of pushed commands are enabled and editable. -/
theorem exists_entries_pushAll (stack : EditStack) (supply : IdSupply) (provenance : Provenance)
    (parts : List LabelledCommand) :
    ∃ entries : List Entry, (stack.pushAll supply provenance parts).2.1.entries =
      stack.entries ++ entries ∧
      List.Forall₂ (fun part entry => entry.enabled ∧
          entry.render = Entry.renderCommand part.command)
        parts entries := by
  induction parts generalizing stack supply with
  | nil => exact ⟨[], by simp [pushAll], .nil⟩
  | cons part parts ih =>
      obtain ⟨entries, pushed, rendered⟩ :=
        ih (stack.push supply part.label part.command provenance).2.1
          (stack.push supply part.label part.command provenance).2.2
      refine ⟨(stack.push supply part.label part.command provenance).1 :: entries, ?_,
        .cons ⟨rfl, rfl⟩ rendered⟩
      rw [pushAll]
      simp only [pushed]
      simp [push]

/-- A stack of pushed commands joins their texts. -/
theorem command_ofParts (supply : IdSupply) (provenance : Provenance) {parts : List LabelledCommand}
    {texts : List Text}
    (rendered : List.Forall₂ (fun part text => Entry.renderCommand part.command = .ok text)
        parts texts) :
    (ofParts supply provenance parts).command =
      .ok (Text.unwords (texts.filter fun text => !Text.isAllBlank text)) := by
  obtain ⟨entries, pushed, same⟩ := exists_entries_pushAll {} supply provenance parts
  have render : entries.filter (·.enabled) = entries ∧
      entries.mapM Entry.render = .ok texts := by
    clear pushed
    induction rendered generalizing entries with
    | nil =>
        cases same
        exact ⟨rfl, rfl⟩
    | cons first _ ih =>
        cases same with
        | cons head tail =>
            obtain ⟨enabled, renders⟩ := ih _ tail
            refine ⟨by simp [head.1, enabled], ?_⟩
            rw [List.mapM_cons, head.2, first, renders]
            rfl
  rw [ofParts, command, pushed, List.nil_append, render.1, render.2]
  rfl

end EditStack

/-! ## Reading units -/

namespace Operation

structure IsStep (good : Text → Prop) (operation : Operation) : Prop where
  good : ∀ value ∈ operation.arguments, good value
  either : (Flag.isAllowed operation.flag ∧
    operation.arguments.length = Flag.arity operation.flag) ∨
    (Token.isGroup operation.flag ∧ operation.arguments = [])

variable {good : Text → Prop} {operation : Operation}

theorem IsStep.flag_ne_nil (isStep : operation.IsStep good) : operation.flag ≠ [] := by
  rcases isStep.either with ⟨isAllowed, -⟩ | ⟨isGroup, -⟩
  · exact ne_nil_of_isFlag (Flag.isOrdinary_of_isAllowed isAllowed).writable.isFlag
  · exact (Token.isStart_of_not_isArgument (by simp [Token.isArgument, isGroup])).1

theorem IsStep.areSound (isStep : operation.IsStep good) : AreSound (operation.words id) := by
  rw [words, List.map_id]
  rcases isStep.either with ⟨isAllowed, count⟩ | ⟨isGroup, none⟩
  · refine areSound_cons (by simp [IsForbidden, isAllowed]) ?_
    rw [takenBy, if_pos isAllowed, count]
  · rw [none]
    rcases Token.isGroup_iff.mp isGroup with same | same <;> rw [same] <;>
      exact areSound_cons (by decide) (by decide)

theorem IsStep.not_isForbidden (isStep : operation.IsStep fun value => ¬IsForbidden value)
    {word : Text} (member : word ∈ operation.words id) : ¬IsForbidden word := by
  rw [words, List.map_id] at member
  rcases List.mem_cons.mp member with rfl | isValue
  · rintro ⟨isFlag, notAllowed⟩
    rcases isStep.either with ⟨isAllowed, -⟩ | ⟨isGroup, -⟩
    · simp [isAllowed] at notAllowed
    · simp [Token.isFlag_eq_false_of_isGroup isGroup] at isFlag
  · exact isStep.good word isValue

end Operation

theorem Token.isBare_of_isGroup {token : Text} (isGroup : Token.isGroup token) :
    Literal.IsBare token := by
  rcases Token.isGroup_iff.mp isGroup with rfl | rfl <;> decide

theorem Operation.IsStep.isBare {good : Text → Prop} {operation : Operation}
    (isStep : operation.IsStep good) :
    Literal.IsBare operation.flag := by
  rcases isStep.either with ⟨isAllowed, -⟩ | ⟨isGroup, -⟩
  · exact (Flag.isOrdinary_of_isAllowed isAllowed).writable.bare
  · exact Token.isBare_of_isGroup isGroup

theorem Operation.IsStep.isArgument_flag {good : Text → Prop} {operation : Operation}
    (isStep : operation.IsStep good) : Token.isArgument operation.flag = false := by
  rcases isStep.either with ⟨isAllowed, -⟩ | ⟨isGroup, -⟩
  · have isFlag := (Flag.isOrdinary_of_isAllowed isAllowed).writable.isFlag
    simp [Token.isArgument, isFlag]
  · simp [Token.isArgument, isGroup]

/-- Whether tokens are what an operation begins with and arguments that stand for its values. -/
inductive Operation.IsReadFrom (reads : Text → Text → Prop) :
    List Text → Operation → Prop where
  | intro {flag : Text} {tokens values : List Text} (each : List.Forall₂ reads tokens values) :
      IsReadFrom reads (flag :: tokens) ⟨flag, values⟩

section Steps

variable {reads : Text → Text → Prop} {good : Text → Prop} {units : List (List Text)}
  {operations : List Operation}

/-- A unit whose arguments stand for good values is read as a step. -/
theorem IsUnit.exists_operation {unit : List Text} (isUnit : IsUnit unit)
    (valued : ∀ token ∈ unit, Token.isArgument token →
      ∃ value, reads token value ∧ good value) :
    ∃ operation : Operation, operation.IsReadFrom reads unit ∧ operation.IsStep good := by
  obtain ⟨token, arguments, rfl, notArgument, plain⟩ := isUnit.exists_cons
  cases isFlag : Token.isFlag token with
  | false =>
      have isGroup : Token.isGroup token := by simpa [Token.isArgument, isFlag] using notArgument
      obtain rfl : arguments = [] := by
        simpa using isUnit.eq_singleton token (by simp) (.inl isGroup)
      exact ⟨⟨token, []⟩, .intro .nil, by simp, .inr ⟨isGroup, rfl⟩⟩
  | true =>
      obtain ⟨isAllowed, count⟩ := isUnit.count isFlag
      obtain ⟨values, stand⟩ := exists_forall₂ fun argument member =>
        valued argument (List.mem_cons_of_mem _ member) (plain argument member)
      have areGood : ∀ value ∈ values, good value :=
        forall_of_forall₂ stand fun _ _ both => both.2
      exact ⟨⟨token, values⟩, .intro (stand.imp fun _ _ both => both.1), areGood,
        .inl ⟨isAllowed, stand.length_eq ▸ count⟩⟩

/-- Units whose arguments stand for good values are read as steps. -/
theorem exists_steps_of_units (areUnits : ∀ unit ∈ units, IsUnit unit)
    (valued : ∀ token ∈ units.flatten, Token.isArgument token →
        ∃ value, reads token value ∧ good value) :
    ∃ operations : List Operation, List.Forall₂
      (fun unit operation => operation.IsReadFrom reads unit ∧ operation.IsStep good)
      units operations :=
  exists_forall₂ fun unit member => (areUnits unit member).exists_operation fun token inUnit =>
    valued token (List.mem_flatten.mpr ⟨unit, member, inUnit⟩)

/-- The tokens of units stand for the words of the operations that they are read as. -/
theorem forall₂_words
    (areRead :
      List.Forall₂ (fun unit operation => operation.IsReadFrom reads unit) units operations)
    (fixed : ∀ operation ∈ operations, reads operation.flag operation.flag) :
    List.Forall₂ reads units.flatten (operations.flatMap (Operation.words id)) := by
  induction areRead with
  | nil => exact .nil
  | cons first _ ih =>
      rw [List.forall_mem_cons] at fixed
      rw [List.flatten_cons, List.flatMap_cons]
      refine List.rel_append ?_ (ih fixed.2)
      cases first with
      | intro each => exact .cons fixed.1 (by rwa [List.map_id])

end Steps

/-- The tokens of units whose arguments stand for good values are read as the words of steps. -/
theorem exists_operations_of_units {good : Text → Prop} {units : List (List Text)}
    (areUnits : ∀ unit ∈ units, IsUnit unit)
    (valued : ∀ token ∈ units.flatten, Token.isArgument token →
      ∃ value, Literal.Reads token value ∧ good value) :
    ∃ operations : List Operation,
      List.Forall₂ Literal.Reads units.flatten (operations.flatMap (Operation.words id)) ∧
      ∀ operation ∈ operations, operation.flag ∈ units.flatten ∧ operation.IsStep good := by
  obtain ⟨operations, steps⟩ := exists_steps_of_units areUnits valued
  have areSteps : ∀ operation ∈ operations, operation.IsStep good :=
    forall_of_forall₂ steps fun _ _ both => both.2
  refine ⟨operations, forall₂_words (steps.imp fun _ _ both => both.1) fun operation member =>
    (areSteps operation member).isBare.reads, fun operation member =>
      ⟨?_, areSteps operation member⟩⟩
  obtain ⟨unit, unitMem, ⟨each⟩, -⟩ := exists_mem_of_forall₂ steps.flip operation member
  exact List.mem_flatten.mpr ⟨_, unitMem, List.mem_cons_self⟩

/-! ## Entries -/

/-- Whether an entry that was made of a command is rendered as a visible text that carries words. -/
structure Entry.Renders (command text : Text) (words : List Text) : Prop where
  renders : renderCommand command = .ok text
  visible : Text.isAllBlank text = false
  carries : Literal.Carries text words
  nonempty : words ≠ []

/-- Whether words leak if an entry that was made of a command exposes a flag, and are sound
otherwise. -/
def Entry.Shows (command : Text) (words : List Text) : Prop :=
  (Effect.Exposes false (editableEffects command) ∧ Leak words) ∨
    (¬Effect.Exposes false (editableEffects command) ∧ AreSound words)

theorem Text.isAllBlank_eq_false {text : Text} (start : ∃ c ∈ text.head?, isBlank c = false) :
    isAllBlank text = false := by
  obtain ⟨c, head, notBlank⟩ := start
  exact List.all_eq_false.mpr ⟨c, List.mem_of_mem_head? head, by simp [notBlank]⟩

theorem exists_notBlank {text : Text} (start : ∃ c ∈ text.head?, c = '-' ∨ c = '+') :
    ∃ c ∈ text.head?, Text.isBlank c = false := by
  obtain ⟨c, head, sign⟩ := start
  exact ⟨c, head, by rcases sign with rfl | rfl <;> decide⟩

theorem IsValue.ne_nil {value : Text} (isValue : IsValue value) : value ≠ [] := by
  rcases isValue with ⟨nonempty, -⟩ | isHidden
  · exact nonempty
  · exact Operation.ne_nil_of_isFlag isHidden.writable.isFlag

theorem Token.IsCloser.isBlank_getLast? {token : Text} (closes : Token.IsCloser token) :
    token ≠ [] ∧ ∀ c ∈ token.getLast?, Text.isBlank c = false := by
  rcases closes with isGroup | rfl
  · rcases Token.isGroup_iff.mp isGroup with rfl | rfl <;> decide
  · decide

theorem Operation.not_isForbidden_of_mem_allWords {operations : List Operation}
    (areAllowed : ∀ operation ∈ operations, operation.IsSettled ∧
        Flag.isAllowed operation.flag)
    {scopeOpen : Bool} {word : Text} (member : word ∈ allWords id scopeOpen operations) :
    ¬IsForbidden word := by
  induction operations generalizing scopeOpen with
  | nil => simp [allWords] at member
  | cons operation operations ih =>
      obtain ⟨settled, isAllowed⟩ := areAllowed operation (by simp)
      have inWords (member : word ∈ operation.words id) : ¬IsForbidden word := by
        rw [words, List.map_id] at member
        rcases List.mem_cons.mp member with rfl | isArgument
        · simp [IsForbidden, isAllowed]
        · have plain := (settled.settles.plain word isArgument).2
          rintro ⟨isFlag, -⟩
          simp [Token.isArgument, isFlag] at plain
      rcases List.mem_append.mp member with here | later
      · unfold scopedWords at here
        split at here
        · simp only [List.mem_append, List.mem_cons, List.not_mem_nil, or_false] at here
          rcases here with ((rfl | rfl) | inside) | rfl
          · decide
          · decide
          · exact inWords inside
          · decide
        · exact inWords here
      · exact ih (fun other otherMem => areAllowed other (List.mem_cons_of_mem _ otherMem)) later

namespace Segment

variable {units : List (List Text)}

theorem exists_head?_units (areUnits : ∀ unit ∈ units, IsUnit unit)
    (some : units.flatten ≠ []) :
    ∃ c ∈ (Text.unwords units.flatten).head?, Text.isBlank c = false := by
  obtain ⟨token, rest, parts⟩ := List.exists_cons_of_ne_nil some
  have isStart :=
    Token.isStart_of_not_isArgument (isArgument_head?_units areUnits token (by simp [parts]))
  obtain ⟨c, others, characters⟩ := List.exists_cons_of_ne_nil isStart.1
  have head : c ∈ token.head? := by rw [characters]; rfl
  refine ⟨c, ?_, (isStart.2 c head).isBlank⟩
  rwa [parts, Text.head?_unwords_cons isStart.1]

/-- The group delimiters of a piece are found when its text is read. -/
theorem IsPiece.any_isGroup (areUnits : ∀ unit ∈ units, IsUnit unit)
    (isPiece : IsPiece units.flatten)
    (separable : Token.Separable units.flatten) {token : Text} (member : token ∈ units.flatten)
    (isGroup : Token.isGroup token) :
    (Token.ofText (Text.unwords units.flatten)).any Token.isGroup := by
  cases isPiece with
  | @closed closer last closes =>
      obtain ⟨front, parts⟩ : ∃ front, units.flatten = front ++ [closer] :=
        List.getLast?_eq_some_iff.mp last
      have start : ∀ c ∈ (Text.unwords units.flatten).head?, Text.isBlank c = false := by
        obtain ⟨c, head, notBlank⟩ := exists_head?_units areUnits (by simp [parts])
        intro d otherHead
        obtain rfl := Option.some.inj (head.symm.trans otherHead)
        exact notBlank
      have tokens := Token.ofText_unwords separable start (by
        rw [parts, Text.getLast?_unwords_concat front closes.isBlank_getLast?.1]
        exact closes.isBlank_getLast?.2)
      rw [tokens]
      exact List.any_eq_true.mpr ⟨token, member, isGroup⟩
  | single isUnit isFlag =>
      have alone := isUnit.eq_singleton token member (.inl isGroup)
      have flag := isFlag token (by simp [alone])
      simp [Token.isFlag_eq_false_of_isGroup isGroup] at flag

theorem IsPiece.operations_ne_nil (isPiece : IsPiece units.flatten) {operations : List Operation}
    (reads : List.Forall₂ Literal.Reads units.flatten (operations.flatMap (Operation.words id))) :
    operations ≠ [] := by
  rintro rfl
  rw [List.flatMap_nil, List.forall₂_nil_right_iff] at reads
  exact isPiece.ne_nil reads

theorem editableEffects_eq {command : Text} {words : List Text}
    (carries : Literal.Carries command words)
    (some : Entry.editableEffects command ≠ []) :
    Entry.editableEffects command = Effect.ofTokens words := by
  unfold Entry.editableEffects at some ⊢
  split at some
  · exact absurd rfl some
  · next ungrouped => rw [if_neg ungrouped, Effect.ofCommand, carries.split_eq]

/-- Effects that were read from words without forbidden flags are written without them. -/
theorem exists_harmless_words {words : List Text} (nonempty : ∀ word ∈ words, word ≠ [])
    (harmless : ∀ word ∈ words, ¬IsForbidden word) (some : Effect.ofTokens words ≠ []) :
    ∃ text others, Effect.toCommand (Effect.ofTokens words) = .ok text ∧
      (∃ c ∈ text.head?, c = '-' ∨ c = '+') ∧
      Literal.Carries text others ∧ others ≠ [] ∧
      ∀ word ∈ others, ¬IsForbidden word := by
  obtain ⟨operations, both⟩ : ∃ operations : List Operation, List.Forall₂
      (fun effect operation => Flag.isAllowed operation.flag ∧ effect.SettlesAs operation)
      (Effect.ofTokens words) operations := by
    refine exists_forall₂ fun effect member => ?_
    obtain ⟨flag, run, flagMem, isFlag, plain, rfl⟩ :=
      Effect.exists_readRun_of_mem nonempty member
    have isAllowed : Flag.isAllowed flag := by
      by_contra notAllowed
      exact harmless flag flagMem ⟨isFlag, by simpa using notAllowed⟩
    obtain ⟨written, isWrittenAs⟩ :=
      Operation.exists_isWrittenAs (show Flag.isAllowed (Operation.mk flag run).flag from isAllowed)
        plain
    exact ⟨written, by rwa [isWrittenAs.flag], isWrittenAs.settles⟩
  have settle : List.Forall₂ Effect.SettlesAs (Effect.ofTokens words) operations :=
    both.imp fun _ _ pair => pair.2
  have areAllowed : ∀ operation ∈ operations, Flag.isAllowed operation.flag :=
    forall_of_forall₂ both fun _ _ pair => pair.1
  obtain ⟨text, written, start, carries, others_ne⟩ :=
    Effect.exists_carries_of_settlesAs settle some
  refine ⟨text, _, written, start, carries, others_ne, fun word member => ?_⟩
  exact Operation.not_isForbidden_of_mem_allWords
    (fun operation operationMem => ⟨Effect.areSettled settle operation operationMem,
      areAllowed operation operationMem⟩) member

/-- A piece none of whose arguments stands for a forbidden flag makes an entry without forbidden
words. -/
theorem IsPiece.exists_renders_harmless (areUnits : ∀ unit ∈ units, IsUnit unit)
    (isPiece : IsPiece units.flatten)
    (valued : ∀ token ∈ units.flatten, Token.isArgument token →
      ∃ value, Literal.Reads token value ∧ ¬IsForbidden value) :
    ∃ text words, Entry.Renders (Text.unwords units.flatten) text words ∧
      ∀ word ∈ words, ¬IsForbidden word := by
  obtain ⟨operations, reads, areSteps⟩ := exists_operations_of_units areUnits valued
  obtain ⟨words, carries, words_ne, nonempty, harmless⟩ : ∃ words,
      Literal.Carries (Text.unwords units.flatten) words ∧ words ≠ [] ∧
        (∀ word ∈ words, word ≠ []) ∧
        ∀ word ∈ words, ¬IsForbidden word := by
    refine ⟨_, ⟨_, _, rfl, reads, rfl⟩, ?_, by simp, fun word member => ?_⟩
    · obtain ⟨first, others, rfl⟩ :=
        List.exists_cons_of_ne_nil (isPiece.operations_ne_nil reads)
      simp [Operation.words, (areSteps first (by simp)).2.flag_ne_nil]
    · obtain ⟨operation, operationMem, inWords⟩ :=
        List.mem_flatMap.mp (List.mem_filter.mp member).1
      exact (areSteps operation operationMem).2.not_isForbidden inWords
  by_cases raw : Entry.editableEffects (Text.unwords units.flatten) = []
  · exact ⟨_, words, ⟨by simp [Entry.renderCommand, raw],
      Text.isAllBlank_eq_false (exists_head?_units areUnits isPiece.ne_nil), carries, words_ne⟩,
        harmless⟩
  · have effects := editableEffects_eq carries raw
    obtain ⟨text, others, rendered, start, carriesOthers, others_ne, harmlessOthers⟩ :=
      exists_harmless_words nonempty harmless (effects ▸ raw)
    refine ⟨text, others,
      ⟨?_, Text.isAllBlank_eq_false (exists_notBlank start), carriesOthers, others_ne⟩,
      harmlessOthers⟩
    rw [Entry.renderCommand, if_neg (by simpa using raw), effects, rendered]

/-- A piece whose arguments stand for arguments and hidden flags makes an entry whose words leak if
the entry exposes a flag, and are sound otherwise. -/
theorem IsPiece.exists_renders_exposed (areUnits : ∀ unit ∈ units, IsUnit unit)
    (isPiece : IsPiece units.flatten) (separable : Token.Separable units.flatten)
    (valued : ∀ token ∈ units.flatten, Token.isArgument token →
      ∃ value, Literal.Reads token value ∧ IsValue value) :
    ∃ text words, Entry.Renders (Text.unwords units.flatten) text words ∧
      Entry.Shows (Text.unwords units.flatten) words := by
  obtain ⟨operations, reads, areSteps⟩ := exists_operations_of_units areUnits valued
  have some := isPiece.operations_ne_nil reads
  have carries : Literal.Carries (Text.unwords units.flatten)
      (operations.flatMap (Operation.words id)) := by
    refine Literal.carries_unwords reads fun word member => ?_
    obtain ⟨operation, operationMem, inWords⟩ := List.mem_flatMap.mp member
    have isStep := (areSteps operation operationMem).2
    rw [Operation.words, List.map_id] at inWords
    rcases List.mem_cons.mp inWords with rfl | isValue
    · exact isStep.flag_ne_nil
    · exact (isStep.good word isValue).ne_nil
  -- With a group in it the entry is kept raw, and all of its values stay arguments; without one it
  -- is written from its effects, which can show what a value hides.
  cases grouped : (Token.ofText (Text.unwords units.flatten)).any Token.isGroup with
  | true =>
      have raw : Entry.editableEffects (Text.unwords units.flatten) = [] := by
        rw [Entry.editableEffects, if_pos grouped]
      have words_ne : operations.flatMap (Operation.words id) ≠ [] := by
        obtain ⟨first, others, rfl⟩ := List.exists_cons_of_ne_nil some
        simp [Operation.words]
      have sound : AreSound (operations.flatMap (Operation.words id)) := by
        rw [List.flatMap_def]
        refine areSound_flatten fun group member => ?_
        obtain ⟨operation, operationMem, rfl⟩ := List.mem_map.mp member
        exact (areSteps operation operationMem).2.areSound
      exact ⟨_, _, ⟨by simp [Entry.renderCommand, raw],
        Text.isAllBlank_eq_false (exists_head?_units areUnits isPiece.ne_nil), carries, words_ne⟩,
        .inr ⟨by rw [raw]; exact id, sound⟩⟩
  | false =>
      have areCalls : ∀ operation ∈ operations, operation.IsCall := by
        intro operation member
        obtain ⟨flag, good, ⟨isAllowed, count⟩ | ⟨isGroup, -⟩⟩ :=
          areSteps operation member
        · exact ⟨isAllowed, count, good⟩
        · simp [isPiece.any_isGroup areUnits separable flag isGroup] at grouped
      obtain ⟨effects_ne, text, words, rendered, start, carriesWords, words_ne, either⟩ :=
        Effect.exists_carries_of_calls areCalls some
      have effects : Entry.editableEffects (Text.unwords units.flatten) =
          Effect.ofTokens (operations.flatMap (Operation.words id)) := by
        rw [Entry.editableEffects, if_neg (by simp [grouped]), Effect.ofCommand, carries.split_eq]
      rw [← effects] at effects_ne rendered either
      refine ⟨text, words,
        ⟨?_, Text.isAllBlank_eq_false (exists_notBlank start), carriesWords, words_ne⟩,
        either⟩
      rw [Entry.renderCommand, if_neg (by simpa using effects_ne), rendered]

end Segment

end Retouch
