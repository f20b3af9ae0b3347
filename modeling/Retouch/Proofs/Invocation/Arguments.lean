import Retouch.Invocation
import Retouch.Proofs.Command.Filenames
import Retouch.Proofs.Invocation.Entries

/-!
# Arguments at the engine

In a validated command every flag has as many arguments as its rule asks for. On its way to the
engine the command is cleaned once more, which takes the names of files away, and its arguments lose
their quotes. An argument of which nothing is left, or which is read as a flag or a group delimiter,
is missed by its flag. The arguments of all flags survive exactly if this happens to none of them.
-/

namespace Retouch

/-- Whether what is left of a token without its file names is read as one value and does not end
with a blank character. -/
structure Token.StaysOne (token : Text) : Prop where
  closed : ∃ value, Literal.Reads (Cleanup.removeFilenames token) value
  last : ∀ c ∈ (Cleanup.removeFilenames token).getLast?, Text.isBlank c = false

/-- Whether a token still stands for an argument when its file names are taken away. -/
def Token.StaysArgument (token : Text) : Prop :=
  ∃ value, Literal.Reads (Cleanup.removeFilenames token) value ∧ value ≠ [] ∧
    Token.isArgument value

namespace Flag

theorem isFlag_of_mem_rules {rule : Rule} (isRule : rule ∈ rules) : Token.isFlag rule.flag := by
  have areFlags : ∀ rule ∈ rules, Token.isFlag rule.flag := by decide +kernel
  exact areFlags rule isRule

theorem rule?_eq_none_of_isArgument {token : Text} (isArgument : Token.isArgument token) :
    rule? token = none := by
  refine rule?_eq_none_iff.mpr fun rule isRule same => ?_
  have isFlag := isFlag_of_mem_rules isRule
  simp [Token.isArgument, ← same, isFlag] at isArgument

end Flag

/-- Allowed flags and group delimiters have no dot, and none ends with a blank character. -/
theorem Token.isFixed {token : Text} (either : Flag.isAllowed token ∨ Token.isGroup token) :
    Cleanup.removeFilenames token = token ∧ ∀ c ∈ token.getLast?, Text.isBlank c = false := by
  have areFixed : ∀ token ∈ Token.groupOpen :: Token.groupClose :: Flag.allowed,
      '.' ∉ token ∧ ∀ c ∈ token.getLast?, Text.isBlank c = false := by
    decide +kernel
  have member : token ∈ Token.groupOpen :: Token.groupClose :: Flag.allowed := by
    rcases either with isAllowed | isGroup
    · exact List.mem_cons_of_mem _ (List.mem_cons_of_mem _ (List.contains_iff_mem.mp isAllowed))
    · rcases Token.isGroup_iff.mp isGroup with rfl | rfl <;> simp
  rcases areFixed token member with ⟨noDot, last⟩
  exact ⟨Cleanup.removeFilenames_eq_self noDot, last⟩

/-- What is no argument in a unit is an allowed flag or a group delimiter. -/
theorem IsUnit.isAllowed_or_isGroup {unit : List Text} (isUnit : IsUnit unit) {token : Text}
    (member : token ∈ unit) (notArgument : Token.isArgument token = false) :
    Flag.isAllowed token ∨ Token.isGroup token := by
  cases isFlag : Token.isFlag token with
  | false => exact .inr (by simpa [Token.isArgument, isFlag] using notArgument)
  | true => exact .inl (List.contains_iff_mem.mpr (isUnit.flag_allowed member isFlag))

theorem Text.trimEnd_unwords_concat_nil (front : List Text) :
    trimEnd (unwords (front ++ [[]])) = trimEnd (unwords front) := by
  by_cases alone : front = []
  · subst alone
    rfl
  · rw [unwords_append alone (by simp), unwords_singleton]
    exact List.rdropWhile_concat_pos isBlank _ _ isBlank_space

namespace Literal

/-- Written forms that end with no blank character are read as their values also when the spaces at
the end of their join, which empty forms leave there, are trimmed. -/
theorem split_trimEnd_unwords {written values : List Text}
    (reads : List.Forall₂ Reads written values)
    (last : ∀ form ∈ written, ∀ c ∈ form.getLast?, Text.isBlank c = false) :
    split (Text.trimEnd (Text.unwords written)) = values.filter (!·.isEmpty) := by
  induction written using List.reverseRecOn generalizing values with
  | nil =>
      obtain rfl := List.forall₂_nil_left_iff.mp reads
      rfl
  | append_singleton front form ih =>
      cases form with
      | cons c form =>
          have notBlank := last (c :: form) (by simp)
          rw [← Text.getLast?_unwords_concat front (by simp)] at notBlank
          rw [Text.trimEnd_eq_self_iff.mpr notBlank, split_unwords_filter reads]
      | nil =>
          rcases exists_concat_of_forall₂ reads with
            ⟨frontValues, value, rfl, readsFront, readsForm⟩
          obtain rfl := readsForm.eq_nil
          rw [Text.trimEnd_unwords_concat_nil, List.filter_append,
            ih readsFront fun other member => last other (List.mem_append_left _ member)]
          simp

end Literal

namespace Invocation

/-- Whether every flag with a rule is followed by exactly as many arguments as its rule asks for. -/
def KeepsArguments : List Text → Prop
  | [] => True
  | token :: rest =>
      (∀ rule ∈ Flag.rule? token, (Token.argumentRun rest).length = rule.arity) ∧
        KeepsArguments rest

instance decidableKeepsArguments : ∀ tokens : List Text, Decidable (KeepsArguments tokens)
  | [] => inferInstanceAs (Decidable True)
  | token :: rest =>
      have : Decidable (KeepsArguments rest) := decidableKeepsArguments rest
      have : Decidable (∀ rule ∈ Flag.rule? token, (Token.argumentRun rest).length =
          rule.arity) :=
        Option.decidableForallMem (Flag.rule? token)
      inferInstanceAs (Decidable (_ ∧ _))

theorem KeepsArguments.of_append {front back : List Text} (keeps : KeepsArguments (front ++ back)) :
    KeepsArguments back := by
  induction front with
  | nil => exact keeps
  | cons token front ih => exact ih keeps.2

theorem KeepsArguments.append {front back : List Text}
    (plain : ∀ token ∈ front, Token.isArgument token)
    (keeps : KeepsArguments back) : KeepsArguments (front ++ back) := by
  induction front with
  | nil => exact keeps
  | cons token front ih =>
      rw [List.forall_mem_cons] at plain
      refine ⟨?_, ih plain.2⟩
      rw [Flag.rule?_eq_none_of_isArgument plain.1]
      simp

/-- Of a list with some elements left out, all elements are there and have a property as soon as the
beginning that has it is as long as the whole list. -/
theorem length_takeWhile_filter_eq_iff {α : Type} {keep holds : α → Bool} {items : List α} :
    ((items.filter keep).takeWhile holds).length = items.length ↔
      ∀ item ∈ items, keep item ∧ holds item := by
  constructor
  · intro same
    have shorter := (List.takeWhile_prefix holds (l := items.filter keep)).length_le
    have areKept : items.filter keep = items :=
      List.filter_sublist.eq_of_length
        (Nat.le_antisymm (List.length_filter_le keep items) (same ▸ shorter))
    rw [areKept] at same
    have areHeld : items.takeWhile holds = items := (List.takeWhile_prefix holds).eq_of_length same
    intro item member
    exact ⟨List.filter_eq_self.mp areKept item member,
      List.takeWhile_eq_self_iff.mp areHeld item member⟩
  · intro each
    have areKept : items.filter keep = items := List.filter_eq_self.mpr fun item member =>
      (each item member).1
    rw [areKept, List.takeWhile_eq_self_iff.mpr fun item member => (each item member).2]

/-- A step has as many values as the rule of its flag asks for. -/
theorem length_arguments {good : Text → Prop} {operation : Operation}
    (isStep : operation.IsStep good) :
    operation.arguments.length = Flag.arity operation.flag := by
  rcases isStep.either with ⟨-, count⟩ | ⟨isGroup, none⟩
  · exact count
  · rw [none]
    rcases Token.isGroup_iff.mp isGroup with same | same <;> rw [same] <;> decide +kernel

/-- A step in front of tokens that do not begin with an argument keeps its arguments exactly if each
of its values is there and an argument. -/
theorem keepsArguments_words_iff {operation : Operation} (isStep : operation.IsStep fun _ => True)
    {rest : List Text} (stop : ∀ token ∈ rest.head?, Token.isArgument token = false) :
    KeepsArguments ((operation.words id).filter (!·.isEmpty) ++ rest) ↔
      (∀ value ∈ operation.arguments, value ≠ [] ∧ Token.isArgument value) ∧
        KeepsArguments rest := by
  have words : (operation.words id).filter (!·.isEmpty) =
      operation.flag :: operation.arguments.filter (!·.isEmpty) := by
    simp [Operation.words, isStep.flag_ne_nil]
  have areArguments :
      (∀ value ∈ operation.arguments, value ≠ [] ∧ Token.isArgument value) ↔
      (Token.argumentRun (operation.arguments.filter (!·.isEmpty) ++ rest)).length =
        operation.arguments.length := by
    rw [Token.argumentRun_append_of_stop stop, Token.argumentRun, length_takeWhile_filter_eq_iff]
    simp
  have asksFor :
      (∀ rule ∈ Flag.rule? operation.flag,
        (Token.argumentRun (operation.arguments.filter (!·.isEmpty) ++ rest)).length =
          rule.arity) ↔
        ∀ value ∈ operation.arguments, value ≠ [] ∧ Token.isArgument value := by
    rw [areArguments]
    have count := length_arguments isStep
    unfold Flag.arity at count
    cases found : Flag.rule? operation.flag with
    | none =>
        have none : operation.arguments = [] := by simpa [found] using count
        simpa [none] using (areArguments.mp (by simp [none]))
    | some rule => simp [count, found]
  rw [words, List.cons_append, KeepsArguments, asksFor]
  refine and_congr_right fun each =>
    ⟨KeepsArguments.of_append, fun keeps => keeps.append fun value member => ?_⟩
  exact (each value (List.mem_filter.mp member).1).2

theorem isArgument_head?_filter_words {operations : List Operation}
    (areSteps : ∀ operation ∈ operations, operation.IsStep fun _ => True) :
    ∀ token ∈ ((operations.flatMap (Operation.words id)).filter (!·.isEmpty)).head?,
      Token.isArgument token = false := by
  cases operations with
  | nil => simp
  | cons operation operations =>
      have isStep := areSteps operation (by simp)
      simp [Operation.words, isStep.flag_ne_nil, isStep.isArgument_flag]

/-- Steps keep their arguments exactly if each of their values is there and an argument. -/
theorem keepsArguments_flatMap_words_iff {operations : List Operation}
    (areSteps : ∀ operation ∈ operations, operation.IsStep fun _ => True) :
    KeepsArguments ((operations.flatMap (Operation.words id)).filter (!·.isEmpty)) ↔
      ∀ operation ∈ operations, ∀ value ∈ operation.arguments, value ≠ [] ∧
        Token.isArgument value := by
  induction operations with
  | nil => simp [KeepsArguments]
  | cons operation operations ih =>
      rw [List.forall_mem_cons] at areSteps
      rw [List.flatMap_cons, List.filter_append,
        keepsArguments_words_iff areSteps.1 (isArgument_head?_filter_words areSteps.2),
          ih areSteps.2,
        List.forall_mem_cons]

/-- In a validated command every flag has its arguments. -/
theorem keepsArguments_keptTokens (text : Text) : KeepsArguments (Validation.keptTokens text) := by
  have nonempty : ∀ token ∈ Validation.keptTokens text, token ≠ [] := fun token member =>
    (Validation.separable_keptTokens text).ne_nil member
  have valued : ∀ token ∈ Validation.keptTokens text, Token.isArgument token →
      ∃ value, token = value ∧ value ≠ [] ∧ Token.isArgument value :=
    fun token member isArgument => ⟨token, rfl, nonempty token member, isArgument⟩
  rcases
    exists_steps_of_units (fun unit member => Validation.isUnit_of_mem_units member) valued with
    ⟨operations, steps⟩
  have words : Validation.keptTokens text = operations.flatMap (Operation.words id) := by
    have pairs := forall₂_words (steps.imp fun _ _ both => both.1) fun _ _ => rfl
    rwa [List.forall₂_eq_eq_eq] at pairs
  have all : (operations.flatMap (Operation.words id)).filter (!·.isEmpty) =
      Validation.keptTokens text := by
    rw [← words, List.filter_eq_self]
    simpa using nonempty
  have areSteps := forall_of_forall₂ steps fun _ _ both => both.2
  rw [← all, keepsArguments_flatMap_words_iff fun operation member =>
    ⟨fun _ _ => trivial, (areSteps operation member).either⟩]
  exact fun operation member => (areSteps operation member).good

variable {text : Text}

/-- What the engine gets of a validated command are the values that are left of its arguments, empty
ones excepted, with their flags. -/
theorem userStage_command {operations : List Operation}
    (areRead : List.Forall₂
      (fun unit operation =>
        operation.IsReadFrom
          (fun token value => Literal.Reads (Cleanup.removeFilenames token) value) unit)
      (Validation.units (Token.ofText (Cleanup.forValidation text))) operations)
    (areSteps : ∀ operation ∈ operations, operation.IsStep fun _ => True)
      (some : operations ≠ [])
    (last : ∀ token ∈ Validation.keptTokens text,
      ∀ c ∈ (Cleanup.removeFilenames token).getLast?, Text.isBlank c = false) :
    userStage (Validation.ofText text).command =
      (operations.flatMap (Operation.words id)).filter (!·.isEmpty) := by
  have reads : List.Forall₂ Literal.Reads
      ((Validation.keptTokens text).map Cleanup.removeFilenames)
      (operations.flatMap (Operation.words id)) := by
    rw [List.forall₂_map_left_iff]
    refine forall₂_words areRead fun operation member => ?_
    have isStep := areSteps operation member
    rw [(Token.isFixed (isStep.either.imp And.left And.left)).1]
    exact isStep.isBare.reads
  have cleaned : Cleanup.forEngine (Validation.ofText text).command =
      Text.trimEnd (Text.unwords ((Validation.keptTokens text).map Cleanup.removeFilenames)) := by
    rw [(Validation.isClean_command text).forEngine_eq (Validation.isStart_command text),
      Validation.command_ofText, ← Cleanup.removeFilenames_unwords]
    rfl
  have words : Literal.split (Cleanup.forEngine (Validation.ofText text).command) =
      (operations.flatMap (Operation.words id)).filter (!·.isEmpty) := by
    rw [cleaned]
    refine Literal.split_trimEnd_unwords reads fun form member => ?_
    rcases List.mem_map.mp member with ⟨token, tokenMem, rfl⟩
    exact last token tokenMem
  rw [userStage]
  split
  · next empty =>
      rcases List.exists_cons_of_ne_nil some with ⟨operation, others, rfl⟩
      have flag_ne := (areSteps operation (by simp)).flag_ne_nil
      rw [List.isEmpty_iff.mp empty] at words
      simp [Operation.words, flag_ne, Literal.split, Literal.splitFrom, Literal.State.flush]
        at words
  · exact words

/-- The values that are left of the arguments of a validated command make up steps, which keep their
arguments at the engine exactly if each of the values is there and an argument. -/
theorem exists_steps_userStage {good : Text → Prop}
    (valued : ∀ token ∈ Validation.keptTokens text, Token.isArgument token →
      ∃ value, Literal.Reads (Cleanup.removeFilenames token) value ∧ good value)
    (last : ∀ token ∈ Validation.keptTokens text,
      ∀ c ∈ (Cleanup.removeFilenames token).getLast?, Text.isBlank c = false)
    (some : Validation.keptTokens text ≠ []) :
    ∃ operations, List.Forall₂
        (fun unit (operation : Operation) =>
          operation.IsReadFrom
            (fun token value => Literal.Reads (Cleanup.removeFilenames token) value) unit ∧
            operation.IsStep good)
        (Validation.units (Token.ofText (Cleanup.forValidation text))) operations ∧
      (KeepsArguments (userStage (Validation.ofText text).command) ↔
        ∀ operation ∈ operations, ∀ value ∈ operation.arguments, value ≠ [] ∧
            Token.isArgument value) := by
  rcases
    exists_steps_of_units (fun unit member => Validation.isUnit_of_mem_units member) valued with
    ⟨operations, steps⟩
  have areSteps : ∀ operation ∈ operations, operation.IsStep fun _ => True :=
    forall_of_forall₂ steps fun _ _ both => ⟨fun _ _ => trivial, both.2.either⟩
  have operations_ne : operations ≠ [] := by
    rintro rfl
    rw [Validation.keptTokens, List.forall₂_nil_right_iff.mp steps] at some
    exact some rfl
  refine ⟨operations, steps, ?_⟩
  rw [userStage_command (steps.imp fun _ _ both => both.1) areSteps operations_ne last,
    keepsArguments_flatMap_words_iff areSteps]

/-- A validated command consists of tokens in which every flag has the arguments that its rule asks
for. Where each argument is read as one value also without its file names, the flags still have them
at the engine exactly if each of these values is there and an argument. -/
theorem keepsArguments_build_iff {text : Text}
    (stayOne : ∀ token ∈ Validation.keptTokens text, Token.isArgument token →
        Token.StaysOne token)
    (width height : Int) (isExport : Bool) :
    (Validation.ofText text).command = Text.unwords (Validation.keptTokens text) ∧
      KeepsArguments (Validation.keptTokens text) ∧
      ∃ arguments, build (Validation.ofText text).command width height isExport =
          inputStage width height ++ arguments ++ outputStage width height isExport ∧
        (KeepsArguments arguments ↔
          ∀ token ∈ Validation.keptTokens text, Token.isArgument token →
            Token.StaysArgument token) := by
  refine ⟨Validation.command_ofText text, keepsArguments_keptTokens text, _, rfl, ?_⟩
  have isUnit : ∀ unit ∈ Validation.units (Token.ofText (Cleanup.forValidation text)),
      IsUnit unit :=
    fun unit member => Validation.isUnit_of_mem_units member
  have last : ∀ token ∈ Validation.keptTokens text,
      ∀ c ∈ (Cleanup.removeFilenames token).getLast?, Text.isBlank c = false := by
    intro token member
    cases isArgument : Token.isArgument token with
    | true => exact (stayOne token member isArgument).last
    | false =>
        rcases List.mem_flatten.mp member with ⟨unit, unitMem, inUnit⟩
        rcases Token.isFixed ((isUnit unit unitMem).isAllowed_or_isGroup inUnit isArgument) with
          ⟨fixed, last⟩
        rwa [fixed]
  -- Where nothing was kept, the engine runs the fallback.
  by_cases some : Validation.keptTokens text = []
  · rw [Validation.command_ofText, ← Validation.keptTokens, some]
    exact iff_of_true (by decide +kernel) (by simp)
  constructor
  · intro keeps token member isArgument
    have closed : ∀ token ∈ Validation.keptTokens text, Token.isArgument token →
        ∃ value, Literal.Reads (Cleanup.removeFilenames token) value ∧ True := by
      intro token member isArgument
      rcases (stayOne token member isArgument).closed with ⟨value, reads⟩
      exact ⟨value, reads, trivial⟩
    rcases exists_steps_userStage closed last some with ⟨operations, steps, keeps_iff⟩
    rcases List.mem_flatten.mp member with ⟨unit, unitMem, inUnit⟩
    rcases exists_mem_of_forall₂ steps unit unitMem with
      ⟨operation, operationMem, isRead, isStep⟩
    rcases isRead with @⟨flag, tokens, values, each⟩
    rcases List.mem_cons.mp inUnit with rfl | inArguments
    · exact absurd isArgument (by simpa using isStep.isArgument_flag)
    · rcases exists_mem_of_forall₂ each token inArguments with ⟨value, valueMem, reads⟩
      exact ⟨value, reads, keeps_iff.mp keeps _ operationMem value valueMem⟩
  · intro stayArguments
    rcases exists_steps_userStage stayArguments last some with ⟨operations, steps, keeps_iff⟩
    rw [keeps_iff]
    intro operation member
    exact (forall_of_forall₂ steps (fun _ _ both => both.2) operation member).good

/-- A literal with spaces keeps being one argument, and so does a word without the file name in
it. -/
theorem keepsArguments_build_quoted :
    (∀ token ∈ Validation.keptTokens "-fill 'a b' -fx u+result.png-1",
        Token.isArgument token →
      Token.StaysOne token) ∧
    KeepsArguments (userStage "-fill 'a b' -fx u+result.png-1") := by
  let text : Text := "-fill 'a b' -fx u+result.png-1"
  have command : (Validation.ofText text).command = text := by decide +kernel
  have arguments : ∀ token ∈ Validation.keptTokens text, Token.isArgument token →
      (Cleanup.removeFilenames token = "'a b'" ∨ Cleanup.removeFilenames token = "u+-1") ∧
        ∀ c ∈ (Cleanup.removeFilenames token).getLast?, Text.isBlank c = false := by
    decide +kernel
  have stay : ∀ token ∈ Validation.keptTokens text, Token.isArgument token →
      Token.StaysArgument token := by
    intro token member isArgument
    rcases (arguments token member isArgument).1 with literal | word
    · exact ⟨"a b", by rw [literal]; exact fun _ _ => rfl, by decide, by decide⟩
    · exact ⟨"u+-1", by rw [word]; exact fun _ _ => rfl, by decide, by decide⟩
  have stayOne : ∀ token ∈ Validation.keptTokens text, Token.isArgument token →
      Token.StaysOne token := by
    intro token member isArgument
    rcases stay token member isArgument with ⟨value, reads, -⟩
    exact ⟨⟨value, reads⟩, (arguments token member isArgument).2⟩
  rcases keepsArguments_build_iff stayOne 64 48 false with ⟨-, -, _, built, keeps_iff⟩
  rw [command] at built
  obtain rfl := List.append_cancel_left (List.append_cancel_right built)
  exact ⟨stayOne, keeps_iff.mpr stay⟩

/-- A literal without characters is lost, a file name is taken away although a flag takes it as its
argument, and a literal that stands for a flag is read as one: each time, the flag in front of it is
left without. -/
theorem not_keepsArguments_lost :
    ((Validation.ofText "-fill ''").command = "-fill ''".toList ∧
      ¬KeepsArguments (userStage "-fill ''")) ∧
    ((Validation.ofText "-fill out.png -negate").command = "-fill out.png -negate".toList ∧
      ¬KeepsArguments (userStage "-fill out.png -negate")) ∧
    ((Validation.ofText "-evaluate Add '-write'").command = "-evaluate Add '-write'".toList ∧
      ¬KeepsArguments (userStage "-evaluate Add '-write'")) := by
  decide +kernel

end Invocation

end Retouch
