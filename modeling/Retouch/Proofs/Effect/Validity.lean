import Retouch.Proofs.Effect.Written
import Retouch.Proofs.Invocation.Entries

/-!
# Validity of written commands

A validated command is read into effects and written again. Its flags keep the number of their
arguments and the words that their rules ask for, whatever becomes of the quotes. Only a kernel of
the user can be lost: validation takes it for one by its quotes or by its dimensions, and it is
written without quotes where it has no character that needs them.
-/

namespace Retouch

/-- Whether a value is an argument that is not empty and has no single quote. -/
structure IsPlainWord (value : Text) : Prop where
  nonempty : value ≠ []
  isArgument : Token.isArgument value
  unquoted : '\x27' ∉ value

/-- Whether an effect is no morphology operation, or one whose method needs no quotes and whose
kernel is a known one, needs quotes or begins with its dimensions. -/
def Effect.KeepsKernel (effect : Effect) : Prop :=
  Family.ofFlag effect.flag = .morphology →
    ∀ method ∈ effect.slots[0]?, ∀ kernel ∈ effect.slots[1]?,
    method.valueText.any Literal.isSpecial = false ∧
      (kernel.valueText ∈ Vocabulary.morphologyKernels ∨
        kernel.valueText.any Literal.isSpecial ∨
        Flag.Rule.BeginsWithDimensions kernel.valueText)

instance (text : Text) : Decidable (Flag.Rule.BeginsWithDimensions text) :=
  decidable_of_iff (Validation.beginsWithSize text = true) Validation.beginsWithSize_iff

instance (effect : Effect) : Decidable effect.KeepsKernel :=
  inferInstanceAs (Decidable (_ → _))

/-! ## Rules -/

namespace Flag

def morphology : Text := "-morphology"

theorem family_morphology : Family.ofFlag (canonical morphology) = .morphology := rfl

theorem eq_morphology_of_isAllowed {flag : Text} (isAllowed : Flag.isAllowed flag)
    (family : Family.ofFlag (canonical flag) = .morphology) : flag = morphology := by
  have only : ∀ entry ∈ Family.table, entry.2 = .morphology →
      entry.1 = canonical morphology := by decide +kernel
  have member := (Family.generic_or_mem_table (canonical flag)).resolve_left (by simp [family])
  have name : canonical flag = canonical morphology := only _ member family
  rw [← (isOrdinary_of_isAllowed isAllowed).named, name]
  rfl

def morphologyRule : Rule :=
  ⟨morphology, 2, some Vocabulary.morphologyMethods, some Vocabulary.morphologyKernels, true⟩

/-- Whether a rule limits the first argument only, to basic words, which the family of the flag
keeps. -/
structure Rule.LimitsWord (rule : Rule) : Prop where
  other : rule.flag ≠ morphology
  whole : rule.cutsSuffix = false
  second : rule.secondValues = none
  basic : ∀ allowed ∈ rule.firstValues, ∀ word ∈ allowed, Literal.isBasicText word
  word : rule.firstValues ≠ none → (Family.ofFlag (canonical rule.flag)).beginsWithWord

theorem eq_morphologyRule_or_limitsWord {rule : Rule} (isRule : rule ∈ rules) :
    rule = morphologyRule ∨ rule.LimitsWord := by
  have limit : ∀ rule ∈ rules, rule = morphologyRule ∨
      rule.flag ≠ morphology ∧ rule.cutsSuffix = false ∧ rule.secondValues = none ∧
        (∀ allowed ∈ rule.firstValues, ∀ word ∈ allowed, Literal.isBasicText word) ∧
        (rule.firstValues ≠ none → (Family.ofFlag (canonical rule.flag)).beginsWithWord) := by
    decide +kernel
  rcases limit rule isRule with same | ⟨other, whole, second, basic, word⟩
  · exact .inl same
  · exact .inr ⟨other, whole, second, basic, word⟩

end Flag

/-- A flag with as many arguments as its rule asks for is a unit exactly if the rule allows them. -/
theorem isUnit_iff {rule : Flag.Rule} {arguments : List Text} (isRule : rule ∈ Flag.rules)
    (isFlag : Token.isFlag rule.flag) (isAllowed : rule.flag ∈ Flag.allowed)
    (count : arguments.length = rule.arity)
    (plain : ∀ argument ∈ arguments, Token.isArgument argument) :
    IsUnit (rule.flag :: arguments) ↔ rule.AllowsFirst arguments ∧
      rule.AllowsSecond arguments := by
  constructor
  · intro isUnit
    generalize tokens : rule.flag :: arguments = unit at isUnit
    cases isUnit with
    | group delimiter =>
        rw [← (List.cons.inj tokens).1] at delimiter
        simp [Token.isFlag_eq_false_of_isGroup delimiter] at isFlag
    | bare _ _ unruled => exact absurd (List.cons.inj tokens).1 (unruled rule isRule)
    | @ruled other _ _ _ isOther _ _ first second =>
        rcases List.cons.inj tokens with ⟨sameFlag, rfl⟩
        have same := Flag.rule?_flag isOther
        rw [← sameFlag, Flag.rule?_flag isRule] at same
        obtain rfl := Option.some.inj same
        exact ⟨first, second⟩
  · rintro ⟨first, second⟩
    exact .ruled isFlag isAllowed isRule count
      (fun argument member => Validation.isArgument_iff.mp (plain argument member)) first second

/-! ## First arguments -/

theorem Flag.Rule.LimitsWord.allowsFirst {rule : Flag.Rule} (limits : rule.LimitsWord)
    {tokens values written : List Text} (reads : List.Forall₂ Literal.Reads tokens values)
    (first : rule.AllowsFirst tokens)
    (writes : (Family.ofFlag (Flag.canonical rule.flag)).Writes values written) :
    rule.AllowsFirst (written.map Literal.quote) := by
  intro allowed isAllowed quoted isFirst
  have hasWord := limits.word (by rw [Option.mem_def.mp isAllowed]; simp)
  rw [List.head?_map, writes.first hasWord] at isFirst
  cases reads with
  | nil => simp at isFirst
  | @cons token value _ _ readsFirst _ =>
      have isWord := first allowed isAllowed token rfl
      rw [limits.whole, if_neg (by simp)] at isWord ⊢
      have basic := limits.basic allowed isAllowed token isWord
      obtain rfl := readsFirst.unique (Literal.isBare_of_isBasicText basic).reads
      rw [List.head?_cons, Option.map_some, Literal.quote_of_isBasicText basic] at isFirst
      exact Option.some.inj isFirst ▸ isWord

/-! ## Kernels -/

namespace Family

/-- What begins with the name of a known kernel is read as a known kernel. -/
theorem mem_morphologyKernels_readKernel {argument : Text}
    (known : Text.before ':' argument ∈ Vocabulary.morphologyKernels) :
    (readKernel (some argument)).1 = Text.before ':' argument := by
  have name_ne := ne_nil_of_mem_morphologyKernels known
  unfold readKernel
  simp only [Option.getD_some, List.isEmpty_iff, name_ne, if_false, List.contains_iff_mem.mpr known,
    Bool.not_true, Bool.false_eq_true]
  split
  · rfl
  · split <;> rfl

/-- A written kernel is allowed exactly if it is a known one, needs quotes or begins with its
dimensions. -/
theorem KernelForm.allows_iff {argument written : Text}
    (form : KernelForm (some argument) written) :
    ((∃ c ∈ (Literal.quote written).head?, c = '\x27' ∨ c = '\x22') ∨
        Flag.Rule.BeginsWithDimensions (Literal.quote written) ∨
        Text.before ':' (Literal.quote written) ∈ Vocabulary.morphologyKernels) ↔
      ((readKernel (some argument)).1 ∈ Vocabulary.morphologyKernels ∨
        (readKernel (some argument)).1.any Literal.isSpecial ∨
        Flag.Rule.BeginsWithDimensions (readKernel (some argument)).1) := by
  generalize isSome : some argument = read at form
  cases form with
  | known basic name isKnown =>
      subst isSome
      rw [Literal.quote_of_isBasicText basic]
      exact iff_of_true (.inr (.inr name)) (.inl isKnown)
  | @own written unknown isOwn =>
      obtain rfl := Option.some.inj isSome
      rw [isOwn]
      cases special : argument.any Literal.isSpecial with
      | true =>
          rcases Literal.exists_quote_eq_cons special with ⟨rest, quoted⟩
          rw [quoted]
          exact iff_of_true (.inl ⟨'\x27', rfl, .inl rfl⟩) (.inr (.inl rfl))
      | false =>
          have unquoted : ¬∃ c ∈ argument.head?, c = '\x27' ∨ c = '\x22' := by
            rintro ⟨c, head, isQuote⟩
            have isSpecial : argument.any Literal.isSpecial := by
              refine List.any_eq_true.mpr ⟨c, List.mem_of_mem_head? head, ?_⟩
              rcases isQuote with rfl | rfl <;> decide
            simp [special] at isSpecial
          have unnamed : Text.before ':' argument ∉ Vocabulary.morphologyKernels := by
            intro known
            rw [← mem_morphologyKernels_readKernel known, isOwn] at known
            exact unknown known
          rw [Literal.quote_eq_self special, or_iff_right unquoted, or_iff_left unnamed,
            or_iff_right unknown]
          simp

end Family

/-- The rule of morphology operations allows a method and a kernel that are written exactly if the
method needs no quotes and the kernel is told apart. -/
theorem Flag.allows_morphology_iff {token method argument kernel : Text} {others : List Text}
    (reads : Literal.Reads token method) (first : morphologyRule.AllowsFirst (token :: others))
    (form : Family.KernelForm (some argument) kernel) :
    morphologyRule.AllowsFirst [Literal.quote method, Literal.quote kernel] ∧
        morphologyRule.AllowsSecond [Literal.quote method, Literal.quote kernel] ↔
      method.any Literal.isSpecial = false ∧
        ((Family.readKernel (some argument)).1 ∈ Vocabulary.morphologyKernels ∨
          (Family.readKernel (some argument)).1.any Literal.isSpecial ∨
          Flag.Rule.BeginsWithDimensions (Family.readKernel (some argument)).1) := by
  have areBasic : ∀ word ∈ Vocabulary.morphologyMethods, Literal.isBasicText word := by
    decide +kernel
  have known : Text.before ':' token ∈ Vocabulary.morphologyMethods := by
    simpa [Flag.Rule.AllowsFirst, morphologyRule] using first
  have methodAllowed : Text.before ':' (Literal.quote method) ∈ Vocabulary.morphologyMethods ↔
      method.any Literal.isSpecial = false := by
    constructor
    · intro isMethod
      by_contra special
      rcases Literal.exists_quote_eq_cons (by simpa using special) with ⟨rest, quoted⟩
      rw [quoted] at isMethod
      have basic := List.all_eq_true.mp (areBasic _ isMethod) '\x27' (by simp [Text.before])
      exact absurd basic (by decide)
    · intro unspecial
      rwa [Literal.quote_eq_self unspecial,
        reads.before_eq (Literal.isBare_of_isBasicText (areBasic _ known))]
  rw [← methodAllowed, ← form.allows_iff]
  simp [Flag.Rule.AllowsFirst, Flag.Rule.AllowsSecond, morphologyRule]

/-! ## Operations -/

theorem Effect.keepsKernel_of_ne {effect : Effect}
    (other : Family.ofFlag effect.flag ≠ .morphology) :
    effect.KeepsKernel := fun family => absurd family other

theorem Operation.effect_morphology (method kernel : Text) :
    Operation.effect ⟨Flag.morphology, [method, kernel]⟩ =
      ⟨"Morphology", Flag.canonical Flag.morphology,
          Family.morphologySlots method (some kernel)⟩ := by
  rw [Operation.effect, Effect.readRun, Flag.family_morphology]
  rfl

theorem Effect.keepsKernel_morphology_iff (method kernel : Text) :
    (Operation.effect ⟨Flag.morphology, [method, kernel]⟩).KeepsKernel ↔
      method.any Literal.isSpecial = false ∧
        ((Family.readKernel (some kernel)).1 ∈ Vocabulary.morphologyKernels ∨
          (Family.readKernel (some kernel)).1.any Literal.isSpecial ∨
          Flag.Rule.BeginsWithDimensions (Family.readKernel (some kernel)).1) := by
  rw [Operation.effect_morphology]
  constructor
  · exact fun keeps => keeps Flag.family_morphology _ rfl _ rfl
  · rintro both - _ isMethod _ isKernel
    obtain rfl := Option.some.inj isMethod
    obtain rfl := Option.some.inj isKernel
    exact both

/-- A flag with what its family writes of the values of a unit makes up a unit again exactly if the
effect that is made of the values keeps its kernel. -/
theorem IsUnit.quoted_iff {flag : Text} {tokens values written : List Text}
    (isUnit : IsUnit (flag :: tokens))
    (isFlag : Token.isFlag flag) (reads : List.Forall₂ Literal.Reads tokens values)
    (writes : (Family.ofFlag (Flag.canonical flag)).Writes values written)
    (count : written.length = Flag.arity flag)
    (plain : ∀ argument ∈ written.map Literal.quote, Token.isArgument argument) :
    IsUnit (flag :: written.map Literal.quote) ↔
      (Operation.effect ⟨flag, values⟩).KeepsKernel := by
  rcases isUnit.count isFlag with ⟨isAllowed, tokens_count⟩
  have effect_flag : (Operation.effect ⟨flag, values⟩).flag = Flag.canonical flag :=
    Effect.flag_readRun flag values
  have keeps (other : flag ≠ Flag.morphology) :
      (Operation.effect ⟨flag, values⟩).KeepsKernel :=
    Effect.keepsKernel_of_ne fun family =>
      other (Flag.eq_morphology_of_isAllowed isAllowed (effect_flag ▸ family))
  cases found : Flag.rule? flag with
  | none =>
      have none : written = [] := List.length_eq_zero_iff.mp (by simp [count, Flag.arity, found])
      have other : flag ≠ Flag.morphology := by
        rintro rfl
        have two :=
          (Flag.isOrdinary_of_isAllowed isAllowed).arity 2 (by rw [Flag.family_morphology]; rfl)
        simp [Flag.arity, found] at two
      rw [none, List.map_nil]
      have bare :=
        IsUnit.bare isFlag (List.contains_iff_mem.mp isAllowed) (Flag.rule?_eq_none_iff.mp found)
      exact iff_of_true bare (keeps other)
  | some rule =>
      rcases Flag.mem_rules_of_rule? found with ⟨isRule, rfl⟩
      have rule_arity : Flag.arity rule.flag = rule.arity := by simp [Flag.arity, found]
      have isMember : rule.flag ∈ Flag.allowed := List.contains_iff_mem.mp isAllowed
      have tokensPlain : ∀ argument ∈ tokens, Token.isArgument argument := by
        rcases isUnit.exists_cons with ⟨_, _, parts, -, plain⟩
        rwa [(List.cons.inj parts).2]
      rw [isUnit_iff isRule isFlag isMember (tokens_count.trans rule_arity) tokensPlain] at isUnit
      rw [isUnit_iff isRule isFlag isMember (by rw [List.length_map, count, rule_arity]) plain]
      rcases Flag.eq_morphologyRule_or_limitsWord isRule with rfl | limits
      · have two : Flag.arity Flag.morphologyRule.flag = 2 := rule_arity
        have family : Family.ofFlag (Flag.canonical Flag.morphologyRule.flag) = .morphology :=
          Flag.family_morphology
        rcases List.length_eq_two.mp (tokens_count.trans two) with ⟨token, _, rfl⟩
        rcases List.length_eq_two.mp (count.trans two) with ⟨first, kernel, rfl⟩
        rcases reads with
          _ | @⟨_, method, _, _, readsMethod, _ | @⟨_, argument, _, _, -, _ | _⟩⟩
        have form : Family.KernelForm (some argument) kernel := writes.kernel family kernel rfl
        obtain rfl : first = method := Option.some.inj (writes.first (by rw [family]; rfl))
        exact (Flag.allows_morphology_iff readsMethod isUnit.1 form).trans
          (Effect.keepsKernel_morphology_iff first argument).symm
      · have second : rule.AllowsSecond (written.map Literal.quote) := by
          simp [Flag.Rule.AllowsSecond, limits.second]
        exact iff_of_true ⟨limits.allowsFirst reads isUnit.1 writes, second⟩
          (keeps limits.other)

/-- What a step was read as is written as a unit exactly if it keeps its kernel. -/
theorem Operation.writesUnit_iff_keepsKernel {unit : List Text} {operation : Operation}
    (isUnit : IsUnit unit)
    (isRead : operation.IsReadFrom Literal.Reads unit) (isStep : operation.IsStep IsPlainWord)
    (isFlag : Token.isFlag operation.flag) : operation.effect.WritesUnit ↔
      operation.effect.KeepsKernel := by
  rcases isRead with @⟨flag, tokens, values, reads⟩
  rcases isStep.either with ⟨isAllowed, count⟩ | ⟨isGroup, -⟩
  · have isUnquoted : Operation.IsUnquoted ⟨flag, values⟩ :=
      ⟨Flag.isBasicText_of_isAllowed isAllowed,
        fun value isValue => (isStep.good value isValue).unquoted⟩
    rcases Operation.exists_isWrittenAs isAllowed fun value isValue =>
      ⟨(isStep.good value isValue).nonempty, (isStep.good value isValue).isArgument⟩ with
        ⟨written, isWrittenAs⟩
    have written_count : written.arguments.length = Flag.arity flag := by
      rw [isWrittenAs.count, (Flag.isOrdinary_of_isAllowed isAllowed).writtenCount_eq count, count]
    rw [isWrittenAs.writesUnit_iff isUnquoted, words, List.map_id, quoted, isWrittenAs.flag]
    exact isUnit.quoted_iff isFlag reads isWrittenAs.writes written_count
      isWrittenAs.settles.settled.isPlain.quoted.plain
  · simp [Token.isFlag_eq_false_of_isGroup isGroup] at isFlag

namespace Validation

variable {text : Text}

/-- The words of a validated command whose arguments stand for plain words are those of steps. -/
theorem exists_steps_split
    (valued : ∀ token ∈ keptTokens text, Token.isArgument token →
      ∃ value, Literal.Reads token value ∧ IsPlainWord value) :
    ∃ operations : List Operation,
      List.Forall₂ (fun unit operation => operation.IsReadFrom Literal.Reads unit ∧
          operation.IsStep IsPlainWord)
        (units (Token.ofText (Cleanup.forValidation text))) operations ∧
      Literal.split (ofText text).command = operations.flatMap (Operation.words id) := by
  rcases exists_steps_of_units (fun unit member => isUnit_of_mem_units member) valued with
    ⟨operations, steps⟩
  have areSteps : ∀ operation ∈ operations, operation.IsStep IsPlainWord :=
    forall_of_forall₂ steps fun _ _ both => both.2
  refine ⟨operations, steps, ?_⟩
  rw [command_ofText]
  refine Literal.split_unwords
      (forall₂_words (steps.imp fun _ _ both => both.1) fun operation member =>
    (areSteps operation member).isBare.reads) fun word member => ?_
  rcases List.mem_flatMap.mp member with ⟨operation, operationMem, inWords⟩
  have isStep := areSteps operation operationMem
  rw [Operation.words, List.map_id] at inWords
  rcases List.mem_cons.mp inWords with rfl | isValue
  · exact isStep.flag_ne_nil
  · exact (isStep.good word isValue).nonempty

theorem isOrdinaryWord_of_mem_words {operation : Operation} (isStep : operation.IsStep IsPlainWord)
    {word : Text} (member : word ∈ operation.words id) : IsOrdinaryWord word := by
  rw [Operation.words, List.map_id] at member
  rcases List.mem_cons.mp member with rfl | isValue
  · rcases isStep.either with ⟨isAllowed, -⟩ | ⟨isGroup, -⟩
    · exact ⟨Literal.notMem_of_isBasicText (Flag.isBasicText_of_isAllowed isAllowed) (by decide),
        fun _ => isAllowed⟩
    · refine ⟨?_, fun isFlag => ?_⟩
      · rcases Token.isGroup_iff.mp isGroup with same | same <;> rw [same] <;> decide
      · simp [Token.isFlag_eq_false_of_isGroup isGroup] at isFlag
  · have isPlain := isStep.good word isValue
    refine ⟨isPlain.unquoted, fun isFlag => ?_⟩
    simpa [Token.isArgument, isFlag] using isPlain.isArgument

/-- A validated command is read into effects and written again. If each argument of the command
stands for a plain word, the written command is accepted in full exactly if each effect keeps its
kernel and no blank character stands at the end. -/
theorem ofText_toCommand_iff (text : Text) :
    ∃ written, Effect.toCommand (Effect.ofCommand (ofText text).command) = .ok written ∧
      ((∀ word ∈ Literal.split (ofText text).command, IsOrdinaryWord word) →
        (ofText written = ⟨written, []⟩ ↔
          (∀ effect ∈ Effect.ofCommand (ofText text).command, effect.WritesUnit) ∧
            ∀ c ∈ written.getLast?, Text.isBlank c = false)) ∧
      ((∀ token ∈ keptTokens text, Token.isArgument token →
          ∃ value, Literal.Reads token value ∧ IsPlainWord value) →
        (ofText written = ⟨written, []⟩ ↔
          (∀ effect ∈ Effect.ofCommand (ofText text).command, effect.KeepsKernel) ∧
            ∀ c ∈ written.getLast?, Text.isBlank c = false)) := by
  rcases Effect.exists_toCommand fun _ => Effect.exists_readRun_of_mem_ofCommand with
    ⟨written, rendered⟩
  have ofOrdinary (ordinary : ∀ word ∈ Literal.split (ofText text).command,
      IsOrdinaryWord word) :
      ofText written = ⟨written, []⟩ ↔
        (∀ effect ∈ Effect.ofCommand (ofText text).command, effect.WritesUnit) ∧
          ∀ c ∈ written.getLast?, Text.isBlank c = false := by
    rcases Effect.exists_toCommand_accepted_iff (isClean_command text) ordinary with
      ⟨other, isOther, accepted⟩
    obtain rfl := Except.ok.inj (rendered.symm.trans isOther)
    exact accepted
  refine ⟨written, rendered, ofOrdinary, fun valued => ?_⟩
  rcases exists_steps_split valued with ⟨operations, steps, words⟩
  have areSteps : ∀ operation ∈ operations, operation.IsStep IsPlainWord :=
    forall_of_forall₂ steps fun _ _ both => both.2
  have ordinary : ∀ word ∈ Literal.split (ofText text).command, IsOrdinaryWord word := by
    intro word member
    rw [words] at member
    rcases List.mem_flatMap.mp member with ⟨operation, operationMem, inWords⟩
    exact isOrdinaryWord_of_mem_words (areSteps operation operationMem) inWords
  have arePlain : ∀ operation ∈ operations, operation.IsPlain := fun operation member =>
    ⟨(areSteps operation member).isArgument_flag, fun value isValue =>
      ((areSteps operation member).good value isValue).isArgument⟩
  rcases Effect.exists_collapses arePlain with ⟨read, -, fromSteps, effects⟩
  have effects : Effect.ofCommand (ofText text).command = read.map Operation.effect := by
    rw [Effect.ofCommand, words, effects]
  rw [ofOrdinary ordinary, effects, List.forall_mem_map, List.forall_mem_map]
  refine and_congr_left fun _ => forall₂_congr fun operation member => ?_
  rcases fromSteps operation member with ⟨isOperation, isFlag⟩
  rcases exists_mem_of_forall₂ steps.flip operation isOperation with
    ⟨unit, unitMem, isRead, isStep⟩
  exact Operation.writesUnit_iff_keepsKernel (isUnit_of_mem_units unitMem) isRead isStep isFlag

/-- A method with a suffix, a kernel with a space and a number with a needless digit are accepted
again. -/
theorem ofText_toCommand_kernel :
    ∃ written, Effect.toCommand
      (Effect.ofCommand "-morphology Convolve:3 '3: 1,0,1' -evaluate Add 5.0%") = .ok written ∧
      ofText written = ⟨written, []⟩ ∧
      ∀ effect ∈ Effect.ofCommand "-morphology Convolve:3 '3: 1,0,1' -evaluate Add 5.0%",
        effect.WritesUnit := by
  let text : Text := "-morphology Convolve:3 '3: 1,0,1' -evaluate Add 5.0%"
  have command : (ofText text).command = text := by decide +kernel
  have tokens : ∀ token ∈ keptTokens text, Token.isArgument token →
      token = Literal.quote "3: 1,0,1" ∨
          (Literal.IsBare token ∧ token ≠ [] ∧ '\x27' ∉ token) := by
    decide +kernel
  have valued : ∀ token ∈ keptTokens text, Token.isArgument token →
      ∃ value, Literal.Reads token value ∧ IsPlainWord value := by
    intro token member isArgument
    rcases tokens token member isArgument with rfl | ⟨bare, nonempty, unquoted⟩
    · exact ⟨_, Literal.reads_quote _, by decide, by decide, by decide⟩
    · exact ⟨token, bare.reads, nonempty, isArgument, unquoted⟩
  have words : ∀ word ∈ Literal.split text, '\x27' ∉ word ∧
      (Token.isFlag word → Flag.isAllowed word) := by
    decide +kernel
  have rendered : Effect.toCommand (Effect.ofCommand text) =
      .ok "-morphology Convolve:3 '3: 1,0,1' -evaluate Add 5%" := by
    decide +kernel
  rcases ofText_toCommand_iff text with ⟨written, isWritten, ofOrdinary, ofPlain⟩
  rw [command] at isWritten ofPlain ofOrdinary
  have accepted : ofText written = ⟨written, []⟩ := by
    refine (ofPlain valued).mpr ⟨by decide +kernel, ?_⟩
    rw [rendered] at isWritten
    rw [← Except.ok.inj isWritten]
    decide
  have ordinary : ∀ word ∈ Literal.split text, IsOrdinaryWord word := fun word member =>
    ⟨(words word member).1, (words word member).2⟩
  exact ⟨written, isWritten, accepted, ((ofOrdinary ordinary).mp accepted).1⟩

/-- Whether a text is accepted in full and written, after it was read, as another text that is
not. -/
def IsLost (text written : Text) : Prop :=
  ofText text = ⟨text, []⟩ ∧ Effect.toCommand (Effect.ofCommand text) = .ok written ∧
    ofText written ≠ ⟨written, []⟩

instance (text written : Text) : Decidable (IsLost text written) :=
  inferInstanceAs (Decidable (_ ∧ _ ∧ _))

/-- A kernel and a method lose or get quotes, a literal without characters and one with a blank
character that separates nothing are lost, a single quote is escaped, and a hidden flag shows. -/
theorem not_ofText_toCommand_lost :
    IsLost "-morphology Convolve '1,0,1'" "-morphology Convolve 1,0,1" ∧
    IsLost "-morphology Convolve:\"\\\\\" Disk" "-morphology 'Convolve:\\\\' Disk:1" ∧
    IsLost "-fill ''" "-fill" ∧
    IsLost "-fill '\u00a0'" "-fill \u00a0" ∧
    IsLost "-fill \"it's\"" "-fill 'it\\'s'" ∧
    IsLost "-evaluate Add '-write'" "-evaluate Add 0 -write" := by
  decide +kernel

end Validation

end Retouch
