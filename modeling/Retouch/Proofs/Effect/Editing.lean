import Retouch.Proofs.Effect.RoundTrip
import Retouch.Stack.Workspace

/-!
# Edited values

An editor puts any text into a slot for a colour, a word or a text. It is written behind the flag of
its effect, quoted where it needs quotes, so it is one argument whatever is in it. A reader of
literal arguments forgets the quotes however: a value that looks like a flag is read as one. Every
other value leaves the flags of a command as they are.
-/

namespace Retouch

/-- Whether the value of a slot is any text, which is quoted when it is written. -/
def Slot.isTextual : Slot → Bool
  | .color .. | .select .. => true
  | .text _ _ verbatim => !verbatim
  | .number .. => false

/-- A value that was set is written in quotes. -/
theorem Slot.written_of_withValue? {slot edited : Slot} {value : Text} (isTextual : slot.isTextual)
    (valued : slot.withValue? value = some edited) :
    edited.commandText = .ok (Literal.quote value) ∧ edited.valueText = value := by
  cases slot with
  | number => simp [Slot.isTextual] at isTextual
  | color | select =>
      obtain rfl := Option.some.inj valued
      exact ⟨rfl, rfl⟩
  | text label old verbatim =>
      obtain rfl : verbatim = false := by simpa [Slot.isTextual] using isTextual
      obtain rfl := Option.some.inj valued
      exact ⟨rfl, rfl⟩

namespace Effect

open Family Operation

/-- Whether effects come of others by setting a value in one slot for a text. -/
inductive Edits (value : Text) : List Effect → List Effect → Prop where
  | intro {before after : List Effect} {effect : Effect} {front back : List Slot}
      {slot edited : Slot}
      (slots : effect.slots = front ++ slot :: back) (isTextual : slot.isTextual)
      (valued : slot.withValue? value = some edited) :
      Edits value (before ++ effect :: after)
        (before ++ { effect with slots := front ++ edited :: back } :: after)

/-- Whether an effect is written under its own flag, with arguments of which no other than a certain
value can be a flag. -/
def ExposesOnly (effect : Effect) (value : Text) : Prop :=
  ∃ arguments, effect.RendersAs ⟨Flag.ofCanonical effect.flag, arguments⟩ ∧
    arguments.filter Token.isFlag = [value].filter Token.isFlag

variable {flag value : Text} {run : List Text} {front back : List Slot} {first slot edited : Slot}

theorem isFlag_of_isArgument {argument : Text} (isArgument : Token.isArgument argument) :
    Token.isFlag argument = false := by
  simp only [Token.isArgument, Bool.and_eq_true, Bool.not_eq_true'] at isArgument
  exact isArgument.2

/-! ## Edited effects -/

/-- The value of a single slot is the only argument, if it is not empty. -/
theorem exposesOnly_slot {name : Text}
    (renders : ∀ slots, (⟨name, flag, slots⟩ : Effect).renderBody =
        (⟨name, flag, slots⟩ : Effect).renderValues)
    (isOn : ∀ slots, (⟨name, flag, slots⟩ : Effect).isOff = false)
    (slots : [first] = front ++ slot :: back)
    (written : edited.commandText = .ok (Literal.quote value)) :
    ExposesOnly ⟨name, flag, front ++ edited :: back⟩ value := by
  obtain ⟨rfl, rfl⟩ : front = [] ∧ back = [] := by
    cases front <;> simp_all
  rw [List.nil_append]
  by_cases empty : value = []
  · subst empty
    have alone : (⟨name, flag, [edited]⟩ : Effect).IsWritten (Flag.ofCanonical flag) [] := by
      have values : [edited].mapM Slot.commandText = .ok [[]] := by
        rw [List.mapM_cons, written]
        rfl
      rw [IsWritten, renders, renderValues, values]
      rfl
    exact ⟨[], alone.rendersAs (isOn _), rfl⟩
  · exact ⟨[value], (isWritten_slot (renders _) written empty).rendersAs (isOn _), rfl⟩

theorem exposesOnly_method {name label word : Text} {methods : List Text} {isNumeric : Bool}
    (family : Family.ofFlag flag = .method label methods isNumeric)
    (isArgument : Token.isArgument word) {rest : List Text} (plain : ArePlain rest)
    (slots : [.select "Method" word methods, readParameter isNumeric rest.head?] =
        front ++ slot :: back)
    (written : edited.commandText = .ok (Literal.quote value)) (text : edited.valueText = value) :
    ExposesOnly ⟨name, flag, front ++ edited :: back⟩ value := by
  obtain ⟨parameter, same, nonempty, isParameter, -⟩ := exists_parameter isNumeric plain
  obtain ⟨settled, settles, -⟩ := exists_settles_readParameter isNumeric nonempty isParameter
  have form {methodSlot parameterSlot : Slot} {other : Text}
      (isParameter : parameterSlot.commandText = .ok (Literal.quote other)) :
      (⟨name, flag, [methodSlot, parameterSlot]⟩ : Effect).RendersAs
        ⟨Flag.ofCanonical flag, [methodSlot.valueText, other]⟩ :=
    (isWritten_method family methodSlot isParameter).rendersAs (by simp [isOff, family])
  rcases front with _ | ⟨_, _ | ⟨_, front⟩⟩
  · -- The method was edited.
    obtain ⟨-, rfl⟩ := List.cons.inj slots
    refine ⟨_, form (by rw [same]; exact settles.written), ?_⟩
    simp [List.filter_cons, text, isFlag_of_isArgument settles.isArgument]
  · -- The parameter was edited.
    obtain ⟨rfl, others⟩ := List.cons.inj slots
    obtain ⟨-, rfl⟩ := List.cons.inj others
    refine ⟨_, form written, ?_⟩
    simp [List.filter_cons, Slot.valueText, isFlag_of_isArgument isArgument]
  · simp at slots

/-- The kernel of a morphology operation is written with its sizes, and then it is no flag, or as it
stands. -/
theorem exists_kernelText (kernel : Text) {width height : Binary64} (widthFinite : width.isFinite)
    (heightFinite : height.isFinite) :
    ∃ spec, kernelText kernel (.float width) (.float height) = .ok spec ∧
      [spec].filter Token.isFlag = [kernel].filter Token.isFlag := by
  by_cases known : kernel ∈ Vocabulary.morphologyKernels
  · rcases exists_settled_kernel known widthFinite heightFinite with ⟨spec, settles⟩
    have isKernelArgument := (morphologyKernels_plain known).2 []
    rw [List.append_nil] at isKernelArgument
    refine ⟨spec, settles.written, ?_⟩
    simp [isFlag_of_isArgument settles.isArgument, isFlag_of_isArgument isKernelArgument]
  · refine ⟨kernel, ?_, rfl⟩
    simp [kernelText, known, pure, Except.pure]

theorem exposesOnly_morphology {name method kernel settled : Text} {width height : Binary64}
    (family : Family.ofFlag flag = .morphology) (isArgument : Token.isArgument method)
    (widthFinite : width.isFinite) (heightFinite : height.isFinite)
    (isForm : kernelText kernel (.float width) (.float height) = .ok settled)
    (isSettled : Token.isArgument settled)
    {methods kernels : List Text} {widthSlot heightSlot : Slot}
    (isWidth : widthSlot.amount = .float width)
    (isHeight : heightSlot.amount = .float height)
    (areSizes : ¬widthSlot.isTextual ∧ ¬heightSlot.isTextual)
    (slots : [.select "Method" method methods, .select "Kernel" kernel kernels, widthSlot,
        heightSlot] =
      front ++ slot :: back)
    (isTextual : slot.isTextual) (text : edited.valueText = value) :
    ExposesOnly ⟨name, flag, front ++ edited :: back⟩ value := by
  have form {methodSlot kernelSlot : Slot} {spec : Text}
      (isSpec : kernelText kernelSlot.valueText (.float width) (.float height) = .ok spec) :
      (⟨name, flag, [methodSlot, kernelSlot, widthSlot, heightSlot]⟩ : Effect).RendersAs
        ⟨Flag.ofCanonical flag, [methodSlot.valueText, spec]⟩ := by
    rw [← isWidth, ← isHeight] at isSpec
    exact (isWritten_morphology family methodSlot isSpec).rendersAs (by simp [isOff, family])
  rcases front with _ | ⟨_, _ | ⟨_, front⟩⟩
  · -- The method was edited.
    obtain ⟨-, rfl⟩ := List.cons.inj slots
    refine ⟨_, form isForm, ?_⟩
    simp [List.filter_cons, text, isFlag_of_isArgument isSettled]
  · -- The kernel was edited.
    obtain ⟨rfl, others⟩ := List.cons.inj slots
    obtain ⟨-, rfl⟩ := List.cons.inj others
    obtain ⟨spec, isSpec, same⟩ := exists_kernelText value widthFinite heightFinite
    refine ⟨_, form (by rw [text]; exact isSpec), ?_⟩
    simpa [List.filter_cons, Slot.valueText, isFlag_of_isArgument isArgument] using same
  · -- The sizes are numbers.
    obtain ⟨-, others⟩ := List.cons.inj slots
    obtain ⟨-, sizes⟩ := List.cons.inj others
    have isSize : slot ∈ [widthSlot, heightSlot] := by
      rw [sizes]
      simp
    simp only [List.mem_cons, List.not_mem_nil, or_false] at isSize
    rcases isSize with rfl | rfl <;> simp [isTextual] at areSizes

theorem isFinite_readKernel (argument : Option Text) :
    (readKernel argument).2.1.isFinite ∧ (readKernel argument).2.2.isFinite := by
  rcases readKernel_cases argument with
    ⟨-, widthFinite, heightFinite⟩ | ⟨written, -, -, read⟩
  · exact ⟨widthFinite, heightFinite⟩
  · rw [read]
    exact ⟨rfl, rfl⟩

theorem isTextual_of_mem_readRun_nil (member : slot ∈ (readRun flag []).1.slots) :
    slot.isTextual = false := by
  cases family : Family.ofFlag (Flag.canonical flag) with
  | toggle label isScoped command =>
      simp only [readRun, family, Family.read, Option.getD_some, List.mem_singleton] at member
      rw [member]
      rfl
  | _ => simp [readRun, family, Family.read, readGeneric] at member

/-- An effect that was read and then edited is written under its flag, and of its arguments only the
value that was set can be a flag. -/
theorem exposesOnly_edited (plain : ArePlain run)
    (slots : (readRun flag run).1.slots = front ++ slot :: back)
    (isTextual : slot.isTextual) (valued : slot.withValue? value = some edited) :
    ExposesOnly { (readRun flag run).1 with slots := front ++ edited :: back } value := by
  obtain ⟨written, text⟩ := Slot.written_of_withValue? isTextual valued
  have member : slot ∈ (readRun flag run).1.slots := by simp [slots]
  -- The families with one slot for a text are all read in this way.
  have single {label : Text} {first : Slot}
      (read : readRun flag run = (⟨label, Flag.canonical flag, [first]⟩, 1))
      (renders : ∀ slots, (⟨label, Flag.canonical flag, slots⟩ : Effect).renderBody =
        (⟨label, Flag.canonical flag, slots⟩ : Effect).renderValues)
      (isOn : ∀ slots, (⟨label, Flag.canonical flag, slots⟩ : Effect).isOff = false) :
      ExposesOnly { (readRun flag run).1 with slots := front ++ edited :: back } value := by
    rw [read] at slots ⊢
    exact exposesOnly_slot renders isOn slots written
  cases run with
  | nil => simp [isTextual_of_mem_readRun_nil member] at isTextual
  | cons argument rest =>
      obtain ⟨-, isArgument⟩ := plain argument (by simp)
      have plainRest : ArePlain rest := fun other otherMem =>
        plain other (List.mem_cons_of_mem _ otherMem)
      cases family : Family.ofFlag (Flag.canonical flag) with
      | toggle label isScoped command =>
          simp only [readRun, family, Family.read, Option.getD_some, List.mem_singleton] at member
          simp [member, Slot.isTextual] at isTextual
      | channelReset => simp [readRun, family, Family.read] at member
      | generic =>
          simp only [readRun, family, Family.read, readGeneric, Option.getD_some] at member
          split at member
          · simp at member
          · simp [List.mem_singleton.mp member, Slot.isTextual] at isTextual
      | amounts label parts =>
          rw [readRun, family] at member
          obtain ⟨part, -, rfl⟩ := List.mem_map.mp member
          simp [Slot.isTextual] at isTextual
      | morphology =>
          obtain ⟨widthFinite, heightFinite⟩ := isFinite_readKernel rest.head?
          obtain ⟨settled, isSettled, -, isForm, -⟩ :=
              exists_kernelForm rest.head? fun kernel kernelMem =>
            plainRest kernel (List.mem_of_mem_head? kernelMem)
          rw [readRun, family] at slots ⊢
          exact exposesOnly_morphology family isArgument widthFinite heightFinite isForm
            isSettled rfl rfl
            ⟨by simp [Slot.isTextual], by simp [Slot.isTextual]⟩ slots isTextual text
      | method label methods isNumeric =>
          rw [readRun, family] at slots ⊢
          exact exposesOnly_method family isArgument plainRest slots written text
      | amount range isScoped =>
          have read : readRun flag (argument :: rest) =
              (⟨range.label, Flag.canonical flag, [readAmount range argument]⟩, 1) := by
            rw [readRun, family]
            rfl
          exact single read (fun _ => by simp only [renderBody, family])
            (fun _ => by simp only [isOff, family])
      | choice label name options =>
          have read : readRun flag (argument :: rest) =
              (⟨label, Flag.canonical flag, [.select name argument options]⟩, 1) := by
            rw [readRun, family]
            rfl
          exact single read (fun _ => by simp only [renderBody, family])
            (fun _ => by simp only [isOff, family])
      | color label name =>
          have read : readRun flag (argument :: rest) =
              (⟨label, Flag.canonical flag, [.color name argument]⟩, 1) := by
            rw [readRun, family]
            rfl
          exact single read (fun _ => by simp only [renderBody, family])
            (fun _ => by simp only [isOff, family])
      | freeText label name =>
          have read : readRun flag (argument :: rest) =
              (⟨label, Flag.canonical flag, [.text name argument false]⟩, 1) := by
            rw [readRun, family]
            rfl
          exact single read (fun _ => by simp only [renderBody, family])
            (fun _ => by simp only [isOff, family])

/-- What was read into a slot for a text is written with no other flag than that of the effect. -/
theorem exists_rendersAs_of_isTextual (plain : ArePlain run)
    (member : slot ∈ (readRun flag run).1.slots) (isTextual : slot.isTextual) :
    ∃ arguments, (readRun flag run).1.RendersAs
      ⟨Flag.ofCanonical (readRun flag run).1.flag, arguments⟩ ∧
      arguments.filter Token.isFlag = [] := by
  have ownFlag : Flag.canonical flag ≠ "grayscale".toList := by
    intro grayscale
    simp only [readRun, grayscale, ofFlag_grayscale, Family.read, Option.getD_some,
      List.mem_singleton] at member
    simp [member, Slot.isTextual] at isTextual
  obtain ⟨settled, settles, -⟩ := exists_settles plain ownFlag
  have written := settles.written
  rw [← flag_readRun flag run] at written
  refine ⟨settled, written.rendersAs (isOff_readRun flag run), ?_⟩
  rw [List.filter_eq_nil_iff]
  intro argument argumentMem
  simp [isFlag_of_isArgument (settles.plain argument argumentMem).2]

/-! ## Edited commands -/

/-- Around the arguments of an operation, the words of a command do not depend on them. -/
theorem exists_allWords_eq (before after : List Operation) (flag : Text) (scopeOpen : Bool) :
    ∃ front back, ∀ arguments,
      allWords id scopeOpen (before ++ ⟨flag, arguments⟩ :: after) =
        front ++ arguments ++ back := by
  induction before generalizing scopeOpen with
  | nil =>
      let following := allWords id ((Operation.effect ⟨flag, []⟩).scopeAfter scopeOpen) after
      have words_eq (arguments : List Text) :
          allWords id scopeOpen (⟨flag, arguments⟩ :: after) =
          scopedWords id scopeOpen ⟨flag, arguments⟩ ++ following := by
        rw [allWords]
        simp only [following, Effect.scopeAfter, flag_effect]
      have isScoped (arguments : List Text) :
          Operation.isScoped ⟨flag, arguments⟩ = Operation.isScoped ⟨flag, []⟩ :=
        rfl
      cases wrapped : Operation.isScoped ⟨flag, []⟩ && !scopeOpen with
      | true =>
          refine ⟨[Flag.regionOpen, Family.scopeTarget, flag], Flag.regionClose :: following,
            fun arguments => ?_⟩
          rw [List.nil_append, words_eq, scopedWords, isScoped, if_pos wrapped]
          simp [words]
      | false =>
          refine ⟨[flag], following, fun arguments => ?_⟩
          rw [List.nil_append, words_eq, scopedWords, isScoped, if_neg (by simp [wrapped])]
          simp [words]
  | cons operation before ih =>
      obtain ⟨front, back, parts⟩ := ih (operation.effect.scopeAfter scopeOpen)
      refine ⟨operation.scopedWords id scopeOpen ++ front, back, fun arguments => ?_⟩
      rw [List.cons_append, allWords, parts]
      simp only [List.append_assoc]

/-- The flags of a written command are those among its words. -/
theorem filter_isFlag_split {operations : List Operation}
    (bare : ∀ operation ∈ operations, Literal.IsBare operation.flag) :
    (Literal.split (Text.unwords (allWords Literal.quote false operations))).filter Token.isFlag =
      (allWords id false operations).filter Token.isFlag := by
  rw [Literal.split_unwords_filter (reads_allWords_of_isBare bare false), List.filter_filter]
  refine List.filter_congr fun word _ => ?_
  cases word <;> simp [Token.isFlag]

/-- Around an effect with certain arguments, the flags of a command do not depend on the
arguments. -/
theorem exists_flags_around {before after : List Effect}
    (read : ∀ other ∈ before ++ after, ∃ flag run, ArePlain run ∧
        other = (readRun flag run).1) (flag : Text) :
    ∃ front back, ∀ effect arguments, effect.RendersAs ⟨flag, arguments⟩ →
      ∃ written, toCommand (before ++ effect :: after) = .ok written ∧
        (Literal.IsBare flag →
            (∀ other ∈ before ++ after, Literal.IsBare (Flag.ofCanonical other.flag)) →
          (Literal.split written).filter Token.isFlag =
            front ++ arguments.filter Token.isFlag ++ back) := by
  have others : ∀ other ∈ before ++ after, ∃ operation, other.RendersAs operation ∧
      (Literal.IsBare (Flag.ofCanonical other.flag) → Literal.IsBare operation.flag) := by
    intro other member
    obtain ⟨otherFlag, run, plain, rfl⟩ := read other member
    exact exists_rendersAs otherFlag plain
  obtain ⟨operationsBefore, pairsBefore⟩ := exists_forall₂ fun other member =>
    others other (List.mem_append_left _ member)
  obtain ⟨operationsAfter, pairsAfter⟩ := exists_forall₂ fun other member =>
    others other (List.mem_append_right _ member)
  obtain ⟨front, back, words⟩ := exists_allWords_eq operationsBefore operationsAfter flag false
  refine ⟨front.filter Token.isFlag, back.filter Token.isFlag,
    fun effect arguments renders => ?_⟩
  have render : List.Forall₂ RendersAs (before ++ effect :: after)
      (operationsBefore ++ ⟨flag, arguments⟩ :: operationsAfter) :=
    List.rel_append (pairsBefore.imp fun _ _ pair => pair.1)
      (.cons renders (pairsAfter.imp fun _ _ pair => pair.1))
  refine ⟨_, toCommand_eq_of_rendersAs render, fun bareFlag bareOthers => ?_⟩
  have bare : ∀ operation ∈ operationsBefore ++ ⟨flag, arguments⟩ :: operationsAfter,
      Literal.IsBare operation.flag := by
    have around : ∀ operation ∈ operationsBefore ++ operationsAfter,
        Literal.IsBare operation.flag := by
      intro operation member
      obtain ⟨other, otherMem, -, isBare⟩ :=
        exists_mem_of_forall₂ (List.rel_append pairsBefore pairsAfter).flip operation member
      exact isBare (bareOthers other otherMem)
    rw [List.forall_mem_append] at around ⊢
    rw [List.forall_mem_cons]
    exact ⟨around.1, bareFlag, around.2⟩
  rw [filter_isFlag_split bare, words, List.filter_append, List.filter_append]

/-- Every effect that was read can be written, also after an edit. If the flags of a command are
read as they are written, it has the same flags after an edit exactly if the value that was set does
not look like a flag. -/
theorem flags_edits_iff {text value : Text} {edited : List Effect}
    (edits : Edits value (ofCommand text) edited) :
    ∃ first second, toCommand (ofCommand text) = .ok first ∧ toCommand edited = .ok second ∧
      ((∀ effect ∈ ofCommand text, Literal.IsBare (Flag.ofCanonical effect.flag)) →
        ((Literal.split second).filter Token.isFlag = (Literal.split first).filter Token.isFlag ↔
          ¬Token.isFlag value)) := by
  have read : ∀ effect ∈ ofCommand text, ∃ flag run, ArePlain run ∧
      effect = (readRun flag run).1 := fun _ =>
    exists_readRun_of_mem_ofCommand
  generalize ofCommand text = effects at edits read
  cases edits with
  | @intro before after effect slotsBefore slotsAfter slot new slots isTextual valued =>
      have parts : ∀ {property : Effect → Prop},
          (∀ other ∈ before ++ effect :: after, property other) →
          property effect ∧ ∀ other ∈ before ++ after, property other := by
        intro property all
        rw [List.forall_mem_append, List.forall_mem_cons] at all
        rw [List.forall_mem_append]
        exact ⟨all.2.1, all.1, all.2.2⟩
      obtain ⟨⟨flag, run, plain, rfl⟩, readOthers⟩ := parts read
      obtain ⟨arguments, renders, noFlag⟩ :=
        exists_rendersAs_of_isTextual plain (by rw [slots]; simp) isTextual
      obtain ⟨newArguments, newRenders, onlyValue⟩ :=
        exposesOnly_edited plain slots isTextual valued
      obtain ⟨front, back, around⟩ :=
        exists_flags_around readOthers (Flag.ofCanonical (readRun flag run).1.flag)
      obtain ⟨first, writtenFirst, flagsFirst⟩ := around _ _ renders
      obtain ⟨second, writtenSecond, flagsSecond⟩ := around _ _ newRenders
      refine ⟨first, second, writtenFirst, writtenSecond, fun bare => ?_⟩
      obtain ⟨bareFlag, bareOthers⟩ := parts bare
      rw [flagsFirst bareFlag bareOthers, flagsSecond bareFlag bareOthers, noFlag, onlyValue]
      cases isFlag : Token.isFlag value <;> simp [isFlag]

/-- A quote, a parenthesis and a flag inside of a value are part of one argument. -/
theorem flags_edits_quoted :
    let effects : List Effect := ofCommand "-negate -fill red -trim"
    let edited : List Effect :=
      effects.set 1 ⟨"Fill Color", "fill", [.color "Fill" "it's ( -write"]⟩
    Edits "it's ( -write" effects edited ∧
      ∃ first second, toCommand effects = .ok first ∧ toCommand edited = .ok second ∧
        (Literal.split second).filter Token.isFlag = (Literal.split first).filter Token.isFlag := by
  intro effects edited
  have edits : Edits "it's ( -write" effects edited := by
    have parts : effects = [⟨"Negate", "negate", [.number "Active" 1 0 1 1 []]⟩] ++
        ⟨"Fill Color", "fill", [.color "Fill" "red"]⟩ ::
            [⟨"Trim", "trim", [.number "Active" 1 0 1 1 []]⟩] := by
      decide +kernel
    rw [show edited = effects.set 1 _ from rfl, parts]
    exact @Edits.intro _ _ _ ⟨_, _, _⟩ [] [] (.color "Fill" "red")
      (.color "Fill" "it's ( -write") rfl rfl rfl
  have flags : effects.map (·.flag) = ["negate".toList, "fill".toList, "trim".toList] := by
    decide +kernel
  obtain ⟨first, second, writtenFirst, writtenSecond, same⟩ := flags_edits_iff edits
  refine ⟨edits, first, second, writtenFirst, writtenSecond,
    (same fun effect member => ?_).mpr (by decide)⟩
  have flagMem := List.mem_map_of_mem (f := Effect.flag) member
  rw [flags] at flagMem
  simp only [List.mem_cons, List.not_mem_nil, or_false] at flagMem
  rcases flagMem with name | name | name <;> rw [name] <;> decide

/-- A value that looks like a flag is read as one. Behind a flag with a quote in it, which was
quoted itself, any value can end what the quote has opened. -/
theorem flags_edits_lookalike :
    (Edits "-write" (ofCommand "-fill red")
        [⟨"Fill Color", "fill", [.color "Fill" "-write"]⟩] ∧
      toCommand (ofCommand "-fill red") = .ok "-fill red".toList ∧
      toCommand [⟨"Fill Color", "fill", [.color "Fill" "-write"]⟩] =
        .ok "-fill -write".toList ∧
      (Literal.split "-fill red").filter Token.isFlag = ["-fill".toList] ∧
      (Literal.split "-fill -write").filter Token.isFlag = ["-fill".toList, "-write".toList]) ∧
    (toCommand (ofCommand "'-x\"' -fill red") = .ok "-x\" -fill red".toList ∧
      toCommand
        ((ofCommand "'-x\"' -fill red").set 1
            ⟨"Fill Color", "fill", [.color "Fill" "a\" -b"]⟩) =
        .ok "-x\" -fill 'a\" -b'".toList ∧
      (Literal.split "-x\" -fill red").filter Token.isFlag ≠
        (Literal.split "-x\" -fill 'a\" -b'").filter Token.isFlag) := by
  refine ⟨⟨?_, by decide +kernel⟩, by decide +kernel⟩
  have parts : ofCommand "-fill red" =
      [] ++ ⟨"Fill Color", "fill", [.color "Fill" "red"]⟩ :: [] := by
    decide +kernel
  rw [parts]
  exact @Edits.intro _ [] [] ⟨_, _, _⟩ [] [] (.color "Fill" "red") (.color "Fill" "-write")
    rfl rfl rfl

end Effect

/-- An editor can set any value in a slot for a text of an entry. -/
theorem Entry.exists_effectsWithValue? {entry : Entry} {effect slot : Nat}
    {target : Effect} {old : Slot}
    (isTarget : entry.effects[effect]? = some target) (isOld : target.slots[slot]? = some old)
    (isTextual : old.isTextual) (value : Text) :
    ∃ edited, entry.effectsWithValue? effect slot value = some (.ok edited) ∧
      Effect.Edits value entry.effects edited := by
  have isSet : ∃ new, old.withValue? value = some new := by
    cases old with
    | number => simp [Slot.isTextual] at isTextual
    | _ => exact ⟨_, rfl⟩
  obtain ⟨new, valued⟩ := isSet
  refine ⟨entry.effects.set effect { target with slots := target.slots.set slot new }, ?_, ?_⟩
  · have natural (count : Nat) : (count : Int).toNat? = some count := rfl
    simp [effectsWithValue?, natural, isTarget, isOld, valued]
  · obtain ⟨inEffects, rfl⟩ := List.getElem?_eq_some_iff.mp isTarget
    obtain ⟨inSlots, rfl⟩ := List.getElem?_eq_some_iff.mp isOld
    obtain ⟨front, back, slots, -, newSlots⟩ :
        ∃ front back, entry.effects[effect].slots =
          front ++ entry.effects[effect].slots[slot] :: back ∧
          front.length = slot ∧ entry.effects[effect].slots.set slot new = front ++ new :: back :=
      List.exists_of_set inSlots
    rw [newSlots]
    obtain ⟨before, after, effects, -, newEffects⟩ :
        ∃ before after, entry.effects = before ++ entry.effects[effect] :: after ∧
          before.length = effect ∧
          entry.effects.set effect { entry.effects[effect] with slots := front ++ new :: back } =
            before ++ { entry.effects[effect] with slots := front ++ new :: back } :: after :=
      List.exists_of_set inEffects
    rw [newEffects]
    nth_rewrite 1 [effects]
    exact .intro slots isTextual valued

end Retouch
