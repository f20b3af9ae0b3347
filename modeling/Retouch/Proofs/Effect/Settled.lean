import Retouch.Proofs.Effect.Values

/-!
# Operations that settle

What a family makes of a flag is written as the flag with arguments in their settled form. These
arguments are taken in full when they are read again, and what is made of them then is written in
the same way. The one exception is the grayscale switch, which is written as a choice of a colour
space.
-/

namespace Retouch

namespace Flag

@[simp]
theorem canonical_ofCanonical (name : Text) : canonical (ofCanonical name) = name := by
  unfold ofCanonical
  split <;> rfl

end Flag

namespace Family

/-- The number of arguments with which a family writes a run of arguments. -/
def writtenCount (family : Family) (run : List Text) : Nat :=
  match family with
  | .toggle .. | .channelReset => 0
  | .generic => run.length
  | .morphology | .method .. => if run.isEmpty then 0 else 2
  | _ => min run.length 1

@[simp]
theorem writtenCount_nil (family : Family) : family.writtenCount [] = 0 := by
  cases family <;> rfl

/-- What is written is counted as it was read. -/
theorem writtenCount_eq_length {family : Family} {run settled : List Text}
    (count : settled.length = family.writtenCount run) :
    family.writtenCount settled = settled.length := by
  cases family with
  | morphology | method _ _ _ =>
      rw [count]
      cases run <;> cases settled <;> simp_all [writtenCount]
  | _ => simp_all [writtenCount]

/-- Whether the first argument of a family is one of its words, which is written as it was read. -/
def beginsWithWord : Family → Bool
  | .choice .. | .method .. | .morphology => true
  | _ => false

/-- What the arguments that a family writes owe to those that it read: an argument that is not made
of basic characters was there before, and so were the word of the family and what its kernel stands
for. -/
structure Writes (family : Family) (run settled : List Text) : Prop where
  keeps : (settled.filter (!Literal.isBasicText ·)).Sublist run
  first : family.beginsWithWord → settled.head? = run.head?
  kernel : family = .morphology → ∀ kernel ∈ settled[1]?, KernelForm run[1]? kernel

theorem sublist_of_kept {method settled : Text} {rest : List Text}
    (either : settled ∈ rest ∨ Literal.isBasicText settled) :
    ([method, settled].filter (!Literal.isBasicText ·)).Sublist (method :: rest) := by
  rcases either with member | basic
  · exact List.filter_sublist.trans ((List.singleton_sublist.mpr member).cons_cons method)
  · rw [List.filter_cons]
    split <;> simp [basic]

theorem writes_missing (family : Family) : family.Writes [] [] :=
  ⟨List.Sublist.refl [], fun _ => rfl, by simp⟩

theorem writes_nothing {family : Family} (wordless : family.beginsWithWord = false)
    (run : List Text) :
    family.Writes run [] :=
  ⟨List.nil_sublist run, fun word => by simp [wordless] at word, by simp⟩

theorem writes_singleton {family : Family} {argument settled : Text}
    (either : settled = argument ∨ Literal.isBasicText settled)
    (word : family.beginsWithWord → settled = argument) (rest : List Text) :
    family.Writes (argument :: rest) [settled] where
  keeps := by
    rcases either with rfl | basic
    · exact List.filter_sublist.trans (List.singleton_sublist.mpr List.mem_cons_self)
    · simp [basic]
  first := fun hasWord => by rw [word hasWord]; rfl
  kernel := by simp

/-- What holds of the families of the table and their flags. -/
def IsWellFormed (name : Text) : Family → Prop
  | .toggle _ isScoped command =>
      command = none ∨ command = some "-colorspace Gray" ∧ isScoped = false ∧
        name = "grayscale"
  | .amount range _ => IsUnitText range.unit
  | .amounts _ parts => parts ≠ [] ∧ name.head? ≠ some '+' ∧ ∀ part ∈ parts, IsPart part
  | .channelReset => name = Flag.regionClose
  | _ => True

theorem isPart_ofInt {range : NumberRange} (isUnit : IsUnitText range.unit) {integer : Int}
    (finite : (Binary64.ofInt integer).isFinite) : IsPart (range, .int integer) := by
  refine ⟨isUnit, Binary64.ofInt integer, finite, ?_⟩
  have value : (Number.int integer).toBinary64 = .ok (Binary64.ofInt integer) := by
    simp only [Number.toBinary64]
    split
    · next infinite => simp [infinite, Binary64.isFinite] at finite
    · rfl
  rw [Number.commandText, value]
  rfl

theorem isWellFormed_structured : ∀ entry ∈ structured, entry.2.IsWellFormed entry.1 := by
  have percent {range : NumberRange} (same : range.unit = ['%']) : IsUnitText range.unit :=
    Or.inr same
  have noUnit {range : NumberRange} (same : range.unit = []) : IsUnitText range.unit := Or.inl same
  simp only [structured, List.forall_mem_cons, List.not_mem_nil, IsWellFormed]
  refine ⟨⟨by simp, by decide, ?_, ?_, ?_, by simp⟩,
    ⟨by simp, by decide, ?_, ?_, by simp⟩, by simp⟩
  · exact isPart_ofInt (percent rfl) (by decide +kernel)
  · exact isPart_ofInt (percent rfl) (by decide +kernel)
  · exact isPart_ofInt (percent rfl) (by decide +kernel)
  · exact isPart_ofInt (noUnit rfl) (by decide +kernel)
  · exact isPart_ofInt (percent rfl) (by decide +kernel)

/-- A flag that is not generic stands in the table with its family. -/
theorem generic_or_mem_table (name : Text) : ofFlag name = .generic ∨
    (name, ofFlag name) ∈ table := by
  unfold ofFlag
  cases found : table.lookup name with
  | none => exact .inl rfl
  | some family =>
      rcases List.lookup_eq_some_iff.mp found with ⟨front, back, parts, -⟩
      exact .inr (by simp [parts])

theorem isWellFormed_ofFlag (name : Text) : (ofFlag name).IsWellFormed name := by
  have wellFormed : ∀ entry ∈ table, entry.2.IsWellFormed entry.1 := by
    intro entry member
    simp only [table, List.mem_append, or_assoc] at member
    rcases member with inSwitches | inSliders | inStructured | inChoices | inTexts | last
    · revert entry
      simp [switches, switch, IsWellFormed]
    · revert entry
      simp [sliders, slider, IsWellFormed, IsUnitText]
    · exact isWellFormed_structured entry inStructured
    · revert entry
      simp [choices, IsWellFormed]
    · revert entry
      simp [texts, IsWellFormed]
    · obtain rfl := List.mem_singleton.mp last
      rfl
  rcases generic_or_mem_table name with generic | member
  · rw [generic]
    exact trivial
  · exact wellFormed _ member

theorem isWellFormed_amounts {name label : Text} {parts : List (NumberRange × Number)}
    (family : ofFlag name = .amounts label parts) :
    parts ≠ [] ∧ name.head? ≠ some '+' ∧ ∀ part ∈ parts, IsPart part := by
  have wellFormed := isWellFormed_ofFlag name
  rwa [family] at wellFormed

end Family

namespace Effect

open Family

/-- What is made of a flag with the arguments that follow it, and how many of them are taken. -/
def readRun (flag : Text) (run : List Text) : Effect × Nat :=
  ((Family.ofFlag (Flag.canonical flag)).read flag run).getD (readGeneric flag run)

theorem readFlag_eq (flag : Text) (rest : List Text) :
    readFlag flag rest = readRun flag (Token.argumentRun rest) := rfl

/-- Whether an effect, without a selection around it, is written as a flag with arguments. -/
def IsWritten (effect : Effect) (flag : Text) (arguments : List Text) : Prop :=
  effect.renderBody = .ok (Text.unwords (flag :: arguments.map Literal.quote))

/-- Whether every text is a non-empty argument. -/
def ArePlain (arguments : List Text) : Prop :=
  ∀ argument ∈ arguments, argument ≠ [] ∧ Token.isArgument argument

/-- Whether a flag with a run of arguments is written with other arguments, which are taken in full
and written as they stand. -/
structure Settles (flag : Text) (run settled : List Text) : Prop where
  plain : ArePlain settled
  written : (readRun flag run).1.IsWritten (Flag.ofCanonical (Flag.canonical flag)) settled
  stable : (readRun flag settled).1.IsWritten (Flag.ofCanonical (Flag.canonical flag)) settled
  taken : (readRun flag settled).2 = settled.length
  valued : (readRun flag run).1.slots = [] ↔ (readRun flag settled).1.slots = []
  count : settled.length = (Family.ofFlag (Flag.canonical flag)).writtenCount run

theorem flag_readRun (flag : Text) (run : List Text) :
    (readRun flag run).1.flag = Flag.canonical flag := by
  have wellFormed := isWellFormed_ofFlag (Flag.canonical flag)
  unfold readRun
  cases family : Family.ofFlag (Flag.canonical flag) with
  | channelReset =>
      rw [family] at wellFormed
      exact wellFormed.symm
  | _ => cases run <;> rfl

/-- No effect that was read is a switch that is off. -/
theorem isOff_readRun (flag : Text) (run : List Text) : (readRun flag run).1.isOff = false := by
  unfold isOff
  rw [flag_readRun]
  cases family : Family.ofFlag (Flag.canonical flag) with
  | toggle label isScoped command =>
      simp only [readRun, family, Family.read, Option.getD_some]
      rfl
  | _ => rfl

theorem renderValues_singleton (name flag : Text) {slot : Slot} {text : Text}
    (written : slot.commandText = .ok text) (text_ne : text ≠ []) :
    (⟨name, flag, [slot]⟩ : Effect).renderValues =
      .ok (Text.unwords [Flag.ofCanonical flag, text]) := by
  have values : [slot].mapM Slot.commandText = .ok [text] := by
    rw [List.mapM_cons, written]
    rfl
  have kept : [text].filter (!·.isEmpty) = [text] := by simp [text_ne]
  unfold renderValues
  rw [values]
  simp only [bind, Except.bind, pure, Except.pure, kept]
  split
  · next none => simp at none
  · split <;> rfl

/-! ## Written effects -/

theorem isWritten_slot {name flag argument : Text} {slot : Slot}
    (renders : (⟨name, flag, [slot]⟩ : Effect).renderBody =
        (⟨name, flag, [slot]⟩ : Effect).renderValues)
    (written : slot.commandText = .ok (Literal.quote argument)) (nonempty : argument ≠ []) :
    (⟨name, flag, [slot]⟩ : Effect).IsWritten (Flag.ofCanonical flag) [argument] := by
  rw [IsWritten, renders]
  exact renderValues_singleton name flag written (Literal.quote_ne_nil nonempty)

theorem isWritten_amounts {name flag label : Text} {parts : List (NumberRange × Number)}
    {slots : List Slot}
    {numbers : List Binary64} (family : Family.ofFlag flag = .amounts label parts)
    (numeric : slots.all Slot.looksNumeric)
    (written : slots.mapM Slot.commandText = .ok (List.zipWith partText parts numbers))
    (length : numbers.length = parts.length) (finite : ∀ number ∈ numbers, number.isFinite) :
    (⟨name, flag, slots⟩ : Effect).IsWritten (Flag.ofCanonical flag)
    [partsText parts numbers] := by
  rcases isWellFormed_amounts family with ⟨parts_ne, noPlus, areParts⟩
  have texts_ne : List.zipWith partText parts numbers ≠ [] := by
    cases parts <;> cases numbers <;> simp_all
  have kept : (List.zipWith partText parts numbers).filter (!·.isEmpty) =
      List.zipWith partText parts numbers := by
    rw [List.filter_eq_self]
    intro text member
    rcases exists_of_mem_zipWith areParts finite member with
      ⟨part, number, -, numberFinite, rfl⟩
    simp [partText, Number.finiteText_ne_nil numberFinite]
  rw [IsWritten, List.map_singleton,
    Literal.quote_of_isBasicText (isBasicText_partsText areParts finite)]
  simp only [renderBody, family]
  unfold renderValues
  dsimp only
  rw [written]
  simp only [bind, Except.bind, pure, Except.pure, kept, numeric, noPlus]
  rw [if_neg (by simpa using texts_ne)]
  rfl

theorem isWritten_method {name flag label argument : Text} {methods : List Text} {isNumeric : Bool}
    (family : Family.ofFlag flag = .method label methods isNumeric) (method : Slot)
    {parameter : Slot} (written : parameter.commandText = .ok (Literal.quote argument)) :
    (⟨name, flag, [method, parameter]⟩ : Effect).IsWritten (Flag.ofCanonical flag)
    [method.valueText, argument] := by
  rw [IsWritten]
  simp only [renderBody, family, written]
  rfl

/-- A morphology operation is written with its method and the form of its kernel. -/
theorem isWritten_morphology {name flag settled : Text} (family : Family.ofFlag flag = .morphology)
    (method : Slot) {kernel first second : Slot}
    (written : kernelText kernel.valueText first.amount second.amount = .ok settled) :
    (⟨name, flag, [method, kernel, first, second]⟩ : Effect).IsWritten (Flag.ofCanonical flag)
      [method.valueText, settled] := by
  rw [IsWritten]
  simp only [renderBody, family, written]
  rfl

/-! ## Operations -/

/-- A flag that misses its argument is written alone. -/
theorem settles_missing {flag : Text}
    (missing : (Family.ofFlag (Flag.canonical flag)).read flag [] = none) : Settles flag [] [] := by
  have read : readRun flag [] = (⟨Flag.canonical flag, Flag.canonical flag, []⟩, 0) := by
    rw [readRun, missing]
    rfl
  have written : (readRun flag []).1.IsWritten (Flag.ofCanonical (Flag.canonical flag)) [] := by
    rw [IsWritten, read, renderBody]
    cases family : Family.ofFlag (Flag.canonical flag) with
    | toggle label isScoped command => simp [family, Family.read] at missing
    | channelReset => simp [family, Family.read] at missing
    | _ => rfl
  exact ⟨by simp [ArePlain], written, written, by rw [read]; rfl, Iff.rfl, by simp⟩

theorem settles_generic {flag : Text} (family : Family.ofFlag (Flag.canonical flag) = .generic)
    {run : List Text} (plain : ArePlain run) : Settles flag run run := by
  have read : readRun flag run = readGeneric flag run := by
    rw [readRun, family]
    rfl
  have written : (readRun flag run).1.IsWritten (Flag.ofCanonical (Flag.canonical flag)) run := by
    rw [IsWritten, read, renderBody]
    simp only [readGeneric, family]
    cases run with
    | nil => rfl
    | cons argument rest =>
        have quoted_ne : Text.unwords ((argument :: rest).map Literal.quote) ≠ [] := by
          rw [ne_eq, Text.unwords_eq_nil_iff]
          · simp
          · intro piece member
            obtain ⟨value, valueMem, rfl⟩ := List.mem_map.mp member
            exact Literal.quote_ne_nil (plain value valueMem).1
        rw [if_neg (by simpa using quoted_ne), renderValues_singleton _ _ rfl quoted_ne]
        rw [Text.unwords_cons_cons, Text.unwords_singleton, List.map_cons, Text.unwords_cons_cons]
  exact ⟨plain, written, written, by rw [read]; rfl, Iff.rfl, by rw [family]; rfl⟩

theorem settles_slot {flag : Text} (label : Text) {read : Text → Slot}
    (reads : ∀ argument rest,
      readRun flag (argument :: rest) = (⟨label, Flag.canonical flag, [read argument]⟩, 1))
    (renders : ∀ slots, (⟨label, Flag.canonical flag, slots⟩ : Effect).renderBody =
      (⟨label, Flag.canonical flag, slots⟩ : Effect).renderValues)
    {argument settled : Text} (slot : Slot.Settles read argument settled) {rest : List Text}
    (count : (Family.ofFlag (Flag.canonical flag)).writtenCount (argument :: rest) = 1) :
    Settles flag (argument :: rest) [settled] where
  plain := by simpa [ArePlain] using ⟨slot.nonempty, slot.isArgument⟩
  written := by
    rw [reads]
    exact isWritten_slot (renders _) slot.written slot.nonempty
  stable := by
    rw [reads]
    exact isWritten_slot (renders _) slot.stable slot.nonempty
  taken := by rw [reads]; rfl
  valued := by simp [reads]
  count := count.symm

theorem settles_switch {flag label : Text} {isScoped : Bool}
    (family : Family.ofFlag (Flag.canonical flag) = .toggle label isScoped none) (run : List Text) :
    Settles flag run [] := by
  have read (run : List Text) :
      readRun flag run = (⟨label, Flag.canonical flag, [.number "Active" 1 0 1 1 []]⟩, 0) := by
    rw [readRun, family]
    rfl
  have written (run : List Text) :
      (readRun flag run).1.IsWritten (Flag.ofCanonical (Flag.canonical flag)) [] := by
    rw [IsWritten, read, renderBody]
    simp only [family]
    rfl
  exact ⟨by simp [ArePlain], written run, written [], by rw [read]; rfl, by simp [read],
    by rw [family]; rfl⟩

theorem settles_channelReset (flag : Text)
    (family : Family.ofFlag (Flag.canonical flag) = .channelReset)
    (run : List Text) : Settles flag run [] := by
  have name : Flag.canonical flag = Flag.regionClose := by
    have wellFormed := isWellFormed_ofFlag (Flag.canonical flag)
    rwa [family] at wellFormed
  have read (run : List Text) : readRun flag run =
      (⟨"Channel Reset", Flag.regionClose, []⟩, 0) := by
    rw [readRun, family]
    rfl
  have count : ([] : List Text).length =
      (Family.ofFlag (Flag.canonical flag)).writtenCount run := by
    rw [family]
    rfl
  have written (run : List Text) :
      (readRun flag run).1.IsWritten (Flag.ofCanonical (Flag.canonical flag)) [] := by
    rw [name] at family
    rw [IsWritten, read, renderBody, name]
    simp only [family]
    rfl
  exact ⟨by simp [ArePlain], written run, written [], by rw [read]; rfl, by simp [read], count⟩

/-- The word of a choice, a colour and a text are written as they were read. -/
theorem settles_word {flag : Text} (label : Text) (read : Text → Slot)
    (reads : ∀ argument rest,
      readRun flag (argument :: rest) = (⟨label, Flag.canonical flag, [read argument]⟩, 1))
    (renders : ∀ slots, (⟨label, Flag.canonical flag, slots⟩ : Effect).renderBody =
      (⟨label, Flag.canonical flag, slots⟩ : Effect).renderValues)
    (quoted : ∀ argument, (read argument).commandText = .ok (Literal.quote argument))
    {argument : Text} {rest : List Text} (plain : ArePlain (argument :: rest))
    (count : (Family.ofFlag (Flag.canonical flag)).writtenCount (argument :: rest) = 1) :
    Settles flag (argument :: rest) [argument] := by
  obtain ⟨nonempty, isArgument⟩ := plain argument (by simp)
  exact settles_slot label reads renders
    ⟨nonempty, isArgument, quoted argument, quoted argument⟩ count

theorem settles_choice (flag : Text) {label slot : Text} {options : List Text}
    (family : Family.ofFlag (Flag.canonical flag) = .choice label slot options)
    {argument : Text} {rest : List Text} (plain : ArePlain (argument :: rest)) :
    Settles flag (argument :: rest) [argument] := by
  refine settles_word label (fun argument => .select slot argument options)
    (fun argument rest => ?_) (fun slots => ?_) (fun _ => rfl) plain
      (by simp [family, writtenCount])
  · rw [readRun, family]
    rfl
  · simp only [renderBody, family]

theorem exists_settles_amount {flag : Text} {range : NumberRange} {isScoped : Bool}
    (family : Family.ofFlag (Flag.canonical flag) = .amount range isScoped)
    {argument : Text} {rest : List Text} (plain : ArePlain (argument :: rest)) :
    ∃ settled, Settles flag (argument :: rest) settled ∧
      (Family.amount range isScoped).Writes (argument :: rest) settled := by
  obtain ⟨nonempty, isArgument⟩ := plain argument (by simp)
  have isUnit : IsUnitText range.unit := by
    have wellFormed := isWellFormed_ofFlag (Flag.canonical flag)
    rwa [family] at wellFormed
  obtain ⟨settled, slot, either⟩ := exists_settles_readAmount range isUnit nonempty isArgument
  refine ⟨[settled], settles_slot range.label (fun argument rest => ?_) (fun slots => ?_) slot
    (by simp [family, writtenCount]), writes_singleton either (by simp [beginsWithWord]) rest⟩
  · rw [readRun, family]
    rfl
  · simp only [renderBody, family]

theorem all_looksNumeric_readAmounts (parts : List (NumberRange × Number)) (argument : Text) :
    (readAmounts parts argument).all Slot.looksNumeric := by
  rw [readAmounts_eq, List.all_map]
  exact List.all_eq_true.mpr fun _ _ => rfl

theorem exists_settles_amounts {flag label : Text} {parts : List (NumberRange × Number)}
    (family : Family.ofFlag (Flag.canonical flag) = .amounts label parts) (argument : Text)
    (rest : List Text) : ∃ settled, Settles flag (argument :: rest) settled ∧
      (Family.amounts label parts).Writes (argument :: rest) settled := by
  rcases isWellFormed_amounts family with ⟨parts_ne, -, areParts⟩
  have read (argument : Text) (rest : List Text) :
      readRun flag (argument :: rest) =
          (⟨label, Flag.canonical flag, readAmounts parts argument⟩, 1) := by
    rw [readRun, family]
    rfl
  obtain ⟨numbers, length, finite, written⟩ := exists_mapM_readPart areParts
    (Text.splitOn ',' (argument.map fun c => if c = 'x' then ',' else c)) 0
  rw [← readAmounts_eq] at written
  have stable : (readAmounts parts (partsText parts numbers)).mapM Slot.commandText =
      .ok (List.zipWith partText parts numbers) := by
    rw [readAmounts_partsText areParts parts_ne length finite, mapM_readValues]
  have basic := isBasicText_partsText areParts finite
  have renders (argument : Text)
      (written : (readAmounts parts argument).mapM Slot.commandText =
        .ok (List.zipWith partText parts numbers)) :
      (⟨label, Flag.canonical flag, readAmounts parts argument⟩ : Effect).IsWritten
        (Flag.ofCanonical (Flag.canonical flag)) [partsText parts numbers] :=
    isWritten_amounts family (all_looksNumeric_readAmounts _ _) written length finite
  refine ⟨[partsText parts numbers], ⟨?_, ?_, ?_, ?_, ?_, by simp [family, writtenCount]⟩,
    writes_singleton (.inr basic) (by simp [beginsWithWord]) rest⟩
  · simpa [ArePlain] using isArgument_partsText parts_ne length finite
  · rw [read]
    exact renders argument written
  · rw [read]
    exact renders _ stable
  · rw [read]
    rfl
  · simp [read, readAmounts_eq]

/-- The parameter of a method is read from an argument, or from what stands for a missing one. -/
theorem exists_parameter (isNumeric : Bool) {rest : List Text} (plain : ArePlain rest) :
    ∃ parameter, readParameter isNumeric rest.head? = readParameter isNumeric (some parameter) ∧
      parameter ≠ [] ∧
      Token.isArgument parameter ∧ (parameter ∈ rest ∨ Literal.isBasicText parameter) := by
  cases rest with
  | nil => exact ⟨defaultParameter, rfl, by decide, by decide, .inr (by decide)⟩
  | cons parameter others =>
      obtain ⟨nonempty, isArgument⟩ := plain parameter (by simp)
      exact ⟨parameter, rfl, nonempty, isArgument, .inl List.mem_cons_self⟩

theorem exists_settles_method {flag label : Text} {methods : List Text} {isNumeric : Bool}
    (family : Family.ofFlag (Flag.canonical flag) = .method label methods isNumeric)
    {method : Text} {rest : List Text} (plain : ArePlain (method :: rest)) :
    ∃ settled, Settles flag (method :: rest) settled ∧
      (Family.method label methods isNumeric).Writes (method :: rest) settled := by
  obtain ⟨method_ne, methodArgument⟩ := plain method (by simp)
  have read (others : List Text) : readRun flag (method :: others) =
      (⟨label, Flag.canonical flag,
        [.select "Method" method methods, readParameter isNumeric others.head?]⟩,
        1 + (others.take 1).length) := by
    rw [readRun, family]
    rfl
  obtain ⟨parameter, same, nonempty, isArgument, isRest⟩ :=
    exists_parameter isNumeric fun argument member => plain argument (List.mem_cons_of_mem _ member)
  obtain ⟨settled, settles, either⟩ :=
    exists_settles_readParameter isNumeric nonempty isArgument
  have writes : (Family.method label methods isNumeric).Writes (method :: rest)
      [method, settled] := by
    refine ⟨sublist_of_kept ?_, fun _ => rfl, by simp⟩
    rcases either with rfl | basic
    · exact isRest
    · exact .inr basic
  have renders {slot : Slot} (written : slot.commandText = .ok (Literal.quote settled)) :
      (⟨label, Flag.canonical flag, [.select "Method" method methods, slot]⟩ : Effect).IsWritten
        (Flag.ofCanonical (Flag.canonical flag)) [method, settled] :=
    isWritten_method family _ written
  refine ⟨[method, settled], ⟨?_, ?_, ?_, ?_, ?_, by simp [family, writtenCount]⟩, writes⟩
  · simpa [ArePlain]
      using ⟨⟨method_ne, methodArgument⟩, settles.nonempty, settles.isArgument⟩
  · rw [read, same]
    exact renders settles.written
  · rw [read]
    exact renders settles.stable
  · rw [read]
    rfl
  · simp [read]

theorem exists_settles_morphology {flag : Text}
    (family : Family.ofFlag (Flag.canonical flag) = .morphology)
    {method : Text} {rest : List Text} (plain : ArePlain (method :: rest)) :
    ∃ settled, Settles flag (method :: rest) settled ∧
      Family.morphology.Writes (method :: rest) settled := by
  obtain ⟨method_ne, methodArgument⟩ := plain method (by simp)
  have read (others : List Text) : readRun flag (method :: others) =
      (⟨"Morphology", Flag.canonical flag, morphologySlots method others.head?⟩,
        1 + (others.take 1).length) := by
    rw [readRun, family]
    rfl
  obtain ⟨settled, isArgument, settled_ne, written, stable, form⟩ :=
    exists_kernelForm rest.head? fun kernel member =>
      plain kernel (List.mem_cons_of_mem _ (List.mem_of_mem_head? member))
  have writes : Family.morphology.Writes (method :: rest) [method, settled] := by
    refine ⟨sublist_of_kept ?_, fun _ => rfl, fun _ => ?_⟩
    · generalize isHead : rest.head? = head at form
      cases form with
      | known basic => exact .inr basic
      | own => exact .inl (List.mem_of_mem_head? isHead)
    · simpa [← List.head?_eq_getElem?] using form
  have renders {kernel : Option Text} (written : kernelForm kernel = .ok settled) :
      (⟨"Morphology", Flag.canonical flag, morphologySlots method kernel⟩ : Effect).IsWritten
        (Flag.ofCanonical (Flag.canonical flag)) [method, settled] :=
    isWritten_morphology family _ written
  refine ⟨[method, settled], ⟨?_, ?_, ?_, ?_, ?_, by simp [family, writtenCount]⟩, writes⟩
  · simpa [ArePlain] using ⟨⟨method_ne, methodArgument⟩, settled_ne, isArgument⟩
  · rw [read]
    exact renders written
  · rw [read]
    exact renders stable
  · rw [read]
    rfl
  · simp [read, morphologySlots]

/-- Every operation settles that is written under its own flag. -/
theorem exists_settles {flag : Text} {run : List Text} (plain : ArePlain run)
    (ownFlag : Flag.canonical flag ≠ "grayscale".toList) :
    ∃ settled, Settles flag run settled ∧
      (Family.ofFlag (Flag.canonical flag)).Writes run settled := by
  have missing {family : Family} (found : Family.ofFlag (Flag.canonical flag) = family)
      (none : family.read flag [] = none) : ∃ settled, Settles flag [] settled ∧
        family.Writes [] settled :=
    ⟨[], settles_missing (by rw [found, none]), writes_missing _⟩
  cases family : Family.ofFlag (Flag.canonical flag) with
  | toggle label isScoped command =>
      have wellFormed := isWellFormed_ofFlag (Flag.canonical flag)
      rw [family] at wellFormed
      -- the grayscale switch is the only one with another command
      rcases wellFormed with rfl | ⟨-, -, grayscale⟩
      · exact ⟨[], settles_switch family run, writes_nothing rfl run⟩
      · exact absurd grayscale ownFlag
  | channelReset => exact ⟨[], settles_channelReset flag family run, writes_nothing rfl run⟩
  | generic =>
      exact ⟨run, settles_generic family plain, List.filter_sublist, fun _ => rfl, by simp⟩
  | amount range isScoped =>
      cases run with
      | nil => exact missing family rfl
      | cons argument rest => exact exists_settles_amount family plain
  | amounts label parts =>
      cases run with
      | nil => exact missing family rfl
      | cons argument rest => exact exists_settles_amounts family argument rest
  | morphology =>
      cases run with
      | nil => exact missing family rfl
      | cons method rest => exact exists_settles_morphology family plain
  | method label methods isNumeric =>
      cases run with
      | nil => exact missing family rfl
      | cons method rest => exact exists_settles_method family plain
  | choice label slot options =>
      cases run with
      | nil => exact missing family rfl
      | cons argument rest =>
          exact ⟨[argument], settles_choice flag family plain,
            writes_singleton (.inl rfl) (fun _ => rfl) rest⟩
  | color label slot =>
      cases run with
      | nil => exact missing family rfl
      | cons argument rest =>
          refine ⟨[argument], settles_word label (.color slot) (fun argument rest => ?_)
            (fun slots => ?_) (fun _ => rfl) plain (by simp [family, writtenCount]),
            writes_singleton (.inl rfl) (fun _ => rfl) rest⟩
          · rw [readRun, family]
            rfl
          · simp only [renderBody, family]
  | freeText label slot =>
      cases run with
      | nil => exact missing family rfl
      | cons argument rest =>
          refine ⟨[argument], settles_word label (fun text => .text slot text false)
            (fun argument rest => ?_) (fun slots => ?_) (fun _ => rfl) plain
              (by simp [family, writtenCount]),
            writes_singleton (.inl rfl) (fun _ => rfl) rest⟩
          · rw [readRun, family]
            rfl
          · simp only [renderBody, family]

end Effect

end Retouch
