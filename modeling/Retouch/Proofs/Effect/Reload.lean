import Retouch.Proofs.Effect.Collapse
import Retouch.Proofs.Number.Whole

/-!
# Edited effects that are read again

An editor puts numbers and texts into the slots of an effect. When the effect is written and read
again, its family takes the arguments that were written and reads each of them as the value that it
was written for. So the effect comes back with its values. Numbers are compared by value, since an
editor may hold an integer, while every number that is read is a binary64 number.
-/

namespace Retouch

namespace Slot

/-- The slot without its value. -/
def withoutValue : Slot → Slot
  | .number label _ minimum maximum step unit => .number label 0 minimum maximum step unit
  | .color label _ => .color label []
  | .select label _ options => .select label [] options
  | .text label _ verbatim => .text label [] verbatim

/-- The slot with its number as numbers are compared. -/
def byValue : Slot → Slot
  | .number label value minimum maximum step unit =>
      .number label value.byValue minimum maximum step unit
  | slot => slot

/-- Whether the value of a slot is a whole number, no greater than the numbers that binary64 numbers
count up to, or a text that is an argument. -/
def HoldsValue : Slot → Prop
  | .number _ value .. => ∃ integer, value.whole? = some integer ∧ integer.natAbs ≤ 2 ^ 53
  | slot => slot.valueText ≠ [] ∧ Token.isArgument slot.valueText

/-- Whether the value of a slot is a number. -/
def isNumber : Slot → Bool
  | .number .. => true
  | _ => false

variable {slot : Slot}

theorem exists_eq_number {label unit : Text} {value minimum maximum step : Number}
    (form : slot.withoutValue = .number label value minimum maximum step unit) :
    ∃ value, slot = .number label value minimum maximum step unit := by
  cases slot <;> simp_all [withoutValue]

/-- A slot for a word, a colour or a text has the form of another one if it is the other one with a
value. -/
theorem exists_withValue?_eq {other : Slot} (form : slot.withoutValue = other.withoutValue)
    (textual : other.isNumber = false) : ∃ value, other.withValue? value = some slot := by
  refine ⟨slot.valueText, ?_⟩
  cases other with
  | number => simp [isNumber] at textual
  | _ => cases slot <;> simp_all [withoutValue, withValue?, valueText]

/-- Whether an argument is written for a slot and read as a slot with the same value. -/
structure ReadsBack (read : Text → Slot) (slot : Slot) (argument : Text) : Prop where
  nonempty : argument ≠ []
  isArgument : Token.isArgument argument
  written : slot.commandText = .ok (Literal.quote argument)
  same : (read argument).byValue = slot.byValue

end Slot

namespace Family

open Slot Number

/-- Whether a family reads the values of slots as they were written: one number, a parameter that is
a number if it can be one, and a kernel that is known and has no size below zero. Switches, ends of
selections and flags without a family have no values. -/
def Keeps : Family → List Slot → Prop
  | .amount .., [slot] => slot.isNumber
  | .method _ _ true, [_, parameter] => parameter.isNumber
  | .morphology, [_, kernel, first, second] =>
      kernel.valueText ∈ Vocabulary.morphologyKernels ∧ first.amount.isBelow 0 1 = false ∧
        second.amount.isBelow 0 1 = false
  | .amounts .., _ | .method _ _ false, _ | .choice .., _ | .color .., _ | .freeText .., _ => True
  | _, _ => False

/-! ## Slots -/

theorem exists_readsBack_amount {range : NumberRange} {slot : Slot} {argument : Text}
    (isUnit : IsUnitText range.unit)
    (form : slot.withoutValue = (readAmount range argument).withoutValue) (isNumber : slot.isNumber)
    (holds : slot.HoldsValue) : ∃ written, slot.ReadsBack (readAmount range) written := by
  rcases readAmount_cases range argument with read | ⟨number, unit, -, hasUnit, read⟩
  · rw [read] at form
    rcases exists_withValue?_eq form rfl with ⟨value, valued⟩
    obtain rfl := Option.some.inj valued
    simp [Slot.isNumber] at isNumber
  · rw [read] at form
    rcases exists_eq_number form with ⟨value, rfl⟩
    rcases holds with ⟨integer, whole, small⟩
    rcases exists_finiteText whole small with ⟨number, finite, -, text, same⟩
    have isUnit' := hasUnit.isUnitText isUnit
    refine ⟨finiteText number ++ unit, by simp [finiteText_ne_nil finite],
      Token.isArgument_finiteText finite unit, ?_, ?_⟩
    · rw [Literal.quote_quantity finite isUnit']
      exact commandText_number _ _ _ _ _ _ number text
    · rw [readAmount_quantity finite hasUnit isUnit', Slot.byValue, Slot.byValue, same]

theorem exists_readsBack_parameter {isNumeric : Bool} {slot : Slot} {argument : Option Text}
    (form : slot.withoutValue = (readParameter isNumeric argument).withoutValue)
    (isNumber : isNumeric → slot.isNumber) (holds : slot.HoldsValue) :
    ∃ written,
      slot.ReadsBack (fun written => readParameter isNumeric (some written)) written := by
  cases isNumeric with
  | false =>
      rcases exists_withValue?_eq form rfl with ⟨value, valued⟩
      obtain rfl := Option.some.inj valued
      exact ⟨value, holds.1, holds.2, rfl, rfl⟩
  | true =>
      have same : (fun written => readParameter true (some written)) = readAmount parameterRange :=
        funext fun written => readParameter_numeric (some written)
      rw [readParameter_numeric] at form
      rw [same]
      exact exists_readsBack_amount (.inl rfl) form (isNumber rfl) holds

/-- The numbers of a list are written one by one and read back. -/
theorem exists_readsBack_amounts {parts : List (NumberRange × Number)} {slots : List Slot}
    {pieces : List Text} {start : ℕ}
    (form : slots.map withoutValue = ((parts.zipIdx start).map (readPart pieces)).map withoutValue)
    (holds : ∀ slot ∈ slots, slot.HoldsValue) :
    slots.all Slot.looksNumeric ∧ ∃ numbers : List Binary64,
      numbers.length = parts.length ∧ (∀ number ∈ numbers, number.isFinite) ∧
      slots.mapM Slot.commandText = .ok (List.zipWith partText parts numbers) ∧
      (List.zipWith partSlot parts (readValues numbers)).map Slot.byValue =
        slots.map Slot.byValue := by
  induction parts generalizing slots start with
  | nil =>
      obtain rfl : slots = [] := by simpa using form
      exact ⟨rfl, [], rfl, by simp, rfl, rfl⟩
  | cons part parts ih =>
      rw [List.zipIdx_cons, List.map_cons, List.map_cons] at form
      rcases List.map_eq_cons_iff.mp form with ⟨slot, slots, rfl, first, others⟩
      rw [List.forall_mem_cons] at holds
      rcases exists_eq_number first with ⟨value, rfl⟩
      rcases holds with ⟨⟨integer, whole, small⟩, holdOthers⟩
      rcases exists_finiteText whole small with ⟨number, finite, -, text, same⟩
      rcases ih others holdOthers with ⟨numeric, numbers, length, areFinite, written, read⟩
      refine ⟨numeric, number :: numbers, by simp [length],
        by simpa [finite] using areFinite, ?_, ?_⟩
      · rw [List.mapM_cons, commandText_number _ _ _ _ _ _ number text, written]
        rfl
      · rw [readValues, List.map_cons, List.zipWith_cons_cons, List.map_cons, List.map_cons,
          ← readValues, read, partSlot, Slot.byValue, Slot.byValue, same]

/-- A known kernel with sizes that are not below zero is read back. -/
theorem exists_readsBack_kernel {kernel : Text} {first second : Number}
    (known : kernel ∈ Vocabulary.morphologyKernels) {width height : ℤ}
    (isWidth : first.whole? = some width)
    (isHeight : second.whole? = some height)
    (small : width.natAbs ≤ 2 ^ 53 ∧ height.natAbs ≤ 2 ^ 53)
    (notBelow : first.isBelow 0 1 = false ∧ second.isBelow 0 1 = false) :
    ∃ written firstRead secondRead, written ≠ [] ∧ Token.isArgument written ∧
      Effect.kernelText kernel first second = .ok written ∧
      readKernel (some written) = (kernel, firstRead, secondRead) ∧
      (Number.float firstRead).byValue = first.byValue ∧
        (Number.float secondRead).byValue = second.byValue := by
  rcases exists_finiteText isWidth small.1 with
    ⟨firstNumber, firstFinite, firstWhole, firstText, firstSame⟩
  rcases exists_finiteText isHeight small.2 with
    ⟨secondNumber, secondFinite, secondWhole, secondText, secondSame⟩
  rcases exists_settled_kernel known firstFinite secondFinite with ⟨written, settles⟩
  have form : Effect.kernelText kernel first second =
      Effect.kernelText kernel (.float firstNumber) (.float secondNumber) := by
    simp only [Effect.kernelText, firstText, secondText, commandText_float,
      isPositive_of_whole? isWidth, isPositive_of_whole? isHeight, isPositive_of_whole? firstWhole,
      isPositive_of_whole? secondWhole]
  rw [isBelow_of_whole? isWidth, ← isBelow_of_whole? firstWhole, isBelow_of_whole? isHeight,
    ← isBelow_of_whole? secondWhole] at notBelow
  exact ⟨written, _, _, settles.nonempty, settles.isArgument, form.trans settles.written,
    settles.read notBelow.1 notBelow.2, firstSame, secondSame⟩

theorem isWritable_of_mem_table : ∀ entry ∈ Family.table,
    Flag.IsWritable (Flag.ofCanonical entry.1) := by
  have each : ∀ entry ∈ Family.table,
      Token.isFlag (Flag.ofCanonical entry.1) ∧ Literal.IsBare (Flag.ofCanonical entry.1) := by
    decide +kernel
  exact fun entry member => ⟨(each entry member).1, (each entry member).2⟩

end Family

namespace Effect

open Slot Family Operation Selection

def withoutValues (effect : Effect) : Effect :=
  { effect with slots := effect.slots.map withoutValue }

/-- The effect with its numbers as numbers are compared. -/
def byValue (effect : Effect) : Effect :=
  { effect with slots := effect.slots.map Slot.byValue }

/-- Whether an effect is what its family reads, up to its values, and holds values that its family
keeps. -/
structure IsEdited (effect : Effect) : Prop where
  form : ∃ run reading count,
    (Family.ofFlag effect.flag).read (Flag.ofCanonical effect.flag) run = some (reading, count) ∧
      effect.withoutValues = reading.withoutValues
  kept : (Family.ofFlag effect.flag).Keeps effect.slots
  values : ∀ slot ∈ effect.slots, slot.HoldsValue

/-- Whether an effect is written with arguments, which its family takes and reads as another effect
with the same values. -/
structure ReadsBack (effect : Effect) (arguments : List Text) (again : Effect) : Prop where
  plain : ArePlain arguments
  written : effect.IsWritten (Flag.ofCanonical effect.flag) arguments
  read : (Family.ofFlag effect.flag).read (Flag.ofCanonical effect.flag) arguments =
    some (again, arguments.length)
  same : again.byValue = effect.byValue

/-! ## Effects -/

/-- An effect that has the form of a reading has the name and the slots of the reading, up to their
values. -/
theorem form_of_read {name label flag other : Text} {slots others : List Slot} {reading : Effect}
    {taken count : ℕ}
    (form : (⟨name, flag, slots⟩ : Effect).withoutValues = reading.withoutValues)
    (read : some ((⟨label, other, others⟩ : Effect), taken) = some (reading, count)) :
    name = label ∧ slots.map withoutValue = others.map withoutValue := by
  rcases Prod.mk.inj (Option.some.inj read) with ⟨rfl, -⟩
  simp only [withoutValues, Effect.mk.injEq] at form
  exact ⟨form.1, form.2.2⟩

section Families

variable {label flag : Text} {slots : List Slot}

theorem readsBack_slot {slot : Slot} {read : Text → Slot} {argument : Text}
    (back : slot.ReadsBack read argument)
    (renders : (⟨label, flag, [slot]⟩ : Effect).renderBody =
        (⟨label, flag, [slot]⟩ : Effect).renderValues)
    (reads : (Family.ofFlag flag).read (Flag.ofCanonical flag) [argument] =
      some (⟨label, flag, [read argument]⟩, 1)) :
    (⟨label, flag, [slot]⟩ : Effect).ReadsBack [argument]
      ⟨label, flag, [read argument]⟩ where
  plain := by simpa [ArePlain] using ⟨back.nonempty, back.isArgument⟩
  written := isWritten_slot renders back.written back.nonempty
  read := reads
  same := by simp only [byValue, List.map_cons, List.map_nil, back.same]

variable (values : ∀ slot ∈ slots, slot.HoldsValue)

include values

theorem exists_readsBack_of_word {word : Text} (read : Text → Slot)
    (form : slots.map withoutValue = [read word].map withoutValue)
    (textual : (read word).isNumber = false)
    (valued : ∀ value, (read word).withValue? value = some (read value))
    (holds : ∀ value, (read value).HoldsValue → value ≠ [] ∧ Token.isArgument value)
    (quoted : ∀ value, (read value).commandText = .ok (Literal.quote value))
    (renders : (⟨label, flag, slots⟩ : Effect).renderBody =
        (⟨label, flag, slots⟩ : Effect).renderValues)
    (reads : ∀ value, (Family.ofFlag flag).read (Flag.ofCanonical flag) [value] =
      some (⟨label, flag, [read value]⟩, 1)) :
    ∃ arguments again, (⟨label, flag, slots⟩ : Effect).ReadsBack arguments again := by
  rcases List.map_eq_singleton_iff.mp form with ⟨slot, rfl, same⟩
  rcases exists_withValue?_eq same textual with ⟨value, isSlot⟩
  obtain rfl := Option.some.inj ((valued value).symm.trans isSlot)
  rcases holds value (values _ (by simp)) with ⟨nonempty, isArgument⟩
  exact ⟨_, _, readsBack_slot ⟨nonempty, isArgument, quoted value, rfl⟩ renders
    (reads value)⟩

theorem exists_readsBack_of_amount {range : NumberRange} {isScoped : Bool} {argument : Text}
    (family : Family.ofFlag flag = .amount range isScoped)
    (form : slots.map withoutValue = [readAmount range argument].map withoutValue)
    (kept : (Family.amount range isScoped).Keeps slots) :
    ∃ arguments again, (⟨range.label, flag, slots⟩ : Effect).ReadsBack arguments again := by
  have isUnit : IsUnitText range.unit := by
    have wellFormed := isWellFormed_ofFlag flag
    rwa [family] at wellFormed
  rcases List.map_eq_singleton_iff.mp form with ⟨slot, rfl, same⟩
  rcases exists_readsBack_amount isUnit same kept (values slot (by simp)) with ⟨argument, back⟩
  refine ⟨_, _, readsBack_slot back ?_ ?_⟩
  · simp only [renderBody, family]
  · simp [family, Family.read]

theorem exists_readsBack_of_amounts {parts : List (NumberRange × Number)} {argument : Text}
    (family : Family.ofFlag flag = .amounts label parts)
    (form : slots.map withoutValue = (readAmounts parts argument).map withoutValue) :
    ∃ arguments again, (⟨label, flag, slots⟩ : Effect).ReadsBack arguments again := by
  rcases isWellFormed_amounts family with ⟨parts_ne, -, areParts⟩
  rw [readAmounts_eq] at form
  rcases exists_readsBack_amounts form values with
    ⟨numeric, numbers, length, finite, written, same⟩
  have read : (Family.ofFlag flag).read (Flag.ofCanonical flag) [partsText parts numbers] =
      some (⟨label, flag, List.zipWith partSlot parts (readValues numbers)⟩, 1) := by
    rw [← readAmounts_partsText areParts parts_ne length finite]
    simp [family, Family.read]
  refine ⟨_, _, ?_, isWritten_amounts family numeric written length finite, read, ?_⟩
  · simpa [ArePlain] using isArgument_partsText parts_ne length finite
  · simp only [byValue, same]

theorem exists_readsBack_of_method {methods : List Text} {isNumeric : Bool} {word : Text}
    {argument : Option Text} (family : Family.ofFlag flag = .method label methods isNumeric)
    (form : slots.map withoutValue =
      [.select "Method" word methods, readParameter isNumeric argument].map withoutValue)
    (kept : (Family.method label methods isNumeric).Keeps slots) :
    ∃ arguments again, (⟨label, flag, slots⟩ : Effect).ReadsBack arguments again := by
  rcases List.map_eq_cons_iff.mp form with ⟨method, _, rfl, methodForm, form⟩
  rcases List.map_eq_singleton_iff.mp form with ⟨parameter, rfl, parameterForm⟩
  have isNumber : isNumeric → parameter.isNumber := by
    rintro rfl
    exact kept
  rcases exists_withValue?_eq methodForm rfl with ⟨chosen, valued⟩
  obtain rfl := Option.some.inj valued
  rw [List.forall_mem_cons, List.forall_mem_singleton] at values
  rcases values with ⟨chosenHolds, parameterHolds⟩
  rcases exists_readsBack_parameter parameterForm isNumber parameterHolds with ⟨written, back⟩
  refine ⟨[chosen, written],
    ⟨label, flag, [.select "Method" chosen methods, readParameter isNumeric (some written)]⟩,
    ?_, isWritten_method family _ back.written, ?_, ?_⟩
  · simpa [ArePlain] using ⟨chosenHolds, back.nonempty, back.isArgument⟩
  · simp [family, Family.read]
  · simp only [byValue, List.map_cons, List.map_nil, back.same]

theorem exists_readsBack_of_morphology {word : Text} {argument : Option Text}
    (family : Family.ofFlag flag = .morphology)
    (form : slots.map withoutValue = (morphologySlots word argument).map withoutValue)
    (kept : Family.morphology.Keeps slots) :
    ∃ arguments again, (⟨"Morphology", flag, slots⟩ : Effect).ReadsBack arguments again := by
  rcases List.map_eq_cons_iff.mp form with ⟨method, _, rfl, methodForm, form⟩
  rcases List.map_eq_cons_iff.mp form with ⟨kernel, _, rfl, kernelForm, form⟩
  rcases List.map_eq_cons_iff.mp form with ⟨first, _, rfl, firstForm, form⟩
  rcases List.map_eq_singleton_iff.mp form with ⟨second, rfl, secondForm⟩
  rcases exists_withValue?_eq methodForm rfl with ⟨chosen, isMethod⟩
  rcases exists_withValue?_eq kernelForm rfl with ⟨kernel, isKernel⟩
  obtain rfl := Option.some.inj isMethod
  obtain rfl := Option.some.inj isKernel
  rcases exists_eq_number firstForm with ⟨first, rfl⟩
  rcases exists_eq_number secondForm with ⟨second, rfl⟩
  simp only [List.forall_mem_cons] at values
  rcases values with
    ⟨chosenHolds, -, ⟨width, isWidth, widthSmall⟩, ⟨height, isHeight, heightSmall⟩, -⟩
  rcases kept with ⟨known, notBelow⟩
  rcases exists_readsBack_kernel known isWidth isHeight ⟨widthSmall, heightSmall⟩ notBelow with
    ⟨written, firstRead, secondRead, nonempty, isArgument, text, read, firstSame, secondSame⟩
  refine ⟨[chosen, written], ⟨"Morphology", flag, morphologySlots chosen (some written)⟩, ?_,
    isWritten_morphology family _ text, ?_, ?_⟩
  · simpa [ArePlain] using ⟨chosenHolds, nonempty, isArgument⟩
  · simp [family, Family.read]
  · simp only [byValue, morphologySlots, read, List.map_cons, List.map_nil, Slot.byValue,
      firstSame, secondSame]
    rfl

end Families

/-- An edited effect is written with arguments that are read back. -/
theorem exists_readsBack {effect : Effect} (isEdited : effect.IsEdited) :
    ∃ arguments again, effect.ReadsBack arguments again := by
  rcases effect with ⟨name, flag, slots⟩
  rcases isEdited with ⟨⟨run, reading, count, read, form⟩, kept, values⟩
  dsimp only at read kept values
  rcases run with _ | ⟨argument, rest⟩
  · -- No family that keeps values reads a flag that misses its argument.
    generalize Family.ofFlag flag = family at read kept
    cases family <;> simp [Family.read, Keeps] at read kept
  cases family : Family.ofFlag flag with
  | toggle | channelReset | generic => simp [family, Keeps] at kept
  | amount range isScoped =>
      rw [family] at read kept
      rcases form_of_read form read with ⟨rfl, same⟩
      exact exists_readsBack_of_amount values family same kept
  | amounts label parts =>
      rw [family] at read
      rcases form_of_read form read with ⟨rfl, same⟩
      exact exists_readsBack_of_amounts values family same
  | morphology =>
      rw [family] at read kept
      rcases form_of_read form read with ⟨rfl, same⟩
      exact exists_readsBack_of_morphology values family same kept
  | method label methods isNumeric =>
      rw [family] at read kept
      rcases form_of_read form read with ⟨rfl, same⟩
      exact exists_readsBack_of_method values family same kept
  | choice label slot options =>
      rw [family] at read
      rcases form_of_read form read with ⟨rfl, same⟩
      refine exists_readsBack_of_word values (fun word => .select slot word options) same rfl
        (fun _ => rfl)
        (fun _ => id) (fun _ => rfl) ?_ fun value => ?_
      · simp only [renderBody, family]
      · simp [family, Family.read]
  | color label slot =>
      rw [family] at read
      rcases form_of_read form read with ⟨rfl, same⟩
      refine exists_readsBack_of_word values (.color slot) same rfl (fun _ => rfl) (fun _ => id)
        (fun _ => rfl) ?_ fun value => ?_
      · simp only [renderBody, family]
      · simp [family, Family.read]
  | freeText label slot =>
      rw [family] at read
      rcases form_of_read form read with ⟨rfl, same⟩
      refine exists_readsBack_of_word values (fun word => .text slot word false) same rfl
        (fun _ => rfl)
        (fun _ => id) (fun _ => rfl) ?_ fun value => ?_
      · simp only [renderBody, family]
      · simp [family, Family.read]

/-- An effect that is read back from its arguments is read back from a command. -/
theorem ReadsBack.exists_render {effect again : Effect} {arguments : List Text}
    (back : effect.ReadsBack arguments again) (isOn : effect.isOff = false)
    (writable : Flag.IsWritable (Flag.ofCanonical effect.flag)) :
    ∃ text, effect.render false = .ok text ∧ ofCommand text = [again] := by
  rcases back with ⟨plain, written, read, -⟩
  have renders := written.rendersAs isOn
  have canonical : Flag.canonical (Flag.ofCanonical effect.flag) = effect.flag :=
    Flag.canonical_ofCanonical _
  generalize Flag.ofCanonical effect.flag = flag at *
  refine ⟨_, render_eq renders false, ?_⟩
  rw [ofCommand, split_scopedWords writable plain]
  have isPlain : Operation.IsPlain ⟨flag, arguments⟩ :=
    ⟨isArgument_of_isFlag writable.isFlag, fun argument member => (plain argument member).2⟩
  have same : Operation.effect ⟨flag, arguments⟩ = again := by
    rw [Operation.effect, readRun, canonical, read]
    rfl
  cases isScoped : Operation.isScoped ⟨flag, arguments⟩ with
  | true =>
      -- The selection around the operation is read as part of it.
      have joins : Joins [selectAll, ⟨flag, arguments⟩, reset] :=
        ⟨rfl, rfl, ⟨writable.isFlag, isScoped, by rw [canonical, read, same]⟩, rfl⟩
      have words : Operation.scopedWords id false ⟨flag, arguments⟩ =
          [selectAll, ⟨flag, arguments⟩, reset].flatMap (words id) := by
        simp [scopedWords_of_isScoped isScoped, words, selectAll, reset]
      rw [words, ofTokens_of_joins joins (by simpa using ⟨isPlain, isSettled_reset.isPlain⟩),
        same, List.flatMap_nil, ofTokens]
  | false =>
      have words : Operation.scopedWords id false ⟨flag, arguments⟩ =
          [(⟨flag, arguments⟩ : Operation)].flatMap (words id) := by
        simp [scopedWords_of_unwrapped, isScoped]
      rw [words, ofTokens_of_not_joins writable.isFlag id (by simpa using isPlain), same,
        List.flatMap_nil, ofTokens]

theorem IsEdited.isOn {effect : Effect} (isEdited : effect.IsEdited) : effect.isOff = false := by
  have kept := isEdited.kept
  unfold Effect.isOff
  split
  · next family => simp [family, Keeps] at kept
  · rfl

theorem IsEdited.isWritable {effect : Effect} (isEdited : effect.IsEdited) :
    Flag.IsWritable (Flag.ofCanonical effect.flag) := by
  have kept := isEdited.kept
  rcases generic_or_mem_table effect.flag with generic | member
  · simp [generic, Keeps] at kept
  · exact isWritable_of_mem_table _ member

/-- An edited effect that is written and read again comes back as it is. -/
theorem ofCommand_render_of_isEdited {effect : Effect} (isEdited : effect.IsEdited) :
    ∃ text, effect.render false = .ok text ∧
      (ofCommand text).map byValue = [effect.byValue] := by
  rcases exists_readsBack isEdited with ⟨arguments, again, back⟩
  rcases back.exists_render isEdited.isOn isEdited.isWritable with ⟨text, rendered, read⟩
  exact ⟨text, rendered, by rw [read, List.map_singleton, back.same]⟩

/-- A morphology operation with a method and a width that an editor has put into it. -/
def widened : Effect :=
  ⟨"Morphology", "morphology",
    [.select "Method" "my method" Vocabulary.morphologyMethods,
      .select "Kernel" "Rectangle" Vocabulary.morphologyKernels,
      .number "Rad/W" 20 0 50 (tenths 5) [],
      .number "Sig/H" 0 0 50 (tenths 5) []]⟩

theorem ofCommand_render_widened :
    ∃ text, widened.render false = .ok text ∧
      (ofCommand text).map byValue = [widened.byValue] := by
  have family : Family.ofFlag widened.flag = .morphology := rfl
  have read : Family.morphology.read "-morphology" ["Dilate", "Rectangle"] =
      some (⟨"Morphology", "morphology", morphologySlots "Dilate" (some "Rectangle")⟩, 2) := rfl
  apply ofCommand_render_of_isEdited
  constructor
  · refine ⟨["Dilate", "Rectangle"],
      ⟨"Morphology", "morphology", morphologySlots "Dilate" (some "Rectangle")⟩, 2, ?_, rfl⟩
    rw [family]
    exact read
  · rw [family]
    exact ⟨by decide, by decide, by decide⟩
  · refine List.forall_mem_cons.mpr
      ⟨⟨by decide, by decide⟩,
      List.forall_mem_cons.mpr ⟨⟨by decide, by decide⟩, ?_⟩⟩
    exact List.forall_mem_cons.mpr
      ⟨⟨20, rfl, by norm_num⟩, List.forall_mem_singleton.mpr ⟨0, rfl, by norm_num⟩⟩

end Effect

end Retouch
