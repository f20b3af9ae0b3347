import Retouch.Effect.Parse
import Retouch.Effect.Render
import Retouch.Proofs.Command.Quoting
import Retouch.Proofs.Number.CommandText
import Retouch.Proofs.Text.Split

/-!
# Values that settle

A value is written in another form than it was read in: a number without needless digits, a kernel
with its sizes, numbers of a list between commas. The written form is an argument again, and reading
it writes the same form, so one pass of reading and writing settles a value.
-/

namespace Retouch

namespace Token

theorem isArgument_of_head {c : Char} {rest : Text}
    (plain : c ≠ '-' ∧ c ≠ '+' ∧ c ≠ '(' ∧ c ≠ ')') :
    isArgument (c :: rest) = true := by
  obtain ⟨noMinus, noPlus, noOpen, noClose⟩ := plain
  have noGroup : isGroup (c :: rest) = false := by
    simp [isGroup, groupOpen, groupClose, noOpen, noClose]
  have noFlag : isFlag (c :: rest) = false := by
    cases rest <;> simp [isFlag, noMinus, noPlus]
  simp [isArgument, noGroup, noFlag]

theorem isArgument_of_digit {c : Char} {rest : Text} (digit : Text.isAsciiDigit c) :
    isArgument (c :: rest) = true := by
  refine isArgument_of_head ⟨?_, ?_, ?_, ?_⟩ <;> rintro rfl <;> exact absurd digit (by decide)

theorem isArgument_of_minus_digit {c : Char} {rest : Text} (digit : Text.isAsciiDigit c) :
    isArgument ('-' :: c :: rest) = true := by
  have noGroup : isGroup ('-' :: c :: rest) = false := by simp [isGroup, groupOpen, groupClose]
  have noFlag : isFlag ('-' :: c :: rest) = false := by simp [isFlag, digit]
  simp [isArgument, noGroup, noFlag]

theorem isArgument_finiteText {number : Binary64} (finite : number.isFinite) (rest : Text) :
    isArgument (Number.finiteText number ++ rest) = true := by
  obtain ⟨c, digits, digit, positive | negative⟩ := Number.exists_cons_finiteText finite
  · rw [positive]
    exact isArgument_of_digit digit
  · rw [negative]
    exact isArgument_of_minus_digit digit

end Token

namespace Literal

/-- Whether a character is one of those that names, numbers and sizes are written with. -/
def isBasic (c : Char) : Bool :=
  c.isAlphanum || [',', '.', ':', '+', '-', '%'].contains c

/-- Whether a text is written with the characters of names, numbers and sizes only. -/
def isBasicText (text : Text) : Bool :=
  text.all isBasic

theorem isBasicText_append {front back : Text} :
    isBasicText (front ++ back) = (isBasicText front && isBasicText back) :=
  List.all_append

theorem isBasicText_cons {c : Char} {text : Text} :
    isBasicText (c :: text) = (isBasic c && isBasicText text) :=
  rfl

theorem isBasic_of_isNumberCharacter {c : Char} (isNumber : Decimal.IsNumberCharacter c) :
    isBasic c := by
  rcases isNumber with digit | rfl | rfl | rfl | rfl
  · simp only [Text.isAsciiDigit, Bool.and_eq_true, decide_eq_true_eq] at digit
    have isDigit : c.isDigit := by
      simp only [Char.isDigit, Bool.and_eq_true, decide_eq_true_eq]
      exact digit
    simp [isBasic, Char.isAlphanum, isDigit]
  all_goals decide

theorem isSpecial_of_isBasic {c : Char} (basic : isBasic c) : isSpecial c = false := by
  by_contra special
  simp only [isSpecial, Token.isSeparator, Token.isParenthesis, Token.isQuote, Bool.not_eq_false,
    Bool.or_eq_true, beq_iff_eq] at special
  rcases special with (((rfl | rfl) | rfl | rfl) | rfl | rfl) | rfl <;>
    exact absurd basic (by decide)

theorem any_isSpecial_of_isBasicText {text : Text} (basic : isBasicText text) :
    text.any isSpecial = false := by
  simpa using fun c member => isSpecial_of_isBasic (List.all_eq_true.mp basic c member)

theorem quote_of_isBasicText {text : Text} (basic : isBasicText text) : quote text = text :=
  quote_eq_self (any_isSpecial_of_isBasicText basic)

theorem isBare_of_isBasicText {text : Text} (basic : isBasicText text) : IsBare text :=
  isBare_of_any_isSpecial (any_isSpecial_of_isBasicText basic)

theorem notMem_of_isBasicText {text : Text} (basic : isBasicText text) {c : Char}
    (other : isBasic c = false) :
    c ∉ text := fun member => by
  simp [List.all_eq_true.mp basic c member] at other

theorem isBasicText_quantity {number : Binary64} (finite : number.isFinite) {unit : Text}
    (isUnit : unit = [] ∨ unit = ['%']) : isBasicText (Number.finiteText number ++ unit) := by
  have basicNumber : isBasicText (Number.finiteText number) := List.all_eq_true.mpr fun c member =>
    isBasic_of_isNumberCharacter (Number.isNumberCharacter_of_mem_finiteText finite member)
  rw [isBasicText_append, basicNumber]
  rcases isUnit with rfl | rfl <;> rfl

theorem quote_quantity {number : Binary64} (finite : number.isFinite) {unit : Text}
    (isUnit : unit = [] ∨ unit = ['%']) :
    quote (Number.finiteText number ++ unit) = Number.finiteText number ++ unit :=
  quote_of_isBasicText (isBasicText_quantity finite isUnit)

end Literal

/-- Whether a reading of one argument is written as a value that is read and written as it
stands. -/
structure Slot.Settles (read : Text → Slot) (argument settled : Text) : Prop where
  nonempty : settled ≠ []
  isArgument : Token.isArgument settled
  written : (read argument).commandText = .ok (Literal.quote settled)
  stable : (read settled).commandText = .ok (Literal.quote settled)

namespace Family

open Numeral Number

theorem commandText_number (label unit : Text) (value minimum maximum step : Number)
    (number : Binary64) (same : value.commandText = .ok (finiteText number)) :
    (Slot.number label value minimum maximum step unit).commandText =
      .ok (finiteText number ++ unit) := by
  rw [Slot.commandText, same]
  rfl

/-- The units of numbers. -/
def IsUnitText (unit : Text) : Prop :=
  unit = [] ∨ unit = ['%']

/-- Whether a number of a family has a unit: the one of the family, or any if the family has
none. -/
def HasUnit (range : NumberRange) (unit : Text) : Prop :=
  if range.unit.isEmpty then IsUnitText unit else unit = range.unit

/-- A quantity that was written is read as it is, a zero without its sign. -/
theorem readAmount_quantity {range : NumberRange} {number : Binary64} (finite : number.isFinite)
    {unit : Text} (hasUnit : HasUnit range unit) (isUnit : IsUnitText unit) :
    readAmount range (finiteText number ++ unit) =
      .number range.label (.float number.unsignedZero) range.minimum range.maximum
        range.step unit := by
  have kept : (if range.unit.isEmpty then unit else range.unit) = unit := by
    unfold HasUnit at hasUnit
    split
    · rfl
    · next given => rw [if_neg given] at hasUnit; exact hasUnit.symm
  simp only [readAmount, quantity?_finiteText finite isUnit, kept]

theorem readAmount_cases (range : NumberRange) (argument : Text) :
    readAmount range argument = .text range.label argument false ∨
      ∃ number unit, number.isFinite ∧ HasUnit range unit ∧
        readAmount range argument =
          .number range.label (.float number) range.minimum range.maximum range.step unit := by
  cases found : quantity? argument with
  | none => exact .inl (by simp only [readAmount, found])
  | some quantity =>
      rcases quantity with ⟨number, percent⟩
      rcases isFinite_of_quantity? found with ⟨finite, isPercent⟩
      refine .inr ⟨number, _, finite, ?_, by simp only [readAmount, found]; rfl⟩
      unfold HasUnit
      split
      · exact isPercent
      · rfl

theorem HasUnit.isUnitText {range : NumberRange} {unit : Text} (hasUnit : HasUnit range unit)
    (isUnit : IsUnitText range.unit) : IsUnitText unit := by
  unfold HasUnit at hasUnit
  split at hasUnit
  · exact hasUnit
  · rwa [hasUnit]

/-- A number with a unit, or a text, settles. -/
theorem exists_settles_readAmount (range : NumberRange) (isUnit : IsUnitText range.unit)
    {argument : Text} (nonempty : argument ≠ []) (isArgument : Token.isArgument argument) :
    ∃ settled, Slot.Settles (readAmount range) argument settled ∧
      (settled = argument ∨ Literal.isBasicText settled) := by
  rcases readAmount_cases range argument with read | ⟨number, unit, finite, hasUnit, read⟩
  · exact ⟨argument, ⟨nonempty, isArgument, by rw [read]; rfl, by rw [read]; rfl⟩,
      .inl rfl⟩
  · have isUnit' := hasUnit.isUnitText isUnit
    refine ⟨finiteText number ++ unit, ⟨?_, Token.isArgument_finiteText finite unit, ?_, ?_⟩,
      .inr (Literal.isBasicText_quantity finite isUnit')⟩
    · simp [finiteText_ne_nil finite]
    · rw [Literal.quote_quantity finite isUnit', read]
      exact commandText_number _ _ _ _ _ _ number (commandText_float number)
    · rw [Literal.quote_quantity finite isUnit', readAmount_quantity finite hasUnit isUnit']
      refine commandText_number _ _ _ _ _ _ number ?_
      rw [commandText_float, finiteText_unsignedZero]

/-- The range of a parameter that is a number. -/
def parameterRange : NumberRange :=
  ⟨"Val", 0, 10, tenths 1, []⟩

theorem readParameter_numeric (argument : Option Text) :
    readParameter true argument = readAmount parameterRange (argument.getD defaultParameter) := by
  simp only [readParameter, readAmount, if_true]
  cases quantity? (argument.getD defaultParameter) <;> rfl

/-- The parameter of a method settles. -/
theorem exists_settles_readParameter (isNumeric : Bool) {argument : Text}
    (nonempty : argument ≠ []) (isArgument : Token.isArgument argument) :
    ∃ settled, Slot.Settles (fun written => readParameter isNumeric (some written)) argument
      settled ∧ (settled = argument ∨ Literal.isBasicText settled) := by
  cases isNumeric with
  | false => exact ⟨argument, ⟨nonempty, isArgument, rfl, rfl⟩, .inl rfl⟩
  | true =>
      have same : (fun written => readParameter true (some written)) = readAmount parameterRange :=
        funext fun written => readParameter_numeric (some written)
      rw [same]
      exact exists_settles_readAmount parameterRange (.inl rfl) nonempty isArgument

theorem notMem_quantity {number : Binary64} (finite : number.isFinite) {unit : Text}
    (isUnit : IsUnitText unit) {c : Char} (separates : c = ',' ∨ c = 'x' ∨ c = ':') :
    c ∉ finiteText number ++ unit := by
  intro member
  rcases List.mem_append.mp member with inNumber | inUnit
  · have isNumber := isNumberCharacter_of_mem_finiteText finite inNumber
    rcases separates with rfl | rfl | rfl <;> revert isNumber <;>
      unfold Decimal.IsNumberCharacter <;> decide
  · rcases isUnit with rfl | rfl
    · simp at inUnit
    · obtain rfl := List.mem_singleton.mp inUnit
      revert separates
      decide

/-- Whether a number in a list is written with a unit and has a neutral value that can be
written. -/
def IsPart (part : NumberRange × Number) : Prop :=
  IsUnitText part.1.unit ∧ ∃ number : Binary64, number.isFinite ∧
    part.2.commandText = .ok (finiteText number)

/-- One number of a list in its written form. -/
def partText (part : NumberRange × Number) (number : Binary64) : Text :=
  finiteText number ++ part.1.unit

/-- The slot of one number, given the pieces between the separators and its position among them. -/
def readPart (pieces : List Text) (part : (NumberRange × Number) × Nat) : Slot :=
  let value := match (pieces[part.2]?).bind fun piece => quantity? (Text.trim piece) with
    | some (value, _) => .float value
    | none => part.1.2
  .number part.1.1.label value part.1.1.minimum part.1.1.maximum part.1.1.step part.1.1.unit

theorem readAmounts_eq (parts : List (NumberRange × Number)) (argument : Text) :
    readAmounts parts argument =
      parts.zipIdx.map
        (readPart (Text.splitOn ',' (argument.map fun c => if c = 'x' then ',' else c))) :=
  rfl

theorem exists_commandText_readPart {part : NumberRange × Number} (isPart : IsPart part)
    (pieces : List Text) (index : Nat) :
    ∃ number : Binary64, number.isFinite ∧
      (readPart pieces (part, index)).commandText = .ok (partText part number) := by
  obtain ⟨-, neutral, neutralFinite, neutralText⟩ := isPart
  cases found : (pieces[index]?).bind fun piece => quantity? (Text.trim piece) with
  | none =>
      refine ⟨neutral, neutralFinite, ?_⟩
      simp only [readPart, found]
      exact commandText_number _ _ _ _ _ _ neutral neutralText
  | some quantity =>
      obtain ⟨number, unit⟩ := quantity
      obtain ⟨piece, -, isQuantity⟩ := Option.bind_eq_some_iff.mp found
      refine ⟨number, (isFinite_of_quantity? isQuantity).1, ?_⟩
      simp only [readPart, found]
      exact commandText_number _ _ _ _ _ _ number (commandText_float number)

/-- Every list of numbers is written number by number. -/
theorem exists_mapM_readPart {parts : List (NumberRange × Number)}
    (areParts : ∀ part ∈ parts, IsPart part) (pieces : List Text) (start : Nat) :
    ∃ numbers : List Binary64, numbers.length = parts.length ∧
      (∀ number ∈ numbers, number.isFinite) ∧
      ((parts.zipIdx start).map (readPart pieces)).mapM Slot.commandText =
        .ok (List.zipWith partText parts numbers) := by
  induction parts generalizing start with
  | nil => exact ⟨[], rfl, by simp, rfl⟩
  | cons part parts ih =>
      obtain ⟨numbers, length, finite, written⟩ :=
        ih (fun other member => areParts other (List.mem_cons_of_mem _ member)) (start + 1)
      obtain ⟨number, numberFinite, numberText⟩ :=
        exists_commandText_readPart (areParts part (by simp)) pieces start
      refine ⟨number :: numbers, by simp [length], by simpa [numberFinite] using finite, ?_⟩
      rw [List.zipIdx_cons, List.map_cons, List.mapM_cons, numberText, written]
      rfl

theorem trim_partText {part : NumberRange × Number} (isPart : IsPart part) {number : Binary64}
    (finite : number.isFinite) : Text.trim (partText part number) = partText part number := by
  refine Text.trim_eq_self fun c member => ?_
  rcases List.mem_append.mp member with inNumber | inUnit
  · exact isBlank_of_isNumberCharacter (isNumberCharacter_of_mem_finiteText finite inNumber)
  · rcases isPart.1 with none | percent
    · simp [none] at inUnit
    · rw [percent, List.mem_singleton] at inUnit
      rw [inUnit]
      decide

/-- The slot of one number of a list, with its value. -/
def partSlot (part : NumberRange × Number) (value : Number) : Slot :=
  .number part.1.label value part.1.minimum part.1.maximum part.1.step part.1.unit

theorem mapM_partSlot {parts : List (NumberRange × Number)} {values : List Number}
    {numbers : List Binary64}
    (written : List.Forall₂ (fun value number => value.commandText = .ok (finiteText number))
        values numbers) :
    (List.zipWith partSlot parts values).mapM Slot.commandText =
      .ok (List.zipWith partText parts numbers) := by
  induction written generalizing parts with
  | nil => simp [pure, Except.pure]
  | @cons value number values numbers same _ ih =>
      cases parts with
      | nil => rfl
      | cons part parts =>
          have first : (partSlot part value).commandText = .ok (partText part number) :=
            commandText_number _ _ _ _ _ _ number same
          rw [List.zipWith_cons_cons, List.mapM_cons, first, ih]
          rfl

/-- The values that numbers have when they are read again. -/
def readValues (numbers : List Binary64) : List Number :=
  numbers.map fun number => .float number.unsignedZero

theorem map_readPart_written {parts : List (NumberRange × Number)} {numbers : List Binary64}
    (areParts : ∀ part ∈ parts, IsPart part) (length : numbers.length = parts.length)
    (finite : ∀ number ∈ numbers, number.isFinite) (front : List Text) :
    (parts.zipIdx front.length).map (readPart (front ++ List.zipWith partText parts numbers)) =
      List.zipWith partSlot parts (readValues numbers) := by
  induction parts generalizing numbers front with
  | nil => rfl
  | cons part parts ih =>
      cases numbers with
      | nil => simp at length
      | cons number numbers =>
          have isPart : IsPart part := areParts part (by simp)
          have numberFinite : number.isFinite := finite number (by simp)
          have others := ih (fun other member => areParts other (List.mem_cons_of_mem _ member))
            (by simpa using length)
              (fun other member => finite other (List.mem_cons_of_mem _ member))
            (front ++ [partText part number])
          rw [List.length_append, List.length_singleton, List.append_assoc, List.singleton_append]
            at others
          have first : readPart (front ++ List.zipWith partText (part :: parts) (number :: numbers))
              (part, front.length) = partSlot part (.float number.unsignedZero) := by
            simp only [readPart, List.zipWith_cons_cons,
              List.getElem?_append_right (Nat.le_refl _), Nat.sub_self, List.getElem?_cons_zero,
              Option.bind_some, trim_partText isPart numberFinite]
            simp only [partText, quantity?_finiteText numberFinite isPart.1]
            rfl
          rw [List.zipIdx_cons, List.map_cons, first, List.zipWith_cons_cons, others]
          rfl

/-- The numbers of a list, with commas between them. -/
def partsText (parts : List (NumberRange × Number)) (numbers : List Binary64) : Text :=
  Text.join "," (List.zipWith partText parts numbers)

theorem exists_of_mem_zipWith {parts : List (NumberRange × Number)} {numbers : List Binary64}
    (areParts : ∀ part ∈ parts, IsPart part) (finite : ∀ number ∈ numbers, number.isFinite)
    {text : Text} (member : text ∈ List.zipWith partText parts numbers) :
    ∃ part number, IsPart part ∧ number.isFinite ∧ text = partText part number := by
  rw [← List.map_uncurry_zip_eq_zipWith] at member
  obtain ⟨⟨part, number⟩, paired, rfl⟩ := List.mem_map.mp member
  exact ⟨part, number, areParts part (List.of_mem_zip paired).1,
    finite number (List.of_mem_zip paired).2, rfl⟩

/-- Numbers that were written are read as they are, a zero without its sign. -/
theorem readAmounts_partsText {parts : List (NumberRange × Number)} {numbers : List Binary64}
    (areParts : ∀ part ∈ parts, IsPart part) (parts_ne : parts ≠ [])
    (length : numbers.length = parts.length) (finite : ∀ number ∈ numbers, number.isFinite) :
    readAmounts parts (partsText parts numbers) =
      List.zipWith partSlot parts (readValues numbers) := by
  have plain (c : Char) (separates : c = ',' ∨ c = 'x' ∨ c = ':') :
      ∀ text ∈ List.zipWith partText parts numbers, c ∉ text := by
    intro text member
    obtain ⟨part, number, isPart, numberFinite, rfl⟩ :=
      exists_of_mem_zipWith areParts finite member
    exact notMem_quantity numberFinite isPart.1 separates
  have texts_ne : List.zipWith partText parts numbers ≠ [] := by
    cases parts <;> cases numbers <;> simp_all
  have unchanged : (partsText parts numbers).map (fun c => if c = 'x' then ',' else c) =
      partsText parts numbers := by
    refine (List.map_congr_left fun c member => ?_).trans (List.map_id _)
    rcases Text.mem_join member with comma | ⟨text, textMem, inside⟩
    · rw [List.mem_singleton.mp comma]
      rfl
    · have other : c ≠ 'x' := by
        rintro rfl
        exact plain 'x' (by simp) text textMem inside
      rw [if_neg other]
      rfl
  have pieces : Text.splitOn ',' (partsText parts numbers) = List.zipWith partText parts numbers :=
    Text.splitOn_join texts_ne (plain ',' (by simp))
  rw [readAmounts_eq, unchanged, pieces]
  exact map_readPart_written areParts length finite []

theorem mapM_readValues (parts : List (NumberRange × Number)) (numbers : List Binary64) :
    (List.zipWith partSlot parts (readValues numbers)).mapM Slot.commandText =
      .ok (List.zipWith partText parts numbers) := by
  refine mapM_partSlot ?_
  rw [readValues, List.forall₂_map_left_iff, List.forall₂_same]
  intro number _
  rw [commandText_float, finiteText_unsignedZero]

theorem exists_cons_zipWith {parts : List (NumberRange × Number)} {numbers : List Binary64}
    (parts_ne : parts ≠ []) (length : numbers.length = parts.length) :
    ∃ part number rest, number ∈ numbers ∧
      List.zipWith partText parts numbers = partText part number :: rest := by
  cases parts with
  | nil => exact absurd rfl parts_ne
  | cons part parts =>
      cases numbers with
      | nil => simp at length
      | cons number numbers => exact ⟨part, number, _, by simp, List.zipWith_cons_cons⟩

theorem isArgument_partsText {parts : List (NumberRange × Number)} {numbers : List Binary64}
    (parts_ne : parts ≠ []) (length : numbers.length = parts.length)
    (finite : ∀ number ∈ numbers, number.isFinite) :
    partsText parts numbers ≠ [] ∧ Token.isArgument (partsText parts numbers) := by
  obtain ⟨part, number, rest, member, texts⟩ := exists_cons_zipWith parts_ne length
  have numberFinite : number.isFinite := finite number member
  obtain ⟨following, text⟩ : ∃ following, partsText parts numbers =
      finiteText number ++ following := by
    rw [partsText, texts]
    cases rest with
    | nil => exact ⟨part.1.unit, rfl⟩
    | cons next rest =>
        exact ⟨part.1.unit ++ "," ++ Text.join "," (next :: rest),
          by simp [Text.join_cons_cons, partText]⟩
  rw [text]
  exact ⟨by simp [finiteText_ne_nil numberFinite],
    Token.isArgument_finiteText numberFinite following⟩

theorem isBasicText_partsText {parts : List (NumberRange × Number)} {numbers : List Binary64}
    (areParts : ∀ part ∈ parts, IsPart part)
    (finite : ∀ number ∈ numbers, number.isFinite) :
    Literal.isBasicText (partsText parts numbers) := by
  refine List.all_eq_true.mpr fun c member => ?_
  rcases Text.mem_join member with comma | ⟨text, textMem, inside⟩
  · rw [List.mem_singleton.mp comma]
    decide
  · obtain ⟨part, number, isPart, numberFinite, rfl⟩ :=
      exists_of_mem_zipWith areParts finite textMem
    exact List.all_eq_true.mp (Literal.isBasicText_quantity numberFinite isPart.1) c inside

/-- The written form of the kernel that an argument stands for. -/
def kernelForm (argument : Option Text) : Except RangeError Text :=
  Effect.kernelText (readKernel argument).1 (.float (readKernel argument).2.1)
    (.float (readKernel argument).2.2)

theorem isBasicText_of_mem_morphologyKernels {kernel : Text}
    (known : kernel ∈ Vocabulary.morphologyKernels) :
    Literal.isBasicText kernel := by
  have basic : ∀ kernel ∈ Vocabulary.morphologyKernels, Literal.isBasicText kernel := by
    decide +kernel
  exact basic kernel known

theorem morphologyKernels_plain {kernel : Text} (known : kernel ∈ Vocabulary.morphologyKernels) :
    ':' ∉ kernel ∧ ∀ rest, Token.isArgument (kernel ++ rest) = true := by
  have plain : ∀ kernel ∈ Vocabulary.morphologyKernels, ':' ∉ kernel ∧
      ∃ c rest, kernel = c :: rest ∧ c ≠ '-' ∧ c ≠ '+' ∧ c ≠ '(' ∧ c ≠ ')' := by
    simp [Vocabulary.morphologyKernels]
  obtain ⟨noColon, c, tail, rfl, start⟩ := plain kernel known
  exact ⟨noColon, fun rest => Token.isArgument_of_head start⟩

theorem ne_nil_of_mem_morphologyKernels {kernel : Text}
    (known : kernel ∈ Vocabulary.morphologyKernels) :
    kernel ≠ [] := by
  rintro rfl
  exact absurd ((morphologyKernels_plain known).2 ['-', 'x']) (by decide)

/-- Whether a kernel with two sizes is written as an argument, which is read as the kernel with
sizes that are written in the same way, and with the sizes themselves unless one of them is below
zero. -/
structure SettlesKernel (kernel : Text) (first second : Binary64) (settled : Text) : Prop where
  nonempty : settled ≠ []
  isArgument : Token.isArgument settled
  written : Effect.kernelText kernel (.float first) (.float second) = .ok settled
  stable : kernelForm (some settled) = .ok settled
  name : Text.before ':' settled ∈ Vocabulary.morphologyKernels
  basic : Literal.isBasicText settled
  read : first.isBelow 0 1 = false → second.isBelow 0 1 = false →
    readKernel (some settled) = (kernel, first.unsignedZero, second.unsignedZero)

variable {kernel : Text} (known : kernel ∈ Vocabulary.morphologyKernels)

include known

theorem readKernel_sized {suffix : Text} (suffix_ne : suffix ≠ []) :
    readKernel (some (kernel ++ ':' :: suffix)) = (kernel, readSizes suffix) := by
  have noColon := (morphologyKernels_plain known).1
  simp [readKernel, Text.before_append noColon, Text.after?_append noColon,
    ne_nil_of_mem_morphologyKernels known, known, suffix_ne]

theorem readKernel_unsized (unshaped : kernel ∉ Vocabulary.shapedKernels) :
    readKernel (some kernel) = (kernel, .zero false, .zero false) := by
  have noColon := (morphologyKernels_plain known).1
  simp [readKernel, Text.before_eq_self noColon, Text.after?_eq_none_iff.mpr noColon,
    ne_nil_of_mem_morphologyKernels known, known, unshaped]

/-- A known kernel with two sizes settles: the second size is written only if it is positive, and
none is written if the kernel needs none and none is positive. -/
theorem exists_settled_kernel {first second : Binary64} (firstFinite : first.isFinite)
    (secondFinite : second.isFinite) : ∃ settled, SettlesKernel kernel first second settled := by
  have isArgument := (morphologyKernels_plain known).2
  have kernel_ne := ne_nil_of_mem_morphologyKernels known
  have noX (number : Binary64) (finite : number.isFinite) : 'x' ∉ finiteText number := by
    simpa using notMem_quantity finite (Or.inl rfl) (c := 'x') (by simp)
  have noColon := (morphologyKernels_plain known).1
  have sized (suffix : Text) :
      Text.before ':' (kernel ++ ':' :: suffix) ∈ Vocabulary.morphologyKernels := by
    rwa [Text.before_append noColon]
  have basicName := isBasicText_of_mem_morphologyKernels known
  have basicSize (number : Binary64) (finite : number.isFinite) :
      Literal.isBasicText (finiteText number) := by
    simpa using Literal.isBasicText_quantity finite (.inl rfl)
  have basicColon : Literal.isBasic ':' := by decide
  have basicX : Literal.isBasic 'x' := by decide
  by_cases secondPositive : (Number.float second).isPositive
  · -- Both sizes are written.
    have form : Effect.kernelText kernel (.float first) (.float second) =
        .ok (kernel ++ ':' :: (finiteText first ++ 'x' :: finiteText second)) := by
      simp [Effect.kernelText, commandText_float, secondPositive, known, bind, Except.bind, pure,
        Except.pure]
    have sizes : readSizes (finiteText first ++ 'x' :: finiteText second) =
        (first.unsignedZero, second.unsignedZero) := by
      rw [readSizes, Text.splitOn_append (noX first firstFinite),
        Text.splitOn_eq_singleton (noX second secondFinite)]
      simp only [leadingValue_finiteText firstFinite, leadingValue_finiteText secondFinite]
    have read :
        readKernel (some (kernel ++ ':' :: (finiteText first ++ 'x' :: finiteText second))) =
        (kernel, first.unsignedZero, second.unsignedZero) := by
      rw [readKernel_sized known (by simp), sizes]
    refine ⟨_, by simp, isArgument _, form, ?_, sized _, ?_, fun _ _ => read⟩
    · rw [kernelForm, read, ← form]
      simp [Effect.kernelText, commandText_float]
    · simp [Literal.isBasicText_append, Literal.isBasicText_cons, basicName, basicSize,
        firstFinite, secondFinite, basicColon, basicX]
  · rw [Bool.not_eq_true] at secondPositive
    have secondZero : second.isBelow 0 1 = false → second.unsignedZero = .zero false :=
      Binary64.unsignedZero_of_not_isAbove secondFinite secondPositive
    by_cases isSized : (Number.float first).isPositive ∨ kernel ∈ Vocabulary.shapedKernels
    · -- Only the first size is written.
      have form (other : Binary64) (notPositive : (Number.float other).isPositive = false) :
          Effect.kernelText kernel (.float first) (.float other) =
            .ok (kernel ++ ':' :: finiteText first) := by
        rcases isSized with positive | shaped
        · simp [Effect.kernelText, commandText_float, notPositive, known, positive, bind,
            Except.bind, pure, Except.pure]
        · simp [Effect.kernelText, commandText_float, notPositive, known, shaped, bind,
            Except.bind, pure, Except.pure]
      have sizes : readSizes (finiteText first) = (first.unsignedZero, .zero false) := by
        rw [readSizes, Text.splitOn_eq_singleton (noX first firstFinite)]
        simp only [leadingValue_finiteText firstFinite]
      have read := readKernel_sized known (finiteText_ne_nil firstFinite)
      rw [sizes] at read
      refine ⟨_, by simp, isArgument _, form second secondPositive, ?_, sized _, ?_,
        fun _ notBelow => ?_⟩
      · rw [kernelForm, read, ← form (.zero false) (isPositive_zero false)]
        simp [Effect.kernelText, commandText_float]
      · simp [Literal.isBasicText_append, Literal.isBasicText_cons, basicName, basicSize,
          firstFinite, basicColon]
      · rw [read, secondZero notBelow]
    · -- No size is written.
      simp only [not_or, Bool.not_eq_true] at isSized
      have read := readKernel_unsized known isSized.2
      refine ⟨kernel, kernel_ne, by simpa using isArgument [], ?_, ?_,
        by rwa [Text.before_eq_self noColon], basicName, fun firstNotBelow notBelow => ?_⟩
      · simp [Effect.kernelText, isSized, secondPositive, pure, Except.pure]
      · rw [kernelForm, read]
        simp [Effect.kernelText, isSized, isPositive_zero, pure, Except.pure]
      · rw [read, secondZero notBelow,
          Binary64.unsignedZero_of_not_isAbove firstFinite isSized.1 firstNotBelow]

omit known

theorem isFinite_readSizes (suffix : Text) : (readSizes suffix).1.isFinite ∧
    (readSizes suffix).2.isFinite := by
  unfold readSizes
  split
  · exact ⟨isFinite_leadingValue _, isFinite_leadingValue _⟩
  · exact ⟨isFinite_leadingValue _, rfl⟩

theorem readKernel_cases (argument : Option Text) :
    ((readKernel argument).1 ∈ Vocabulary.morphologyKernels ∧
        (readKernel argument).2.1.isFinite ∧ (readKernel argument).2.2.isFinite) ∨
      ∃ written, argument = some written ∧ written ∉ Vocabulary.morphologyKernels ∧
        readKernel argument = (written, .zero false, .zero false) := by
  have one : (Binary64.ofInt 1).isFinite := by decide +kernel
  have zero : (Binary64.zero false).isFinite := rfl
  by_cases known : (if (Text.before ':' (argument.getD [])).isEmpty then defaultKernel
      else Text.before ':' (argument.getD [])) ∈ Vocabulary.morphologyKernels
  · left
    unfold readKernel
    dsimp only
    generalize (if (Text.before ':' (argument.getD [])).isEmpty then defaultKernel
      else Text.before ':' (argument.getD [])) = kernel at known ⊢
    rw [if_neg (by simpa using known)]
    split
    · exact ⟨known, isFinite_readSizes _⟩
    · split
      · exact ⟨known, one, zero⟩
      · exact ⟨known, zero, zero⟩
  · right
    cases argument with
    | none => exact absurd (by decide) known
    | some written =>
        refine ⟨written, rfl, fun isKernel => known ?_, ?_⟩
        · rw [Option.getD_some, Text.before_eq_self (morphologyKernels_plain isKernel).1,
            if_neg (by simpa using ne_nil_of_mem_morphologyKernels isKernel)]
          exact isKernel
        · unfold readKernel
          simp only [Option.getD_some] at known ⊢
          rw [if_pos (by simpa using known)]

/-- What an argument that stands for a kernel is written as: a known kernel with its sizes, or a
kernel of the user as it stands. -/
inductive KernelForm : Option Text → Text → Prop where
  | known {argument : Option Text} {settled : Text} (basic : Literal.isBasicText settled)
      (name : Text.before ':' settled ∈ Vocabulary.morphologyKernels)
      (read : (readKernel argument).1 ∈ Vocabulary.morphologyKernels) :
        KernelForm argument settled
  | own {written : Text} (unknown : written ∉ Vocabulary.morphologyKernels)
      (read : (readKernel (some written)).1 = written) : KernelForm (some written) written

/-- Every kernel settles. -/
theorem exists_kernelForm (argument : Option Text)
    (plain : ∀ written ∈ argument, written ≠ [] ∧ Token.isArgument written) :
    ∃ settled, Token.isArgument settled ∧ settled ≠ [] ∧
      kernelForm argument = .ok settled ∧
      kernelForm (some settled) = .ok settled ∧ KernelForm argument settled := by
  rcases readKernel_cases argument with
    ⟨known, firstFinite, secondFinite⟩ | ⟨written, rfl, unknown, read⟩
  · rcases exists_settled_kernel known firstFinite secondFinite with ⟨settled, settles⟩
    exact ⟨settled, settles.isArgument, settles.nonempty, settles.written, settles.stable,
      .known settles.basic settles.name known⟩
  · obtain ⟨written_ne, isArgument⟩ := plain written rfl
    have form : kernelForm (some written) = .ok written := by
      rw [kernelForm, read]
      simp [Effect.kernelText, unknown, pure, Except.pure]
    exact ⟨written, isArgument, written_ne, form, form, .own unknown (by rw [read])⟩

end Family

end Retouch
