import Retouch.Json.Parser
import Retouch.Json.Printer
import Retouch.Proofs.Number.Scanning
import Retouch.Proofs.Text.Lines

/-!
# Reading what was written

A value that is written on one line is read back as it was: the characters of its texts from escapes
of UTF-16 units, its integers from their digits, its items and fields up to the comma or the bracket
behind each. The line has visible characters of ASCII only. Floats are left out, and so are integers
that are too long to be read.
-/

namespace Retouch

namespace Json

/-- The values without floats, with integers that are short enough to be read, and with objects in
which no name comes twice. -/
inductive IsPlain : Json → Prop where
  | null : IsPlain .null
  | bool (value : Bool) : IsPlain (.bool value)
  | int {value : ℤ} (short : (Decimal.naturalText value.natAbs).length ≤
      IntegerError.digitLimit) :
      IsPlain (.int value)
  | string (value : Text) : IsPlain (.string value)
  | list {items : List Json} (plain : ∀ item ∈ items, IsPlain item) : IsPlain (.list items)
  | object {fields : List (Text × Json)} (distinct : (fields.map Prod.fst).Nodup)
      (plain : ∀ field ∈ fields, IsPlain field.2) : IsPlain (.object fields)

/-! ## Texts -/

theorem hexValue?_hexDigit {value : ℕ} (small : value < 16) :
    hexValue? (Text.hexDigit value) = some value := by
  have each : ∀ value : Fin 16, hexValue? (Text.hexDigit value) = some value.val := by decide
  exact each ⟨value, small⟩

/-- The four digits of an escape mean the unit that was escaped. -/
theorem exists_unitEscape {unit : ℕ} (small : unit < 0x10000) :
    ∃ a b c d, unitEscape unit = ['\\', 'u', a, b, c, d] ∧ unit? a b c d = some unit := by
  refine ⟨_, _, _, _, rfl, ?_⟩
  simp only [unit?, hexValue?_hexDigit (Nat.mod_lt _ (by decide : 0 < 16)), Option.bind_eq_bind,
    Option.bind_some, Option.pure_def, Option.some.injEq]
  simp only [Nat.pow_eq]
  omega

/-- The code point of a character, or its two UTF-16 units. -/
def unitsOf (c : Char) : List ℕ :=
  if c.toNat < 0x10000 then [c.toNat]
  else [0xD800 + (c.toNat - 0x10000) / 0x400, 0xDC00 + (c.toNat - 0x10000) % 0x400]

variable {opening : ℕ} {rest after : Text} {units : List ℕ}

theorem readUnits_unitEscape {unit : ℕ} (small : unit < 0x10000) (more : rest ≠ [])
    (reads : readUnits opening rest = .ok (units, after)) :
    readUnits opening (unitEscape unit ++ rest) = .ok (unit :: units, after) := by
  rcases exists_unitEscape small with ⟨a, b, c, d, escape, isUnit⟩
  cases rest with
  | nil => exact absurd rfl more
  | cons next rest =>
      rw [escape]
      simp only [List.cons_append, List.nil_append, readUnits, isUnit, reads]
      rfl

theorem readUnits_shortEscape {c char : Char} (notCode : c ≠ 'u')
    (isEscape : shortEscape? c = some char) (reads : readUnits opening rest = .ok (units, after)) :
    readUnits opening ('\\' :: c :: rest) = .ok (char.toNat :: units, after) := by
  rw [readUnits]
  · simp only [isEscape, reads]
    rfl
  · intro _ _ _ _ _ _ same
    exact absurd same notCode
  · exact notCode

theorem readUnits_visible {c : Char} (notSlash : c ≠ '\\') (notQuote : c ≠ '\x22')
    (visible : 0x20 ≤ c.toNat) (reads : readUnits opening rest = .ok (units, after)) :
    readUnits opening (c :: rest) = .ok (c.toNat :: units, after) := by
  rw [readUnits]
  · rw [if_neg notQuote, if_neg (Nat.not_lt.mpr visible), reads]
    rfl
  all_goals simp [notSlash]

/-- The ways in which a character is written: as a short escape, as itself, or as the escapes of its
units. -/
inductive IsEscapeOf (c : Char) : Text → Prop where
  | short {letter : Char} (isEscape : shortEscape? letter = some c) (notCode : letter ≠ 'u')
      (visible : Text.IsVisible letter) (isUnit : unitsOf c = [c.toNat]) :
        IsEscapeOf c ['\\', letter]
  | self (notSlash : c ≠ '\\') (notQuote : c ≠ '\x22') (visible : Text.IsVisible c)
      (isUnit : unitsOf c = [c.toNat]) :
      IsEscapeOf c [c]
  | units : IsEscapeOf c ((unitsOf c).flatMap unitEscape)

theorem isEscapeOf_escapeChar (c : Char) : IsEscapeOf c (escapeChar c) := by
  unfold escapeChar
  split_ifs with special feed carriage tab back form visible small
  · rcases special with rfl | rfl <;> exact .short rfl (by decide) (by decide) (by decide)
  · subst feed; exact .short rfl (by decide) (by decide) (by decide)
  · subst carriage; exact .short rfl (by decide) (by decide) (by decide)
  · subst tab; exact .short rfl (by decide) (by decide) (by decide)
  · subst back; exact .short rfl (by decide) (by decide) (by decide)
  · subst form; exact .short rfl (by decide) (by decide) (by decide)
  · rw [not_or] at special
    exact .self special.2 special.1 visible (if_pos (by omega))
  · have isUnit : unitEscape c.toNat = (unitsOf c).flatMap unitEscape := by simp [unitsOf, small]
    exact isUnit ▸ .units
  · have arePair : unitEscape (0xD800 + (c.toNat - 0x10000) / 0x400) ++
        unitEscape (0xDC00 + (c.toNat - 0x10000) % 0x400) = (unitsOf c).flatMap unitEscape := by
      simp [unitsOf, small]
    exact arePair ▸ .units

theorem readUnits_escapeChar (c : Char) (more : rest ≠ [])
    (reads : readUnits opening rest = .ok (units, after)) :
    readUnits opening (escapeChar c ++ rest) = .ok (unitsOf c ++ units, after) := by
  have isEscape := isEscapeOf_escapeChar c
  generalize escapeChar c = written at isEscape
  cases isEscape with
  | short isEscape notCode _ isUnit =>
      rw [isUnit]
      exact readUnits_shortEscape notCode isEscape reads
  | self notSlash notQuote visible isUnit =>
      rw [isUnit]
      exact readUnits_visible notSlash notQuote visible.1 reads
  | units =>
      unfold unitsOf
      split
      · next small => simpa using readUnits_unitEscape small more reads
      · next large =>
          have bound : c.toNat < 0x110000 := by
            rcases c.valid with below | above
            · exact Nat.lt_trans below (by decide)
            · exact above.2
          have second :
              readUnits opening (unitEscape (0xDC00 + (c.toNat - 0x10000) % 0x400) ++ rest) =
              .ok ((0xDC00 + (c.toNat - 0x10000) % 0x400) :: units, after) :=
            readUnits_unitEscape (by omega) more reads
          simpa using readUnits_unitEscape (by omega) (by simp [unitEscape]) second

theorem readUnits_text (text : Text) :
    readUnits opening (text.flatMap escapeChar ++ '\x22' :: rest) =
      .ok (text.flatMap unitsOf, rest) := by
  induction text with
  | nil =>
      rw [List.flatMap_nil, List.nil_append, readUnits]
      · rfl
      all_goals simp
  | cons c text ih =>
      rw [List.flatMap_cons, List.flatMap_cons, List.append_assoc]
      exact readUnits_escapeChar c (by simp) ih

/-- The units of a character are read as this character, whatever follows. -/
theorem charsOfUnits_unitsOf (c : Char) (units : List ℕ) :
    charsOfUnits (unitsOf c ++ units) = c :: charsOfUnits units := by
  have valid : c.toNat < 0xD800 ∨ 0xDFFF < c.toNat ∧ c.toNat < 0x110000 := c.valid
  unfold unitsOf
  split
  · have single : (isHighHalf c.toNat || isLowHalf c.toNat) = false := by
      simp only [isHighHalf, isLowHalf, Bool.or_eq_false_iff, Bool.and_eq_false_iff,
        decide_eq_false_iff_not]
      omega
    rcases Bool.or_eq_false_iff.mp single with ⟨notHigh, notLow⟩
    cases units with
    | nil => simp [charsOfUnits, notHigh, notLow]
    | cons next units => simp [charsOfUnits, notHigh, notLow]
  · next large =>
      have isPair : (isHighHalf (0xD800 + (c.toNat - 0x10000) / 0x400) &&
          isLowHalf (0xDC00 + (c.toNat - 0x10000) % 0x400)) = true := by
        simp only [isHighHalf, isLowHalf, Bool.and_eq_true, decide_eq_true_eq]
        omega
      have whole : 0x10000 + (0xD800 + (c.toNat - 0x10000) / 0x400 - 0xD800) * 0x400 +
          (0xDC00 + (c.toNat - 0x10000) % 0x400 - 0xDC00) = c.toNat := by
        omega
      rw [List.cons_append, List.cons_append, List.nil_append, charsOfUnits, if_pos isPair, whole,
        Char.ofNat_toNat]

theorem charsOfUnits_flatMap (text : Text) : charsOfUnits (text.flatMap unitsOf) = text := by
  induction text with
  | nil => rfl
  | cons c text ih => rw [List.flatMap_cons, charsOfUnits_unitsOf, ih]

theorem readText_escaped (text : Text) :
    readText opening (text.flatMap escapeChar ++ '\x22' :: rest) = .ok (text, rest) := by
  rw [readText, readUnits_text]
  simp only [Except.bind, bind, pure, Except.pure, charsOfUnits_flatMap]

/-! ## Integers -/

theorem head?_naturalText {value : ℕ} (positive : 0 < value) :
    (Decimal.naturalText value).head? ≠ some '0' := by
  induction value using Nat.strongRecOn with
  | _ value ih =>
      rw [Decimal.naturalText, Nat.toDigits_eq_if (by decide)]
      split
      · next small =>
          have each : ∀ value : Fin 10, 0 < value.val →
              [Nat.digitChar value.val].head? ≠ some '0' := by decide
          exact each ⟨value, small⟩ positive
      · next large =>
          rw [List.head?_append_of_ne_nil _ Nat.toDigits_ne_nil]
          exact ih (value / 10) (Nat.div_lt_self positive (by decide)) (by omega)

/-- What may stand behind a value. -/
def IsEnd (rest : Text) : Prop :=
  ∀ c ∈ rest.head?, c = ',' ∨ c = ']' ∨ c = '\x7d'

theorem IsEnd.eq_nil_or (isEnd : IsEnd rest) :
    rest = [] ∨ ∃ c more, rest = c :: more ∧ (c = ',' ∨ c = ']' ∨ c = '\x7d') := by
  cases rest with
  | nil => exact .inl rfl
  | cons c more => exact .inr ⟨c, more, rfl, isEnd c rfl⟩

theorem scanWhole_naturalText (value : ℕ) (isEnd : IsEnd rest) :
    scanWhole (Decimal.naturalText value ++ rest) = some (Decimal.naturalText value, rest) := by
  have areDigits : ∀ c ∈ Decimal.naturalText value, Text.isAsciiDigit c := fun c =>
    Decimal.isAsciiDigit_of_mem_naturalText
  have taken : rest.takeWhile Text.isAsciiDigit = [] ∧
      rest.dropWhile Text.isAsciiDigit = rest := by
    rcases isEnd.eq_nil_or with rfl | ⟨c, more, rfl, rfl | rfl | rfl⟩ <;> exact ⟨rfl, rfl⟩
  rcases Nat.eq_zero_or_pos value with rfl | positive
  · rfl
  · have notZero : ∀ more, Decimal.naturalText value ++ rest ≠ '0' :: more := by
      intro more same
      have head := congrArg List.head? same
      rw [List.head?_append_of_ne_nil _ (Decimal.naturalText_ne_nil value)] at head
      exact head?_naturalText positive head
    unfold scanWhole
    split
    · next more same => exact absurd same (notZero more)
    · rw [List.takeWhile_append_of_pos areDigits, List.dropWhile_append_of_pos areDigits,
        taken.1, taken.2, List.append_nil]
      simp [Decimal.naturalText_ne_nil]

theorem readNumber_integerText {value : ℤ}
    (short : (Decimal.naturalText value.natAbs).length ≤ IntegerError.digitLimit)
    (isEnd : IsEnd rest) :
    readNumber (Decimal.integerText value ++ rest) = .ok (.int value, rest) := by
  have noFraction : scanFraction? rest = none ∧ scanPower? rest = none := by
    rcases isEnd.eq_nil_or with rfl | ⟨c, more, rfl, rfl | rfl | rfl⟩ <;> exact ⟨rfl, rfl⟩
  have isWhole := scanWhole_naturalText value.natAbs isEnd
  unfold Decimal.integerText readNumber
  by_cases negative : value < 0
  · simp only [if_pos negative, List.cons_append, isWhole, noFraction, Option.map_none,
      Option.getD_none, Option.isNone_none, Bool.and_self, if_true, if_neg (Nat.not_lt.mpr short),
      Numeral.digitsValue_naturalText]
    rw [show -(value.natAbs : ℤ) = value by omega]
  · rw [if_neg negative]
    split
    next isNegative body parts =>
      have noSign : isNegative = false ∧ body = Decimal.naturalText value.natAbs ++ rest := by
        split at parts
        · next more begins =>
            rcases Decimal.exists_cons_naturalText value.natAbs with ⟨c, digits, isText, digit⟩
            rw [isText, List.cons_append] at begins
            rw [(List.cons.inj begins).1] at digit
            exact absurd digit (by decide)
        · exact ⟨(Prod.mk.inj parts).1.symm, (Prod.mk.inj parts).2.symm⟩
      rcases noSign with ⟨rfl, rfl⟩
      simp only [isWhole, noFraction, Option.map_none, Option.getD_none, Option.isNone_none,
        Bool.and_self, if_true, if_neg (Nat.not_lt.mpr short), Numeral.digitsValue_naturalText,
        Bool.false_eq_true, if_false]
      rw [show (value.natAbs : ℤ) = value by omega]

/-- An integer begins with a digit, or with a sign and a digit. -/
theorem exists_cons_integerText (value : ℤ) : ∃ c more, Text.isAsciiDigit c ∧
    (Decimal.integerText value = c :: more ∨ Decimal.integerText value = '-' :: c :: more) := by
  rcases Decimal.exists_cons_naturalText value.natAbs with ⟨c, more, isText, digit⟩
  unfold Decimal.integerText
  split
  · exact ⟨c, more, digit, .inr (by rw [isText])⟩
  · exact ⟨c, more, digit, .inl isText⟩

theorem readScalar_integerText {value : ℤ}
    (short : (Decimal.naturalText value.natAbs).length ≤ IntegerError.digitLimit)
    (isEnd : IsEnd rest) :
    readScalar (Decimal.integerText value ++ rest) = .ok (.int value, rest) := by
  have unnamed : ∀ entry ∈ namedValues,
      Text.afterStart? entry.1 (Decimal.integerText value ++ rest) = none := by
    have names : namedValues = [(['n', 'u', 'l', 'l'], .null), (['t', 'r', 'u', 'e'], .bool true),
      (['f', 'a', 'l', 's', 'e'], .bool false), (['N', 'a', 'N'], .number (.float .nan)),
      (['I', 'n', 'f', 'i', 'n', 'i', 't', 'y'], .number (.float (.infinite false))),
      (['-', 'I', 'n', 'f', 'i', 'n', 'i', 't', 'y'], .number (.float (.infinite true)))] := rfl
    rcases exists_cons_integerText value with ⟨c, more, digit, begins⟩
    have notLetter :
        c ≠ 'n' ∧ c ≠ 't' ∧ c ≠ 'f' ∧ c ≠ 'N' ∧ c ≠ 'I' ∧ c ≠ '-' := by
      refine ⟨?_, ?_, ?_, ?_, ?_, ?_⟩ <;> rintro rfl <;> exact absurd digit (by decide)
    rcases begins with begins | begins <;> simp [begins, names, Text.afterStart?, notLetter]
  rw [readScalar, List.findSome?_eq_none_iff.mpr ?noName]
  case noName =>
    rintro ⟨name, named⟩ member
    have absent : Text.afterStart? name (Decimal.integerText value ++ rest) = none :=
      unnamed _ member
    simp only [absent, Option.map_none]
  exact readNumber_integerText short isEnd

/-! ## Values -/

/-- What a value that is written may begin with. -/
theorem exists_cons_line {value : Json} (plain : value.IsPlain) :
    ∃ c more, line value = c :: more ∧ isSpace c = false ∧ c ≠ ']' ∧ c ≠ '\uFEFF' := by
  cases plain with
  | null => exact ⟨_, _, rfl, by decide, by decide, by decide⟩
  | bool value => cases value <;> exact ⟨_, _, rfl, by decide, by decide, by decide⟩
  | @int value short =>
      have begins {c : Char} (digit : Text.isAsciiDigit c) : isSpace c = false ∧ c ≠ ']' ∧
          c ≠ '\uFEFF' := by
        refine ⟨?_, ?_, ?_⟩
        · by_contra space
          simp only [isSpace, Bool.not_eq_false, Bool.or_eq_true, beq_iff_eq] at space
          rcases space with ((rfl | rfl) | rfl) | rfl <;> exact absurd digit (by decide)
        · rintro rfl; exact absurd digit (by decide)
        · rintro rfl; exact absurd digit (by decide)
      rcases exists_cons_integerText value with ⟨c, more, digit, isText | isText⟩
      · exact ⟨c, more, isText, begins digit⟩
      · exact ⟨'-', c :: more, isText, by decide, by decide, by decide⟩
  | string value => exact ⟨_, _, rfl, by decide, by decide, by decide⟩
  | list plain => exact ⟨_, _, rfl, by decide, by decide, by decide⟩
  | object distinct plain => exact ⟨_, _, rfl, by decide, by decide, by decide⟩

theorem skipSpace_cons {c : Char} {more : Text} (visible : isSpace c = false) :
    skipSpace (c :: more) = c :: more :=
  List.dropWhile_cons_of_neg (by simp [visible])

theorem skipSpace_space (text : Text) : skipSpace (' ' :: text) = skipSpace text :=
  List.dropWhile_cons_of_pos rfl

theorem skipSpace_line {value : Json} (plain : value.IsPlain) (rest : Text) :
    skipSpace (line value ++ rest) = line value ++ rest := by
  rcases exists_cons_line plain with ⟨c, more, begins, visible, -⟩
  rw [begins, List.cons_append, skipSpace_cons visible]

/-- Whether a value is read back, given twice as much budget as its line is long. -/
def IsReadBack (value : Json) : Prop :=
  ∀ {budget : ℕ} {rest : Text}, 2 * (line value).length ≤ budget → IsEnd rest →
    readValue budget (line value ++ rest) = .ok (value, rest)

theorem itemsLine_cons (item : Json) {items : List Json} (more : items ≠ []) (rest : Text) :
    itemsLine (item :: items) ++ rest = line item ++ ',' :: ' ' :: (itemsLine items ++ rest) := by
  cases items with
  | nil => exact absurd rfl more
  | cons next items =>
      rw [itemsLine, List.append_assoc, List.append_assoc]
      rfl

theorem fieldsLine_cons (name : Text) (value : Json) {fields : List (Text × Json)}
    (more : fields ≠ []) (rest : Text) : fieldsLine ((name, value) :: fields) ++ rest =
      quotedText name ++ ':' :: ' ' ::
        (line value ++ ',' :: ' ' :: (fieldsLine fields ++ rest)) := by
  cases fields with
  | nil => exact absurd rfl more
  | cons next fields =>
      rw [fieldsLine]
      simp only [List.append_assoc]
      rfl

theorem quotedText_append (text rest : Text) :
    quotedText text ++ rest = '\x22' :: (text.flatMap escapeChar ++ '\x22' :: rest) := by
  simp [quotedText]

theorem exists_cons_itemsLine {items : List Json} (nonempty : items ≠ [])
    (plain : ∀ item ∈ items, IsPlain item) :
    ∃ c more, itemsLine items = c :: more ∧ isSpace c = false ∧ c ≠ ']' := by
  cases items with
  | nil => exact absurd rfl nonempty
  | cons item items =>
      rcases exists_cons_line (plain item List.mem_cons_self) with
        ⟨c, more, begins, visible, notEnd, -⟩
      cases items with
      | nil => exact ⟨c, more, by rw [itemsLine, begins], visible, notEnd⟩
      | cons next items => exact ⟨c, _, by rw [itemsLine, begins]; rfl, visible, notEnd⟩

theorem exists_cons_fieldsLine {fields : List (Text × Json)} (nonempty : fields ≠ []) :
    ∃ more, fieldsLine fields = '\x22' :: more := by
  rcases fields with _ | ⟨⟨name, value⟩, _ | ⟨next, fields⟩⟩
  · exact absurd rfl nonempty
  · exact ⟨_, rfl⟩
  · exact ⟨_, rfl⟩

theorem skipSpace_itemsLine {items : List Json} (nonempty : items ≠ [])
    (plain : ∀ item ∈ items, IsPlain item)
    (rest : Text) : skipSpace (itemsLine items ++ rest) = itemsLine items ++ rest := by
  rcases exists_cons_itemsLine nonempty plain with ⟨c, more, begins, visible, -⟩
  rw [begins, List.cons_append, skipSpace_cons visible]

theorem skipSpace_fieldsLine {fields : List (Text × Json)} (nonempty : fields ≠ [])
    (rest : Text) :
    skipSpace (fieldsLine fields ++ rest) = fieldsLine fields ++ rest := by
  rcases exists_cons_fieldsLine nonempty with ⟨more, begins⟩
  rw [begins, List.cons_append, skipSpace_cons (by decide)]

/-- Items that are read back are read up to the bracket behind them. -/
theorem readItems_itemsLine {budget : ℕ} {items : List Json} (nonempty : items ≠ [])
    (plain : ∀ item ∈ items, IsPlain item) (reads : ∀ item ∈ items, item.IsReadBack)
    (enough : 2 * (itemsLine items).length + 1 ≤ budget) :
    readItems budget (itemsLine items ++ ']' :: rest) = .ok (items, rest) := by
  induction items generalizing budget with
  | nil => exact absurd rfl nonempty
  | cons item items ih =>
      cases budget with
      | zero => simp at enough
      | succ budget =>
      by_cases last : items = []
      · subst last
        rw [itemsLine] at enough ⊢
        rw [readItems, reads item (by simp) (by omega) (by simp [IsEnd])]
        rfl
      · have others : ∀ other ∈ items, IsPlain other := fun other member =>
          plain other (List.mem_cons_of_mem _ member)
        -- The comma and the space pay for the step, so the budget is enough for the items behind
        -- them.
        have length := congrArg List.length (itemsLine_cons item last [])
        simp only [List.length_append, List.length_cons, List.length_nil] at length
        have enoughLater : 2 * (itemsLine items).length + 1 ≤ budget := by omega
        have later :=
          ih last others (fun other member => reads other (List.mem_cons_of_mem _ member))
          enoughLater
        rw [itemsLine_cons item last, readItems, reads item (by simp) (by omega) (by simp [IsEnd])]
        simp only [Except.bind, bind, pure, Except.pure,
          skipSpace_cons (by decide : isSpace ',' = false), skipSpace_space,
          skipSpace_itemsLine last others, later]

/-- Fields whose values are read back are read up to the brace behind them. -/
theorem readFields_fieldsLine {budget : ℕ} {fields : List (Text × Json)}
    (nonempty : fields ≠ [])
    (plain : ∀ field ∈ fields, IsPlain field.2)
    (reads : ∀ field ∈ fields, field.2.IsReadBack)
    (enough : 2 * (fieldsLine fields).length + 1 ≤ budget) :
    readFields budget (fieldsLine fields ++ '\x7d' :: rest) = .ok (fields, rest) := by
  induction fields generalizing budget with
  | nil => exact absurd rfl nonempty
  | cons field fields ih =>
      rcases field with ⟨name, value⟩
      have readsValue : value.IsReadBack := reads (name, value) (by simp)
      have begins : ∀ rest, skipSpace (line value ++ rest) = line value ++ rest :=
        skipSpace_line (plain (name, value) (by simp))
      cases budget with
      | zero => simp at enough
      | succ budget =>
      by_cases last : fields = []
      · subst last
        have parts : fieldsLine [(name, value)] ++ '\x7d' :: rest =
            quotedText name ++ ':' :: ' ' :: (line value ++ '\x7d' :: rest) := by
          rw [fieldsLine, List.append_assoc, List.append_assoc]
          rfl
        have length := congrArg List.length parts
        simp only [List.length_append, List.length_cons] at length
        rw [parts, quotedText_append, readFields, readText_escaped]
        simp only [Except.bind, bind, pure, Except.pure,
          skipSpace_cons (by decide : isSpace ':' = false), skipSpace_space, begins]
        rw [readsValue (by omega) (by simp [IsEnd])]
        rfl
      · have length := congrArg List.length (fieldsLine_cons name value last [])
        simp only [List.length_append, List.length_cons, List.length_nil] at length
        have enoughLater : 2 * (fieldsLine fields).length + 1 ≤ budget := by omega
        have later := ih last (fun other member => plain other (List.mem_cons_of_mem _ member))
          (fun other member => reads other (List.mem_cons_of_mem _ member)) enoughLater
        rw [fieldsLine_cons name value last, quotedText_append, readFields, readText_escaped]
        simp only [Except.bind, bind, pure, Except.pure,
          skipSpace_cons (by decide : isSpace ':' = false), skipSpace_space, begins]
        rw [readsValue (by omega) (by simp [IsEnd])]
        simp only [skipSpace_cons (by decide : isSpace ',' = false), skipSpace_space,
          skipSpace_fieldsLine last, later]

theorem exists_budget {value : Json} (plain : value.IsPlain) {budget : ℕ}
    (enough : 2 * (line value).length ≤ budget) : ∃ smaller, budget = smaller + 1 := by
  rcases exists_cons_line plain with ⟨c, more, begins, -⟩
  rw [begins, List.length_cons] at enough
  exact Nat.exists_eq_succ_of_ne_zero (by omega)

theorem readValue_list {budget : ℕ} {items : List Json} (nonempty : items ≠ [])
    (plain : ∀ item ∈ items, IsPlain item)
    (reads : readItems budget (itemsLine items ++ ']' :: rest) = .ok (items, rest)) :
    readValue (budget + 1) (line (.list items) ++ rest) = .ok (.list items, rest) := by
  have whole : line (.list items) ++ rest = '[' :: (itemsLine items ++ ']' :: rest) := by
    simp [line]
  rw [whole, readValue, skipSpace_itemsLine nonempty plain]
  split
  · next after isEmpty =>
      rcases exists_cons_itemsLine nonempty plain with ⟨c, more, begins, -, notEnd⟩
      rw [begins, List.cons_append] at isEmpty
      exact absurd (List.cons.inj isEmpty).1 notEnd
  · rw [reads]
    rfl

theorem readValue_object {budget : ℕ} {fields : List (Text × Json)} (nonempty : fields ≠ [])
    (distinct : (fields.map Prod.fst).Nodup)
    (reads : readFields budget (fieldsLine fields ++ '\x7d' :: rest) = .ok (fields, rest)) :
    readValue (budget + 1) (line (.object fields) ++ rest) = .ok (.object fields, rest) := by
  have whole : line (.object fields) ++ rest = '\x7b' :: (fieldsLine fields ++ '\x7d' :: rest) := by
    simp [line]
  rw [whole, readValue, skipSpace_fieldsLine nonempty]
  split
  · next after isEmpty =>
      rcases exists_cons_fieldsLine nonempty with ⟨more, begins⟩
      rw [begins, List.cons_append] at isEmpty
      exact absurd (List.cons.inj isEmpty).1 (by decide)
  · rw [reads]
    simp only [Except.bind, bind, pure, Except.pure, Record.ofPairs_eq_self distinct]

/-- A plain value is read back from its line. -/
theorem IsPlain.isReadBack {value : Json} (plain : value.IsPlain) : value.IsReadBack := by
  intro budget rest enough isEnd
  rcases exists_budget plain enough with ⟨budget, rfl⟩
  induction plain generalizing budget rest with
  | null => rfl
  | bool value => cases value <;> rfl
  | @int value short =>
      change readValue (budget + 1) (Decimal.integerText value ++ rest) = _
      rcases exists_cons_integerText value with ⟨c, more, digit, begins⟩
      have other : c ≠ '\x22' ∧ c ≠ '[' ∧ c ≠ '\x7b' := by
        refine ⟨?_, ?_, ?_⟩ <;> rintro rfl <;> exact absurd digit (by decide)
      rw [readValue, readScalar_integerText short isEnd]
      all_goals rcases begins with begins | begins <;> simp [begins, other]
  | string value =>
      rw [line, quotedText_append, readValue, readText_escaped]
      rfl
  | @list items plain ih =>
      by_cases empty : items = []
      · subst empty
        rfl
      · have length : (line (.list items)).length = (itemsLine items).length + 2 := by simp [line]
        -- The hypothesis is about budgets above zero, and every budget that is enough is one.
        have reads : ∀ item ∈ items, item.IsReadBack := by
          intro item member budget rest enough isEnd
          rcases exists_budget (plain item member) enough with ⟨budget, rfl⟩
          exact ih item member isEnd budget enough
        exact readValue_list empty plain (readItems_itemsLine empty plain reads (by omega))
  | @object fields distinct plain ih =>
      by_cases empty : fields = []
      · subst empty
        rfl
      · have length : (line (.object fields)).length = (fieldsLine fields).length + 2 := by
          simp [line]
        have reads : ∀ field ∈ fields, field.2.IsReadBack := by
          intro field member budget rest enough isEnd
          rcases exists_budget (plain field member) enough with ⟨budget, rfl⟩
          exact ih field member isEnd budget enough
        exact readValue_object empty distinct (readFields_fieldsLine empty plain reads (by omega))

/-- A plain value is what its line means. -/
theorem read_line {value : Json} (plain : value.IsPlain) : read (line value) = .ok value := by
  rcases exists_cons_line plain with ⟨c, more, begins, -, -, notMark⟩
  have begun := skipSpace_line plain []
  have isEnd : IsEnd [] := by simp [IsEnd]
  have reads := plain.isReadBack (Nat.le_succ _) isEnd
  rw [List.append_nil] at begun reads
  have whole : readAll (line value) = .ok value := by
    unfold readAll
    split
    · next isMark =>
        rw [begins] at isMark
        exact absurd (List.cons.inj isMark).1 notMark
    · rw [begun, reads]
      rfl
  rw [read, whole]

/-! ## Characters -/

theorem isVisible_hexDigit {value : ℕ} (small : value < 16) :
    Text.IsVisible (Text.hexDigit value) := by
  have each : ∀ value : Fin 16, Text.IsVisible (Text.hexDigit value) := by decide
  exact each ⟨value, small⟩

theorem isVisible_unitEscape {unit : ℕ} {c : Char} (member : c ∈ unitEscape unit) :
    Text.IsVisible c := by
  rcases List.mem_cons.mp member with rfl | member
  · decide
  rcases List.mem_cons.mp member with rfl | member
  · decide
  simp only [Text.hexDigits, List.mem_reverse, List.mem_map] at member
  rcases member with ⟨place, -, rfl⟩
  exact isVisible_hexDigit (Nat.mod_lt _ (by decide))

theorem isVisible_escapeChar {c d : Char} (member : d ∈ escapeChar c) : Text.IsVisible d := by
  have isEscape := isEscapeOf_escapeChar c
  generalize escapeChar c = written at isEscape member
  cases isEscape with
  | short _ _ visible _ =>
      simp only [List.mem_cons, List.not_mem_nil, or_false] at member
      rcases member with rfl | rfl
      · decide
      · exact visible
  | self _ _ visible _ => rwa [List.mem_singleton.mp member]
  | units =>
      rcases List.mem_flatMap.mp member with ⟨unit, -, inEscape⟩
      exact isVisible_unitEscape inEscape

theorem isVisible_quotedText {text : Text} {c : Char} (member : c ∈ quotedText text) :
    Text.IsVisible c := by
  simp only [quotedText, List.cons_append, List.mem_cons, List.mem_append, List.mem_flatMap,
    List.not_mem_nil, or_false] at member
  rcases member with rfl | ⟨d, -, inEscape⟩ | rfl
  · decide
  · exact isVisible_escapeChar inEscape
  · decide

theorem isVisible_itemsLine {items : List Json}
    (visible : ∀ item ∈ items, ∀ c ∈ line item, Text.IsVisible c) :
    ∀ c ∈ itemsLine items, Text.IsVisible c := by
  induction items with
  | nil => exact List.forall_mem_nil _
  | cons item items ih =>
      rcases List.forall_mem_cons.mp visible with ⟨here, later⟩
      by_cases last : items = []
      · rw [last, itemsLine]
        exact here
      · have parts := itemsLine_cons item last []
        rw [List.append_nil, List.append_nil] at parts
        rw [parts]
        exact List.forall_mem_append.mpr ⟨here,
          List.forall_mem_cons.mpr
            ⟨by decide, List.forall_mem_cons.mpr ⟨by decide, ih later⟩⟩⟩

theorem isVisible_fieldsLine {fields : List (Text × Json)}
    (visible : ∀ field ∈ fields, ∀ c ∈ line field.2, Text.IsVisible c) :
    ∀ c ∈ fieldsLine fields, Text.IsVisible c := by
  induction fields with
  | nil => exact List.forall_mem_nil _
  | cons field fields ih =>
      rcases field with ⟨name, value⟩
      rcases List.forall_mem_cons.mp visible with ⟨here, later⟩
      have start : ∀ rest : Text, (∀ c ∈ rest, Text.IsVisible c) →
          ∀ c ∈ quotedText name ++ ':' :: ' ' :: (line value ++ rest), Text.IsVisible c := by
        intro rest visibleRest
        refine List.forall_mem_append.mpr ⟨fun c => isVisible_quotedText, ?_⟩
        refine List.forall_mem_cons.mpr
          ⟨by decide, List.forall_mem_cons.mpr ⟨by decide, ?_⟩⟩
        exact List.forall_mem_append.mpr ⟨here, visibleRest⟩
      by_cases last : fields = []
      · have parts : fieldsLine [(name, value)] =
            quotedText name ++ ':' :: ' ' :: (line value ++ []) := by
          rw [fieldsLine, List.append_assoc, List.append_nil]
          rfl
        rw [last, parts]
        exact start [] (List.forall_mem_nil _)
      · have parts := fieldsLine_cons name value last []
        rw [List.append_nil, List.append_nil] at parts
        rw [parts]
        exact start _
          (List.forall_mem_cons.mpr
          ⟨by decide, List.forall_mem_cons.mpr ⟨by decide, ih later⟩⟩)

theorem IsPlain.isVisible_line {value : Json} (plain : value.IsPlain) :
    ∀ c ∈ line value, Text.IsVisible c := by
  induction plain with
  | null => decide
  | bool value => cases value <;> decide
  | @int value _ =>
      have digits : ∀ c ∈ Decimal.naturalText value.natAbs, Text.IsVisible c := by
        intro c member
        have digit := Decimal.isAsciiDigit_of_mem_naturalText member
        simp only [Text.isAsciiDigit, Bool.and_eq_true, decide_eq_true_eq] at digit
        exact ⟨Nat.le_trans (by decide) digit.1, Nat.le_trans digit.2 (by decide)⟩
      change ∀ c ∈ Decimal.integerText value, Text.IsVisible c
      unfold Decimal.integerText
      split
      · exact List.forall_mem_cons.mpr ⟨by decide, digits⟩
      · exact digits
  | string value => exact fun c => isVisible_quotedText
  | list _ ih =>
      rw [line]
      exact List.forall_mem_cons.mpr
        ⟨by decide, List.forall_mem_append.mpr ⟨isVisible_itemsLine ih, by decide⟩⟩
  | object _ _ ih =>
      rw [line]
      exact List.forall_mem_cons.mpr
        ⟨by decide, List.forall_mem_append.mpr ⟨isVisible_fieldsLine ih, by decide⟩⟩

end Json

end Retouch
