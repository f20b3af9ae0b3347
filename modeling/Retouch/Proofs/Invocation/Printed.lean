import Retouch.Invocation
import Retouch.Proofs.Command.Reading
import Retouch.Proofs.Number.Scanning

/-!
# Printed invocations

An invocation is printed as one line: an argument with a separator in it stands between double
quotes, every other one stands as it is, and nothing is escaped. The line is read back as the
invocation exactly if this is enough for each argument by itself. That arguments do not make up for
each other is seen by counting separators: a line has just as many as its arguments have in them and
between them, so a reader that finds all the arguments again has cut the line where it was joined.
-/

namespace Retouch

namespace Invocation

/-- Whether an argument is read as itself from a line that shows it: nothing in it is escaped, and a
single quote has no meaning only between double quotes. -/
structure IsLegible (argument : Text) : Prop where
  noBackslash : '\\' ∉ argument
  noDoubleQuote : '\x22' ∉ argument
  singleQuote : '\x27' ∈ argument → argument.any Token.isSeparator

instance (argument : Text) : Decidable (IsLegible argument) :=
  decidable_of_iff
    ('\\' ∉ argument ∧ '\x22' ∉ argument ∧
      ('\x27' ∈ argument → argument.any Token.isSeparator))
    ⟨fun all => ⟨all.1, all.2.1, all.2.2⟩, fun legible =>
      ⟨legible.noBackslash, legible.noDoubleQuote, legible.singleQuote⟩⟩

end Invocation

namespace Literal

open Invocation (IsLegible shownArgument commandLine)

/-! ## One argument -/

/-- Between double quotes, text without double quotes and backslashes is read as itself. -/
theorem reads_doubleQuoted {value : Text} (noBackslash : '\\' ∉ value)
    (noDoubleQuote : '\x22' ∉ value) :
    Reads ('\x22' :: value ++ ['\x22']) value := by
  intro current rest
  have inside (current : Text) :
      splitFrom ⟨current, some '\x22', false⟩ (value ++ '\x22' :: rest) =
      splitFrom ⟨value.reverse ++ current, none, false⟩ rest := by
    induction value generalizing current with
    | nil => rfl
    | cons c value ih =>
        simp only [List.mem_cons, not_or] at noBackslash noDoubleQuote
        rw [List.cons_append, splitFrom_within (Ne.symm noBackslash.1) (Ne.symm noDoubleQuote.1),
          ih noBackslash.2 noDoubleQuote.2]
        simp
  rw [List.append_assoc, List.cons_append, List.singleton_append]
  exact inside current

/-- Where nothing is open, a reader loses the first mark that it meets. -/
theorem length_flatten_splitFrom_lt (current : Text) {text : Text}
    (marked : ∃ c ∈ text, isMark c) :
    (splitFrom ⟨current, none, false⟩ text).flatten.length < current.length + text.length := by
  induction text generalizing current with
  | nil => simp at marked
  | cons c rest ih =>
      have atMost {state : State} (isQuoted : state.IsQuoted) :
          (splitFrom state rest).flatten.length ≤ state.current.length + rest.length := by
        simpa using (flatten_splitFrom_sublist isQuoted rest).length_le
      rw [List.length_cons]
      cases mark : isMark c with
      | true =>
          -- The mark is passed over, and what follows does not grow.
          have lost : (step ⟨current, none, false⟩ c).2 = [] ∧
              (step ⟨current, none, false⟩ c).1.current = current := by
            simp only [isMark, Token.isQuote, Bool.or_eq_true, beq_iff_eq] at mark
            rcases mark with (rfl | rfl) | rfl <;> exact ⟨rfl, rfl⟩
          have later := atMost (step_cases (isQuoted_outside current false) c).1
          rw [lost.2] at later
          rw [splitFrom, lost.1, List.nil_append]
          omega
      | false =>
          cases separates : Token.isSeparator c with
          | true =>
              have ended : step ⟨current, none, false⟩ c =
                  ({}, State.flush ⟨current, none, false⟩) :=
                step_of_ends (by simp [State.isNeutral, separates])
              have later := atMost isQuoted_start
              rw [splitFrom, ended, List.flatten_append, flatten_flush, List.length_append,
                List.length_reverse]
              simp only [List.length_nil] at later ⊢
              omega
          | false =>
              simp only [isMark, Bool.or_eq_false_iff, beq_eq_false_iff_ne] at mark
              have markedLater : ∃ d ∈ rest, isMark d := by
                rcases marked with ⟨d, member, isMarked⟩
                rcases List.mem_cons.mp member with rfl | inRest
                · simp [isMark, mark] at isMarked
                · exact ⟨d, inRest, isMarked⟩
              have later := ih (c :: current) markedLater
              rw [splitFrom_bare mark.2 mark.1 separates]
              simp only [List.length_cons] at later
              omega

/-- What is read as itself between double quotes has no double quote and no backslash. -/
theorem notMem_of_splitFrom_doubleQuoted {current value : Text}
    (same : splitFrom ⟨current, some '\x22', false⟩ (value ++ ['\x22']) =
        [current.reverse ++ value]) :
    '\\' ∉ value ∧ '\x22' ∉ value := by
  induction value generalizing current with
  | nil => simp
  | cons c value ih =>
      have flat : (splitFrom ⟨current, some '\x22', false⟩ (c :: value ++ ['\x22'])).flatten =
          current.reverse ++ c :: value := by
        rw [same, List.flatten_singleton]
      by_cases backslash : c = '\\'
      · -- The backslash is passed over, so one is missing.
        subst backslash
        have kept : (splitFrom ⟨current, some '\x22', true⟩ (value ++ ['\x22'])).flatten.Sublist
            (current.reverse ++ (value ++ ['\x22'])) :=
          flatten_splitFrom_sublist (isQuoted_within (by decide) _ _) _
        have escapes : splitFrom ⟨current, some '\x22', false⟩ ('\\' :: value ++ ['\x22']) =
            splitFrom ⟨current, some '\x22', true⟩ (value ++ ['\x22']) := rfl
        rw [← escapes, flat] at kept
        have fewer := kept.count_le '\\'
        simp only [List.count_append, List.count_cons_self, List.count_singleton] at fewer
        simp at fewer
      · by_cases doubleQuote : c = '\x22'
        · -- The double quote closes, and the one behind the value opens: both are missing.
          subst doubleQuote
          have closes : splitFrom ⟨current, some '\x22', false⟩ ('\x22' :: value ++ ['\x22']) =
              splitFrom ⟨current, none, false⟩ (value ++ ['\x22']) := rfl
          have marked : ∃ d ∈ value ++ ['\x22'], isMark d := ⟨'\x22', by simp, by decide⟩
          have shorter := length_flatten_splitFrom_lt current marked
          rw [← closes, flat] at shorter
          simp at shorter
        · rw [List.cons_append, splitFrom_within backslash doubleQuote] at same
          have later : '\\' ∉ value ∧ '\x22' ∉ value := by
            refine ih (same.trans ?_)
            rw [List.reverse_cons, List.append_assoc, List.singleton_append]
          simp [later, Ne.symm backslash, Ne.symm doubleQuote]

theorem reads_shownArgument {argument : Text} (legible : IsLegible argument) :
    Reads (shownArgument argument) argument := by
  unfold shownArgument
  split
  · exact reads_doubleQuoted legible.noBackslash legible.noDoubleQuote
  · next whole =>
      refine IsBare.reads fun c member =>
        ⟨fun same => legible.noBackslash (same ▸ member), ?_, ?_⟩
      · by_contra isQuote
        simp only [Token.isQuote, Bool.not_eq_false, Bool.or_eq_true, beq_iff_eq] at isQuote
        rcases isQuote with rfl | rfl
        · exact whole (legible.singleQuote member)
        · exact legible.noDoubleQuote member
      · by_contra separates
        exact whole (List.any_eq_true.mpr ⟨c, member, by simpa using separates⟩)

/-- An argument is read from the line that shows it alone exactly if it is there and legible. -/
theorem split_shownArgument_eq_iff {argument : Text} :
    split (shownArgument argument) = [argument] ↔ argument ≠ [] ∧ IsLegible argument := by
  constructor
  · intro same
    have nonempty : argument ≠ [] :=
      ne_nil_of_mem_splitFrom (same ▸ List.mem_singleton_self argument)
    refine ⟨nonempty, ?_⟩
    unfold shownArgument at same
    split at same
    · next separated =>
        have inside : splitFrom ⟨[], some '\x22', false⟩ (argument ++ ['\x22']) =
            [[].reverse ++ argument] := same
        rcases notMem_of_splitFrom_doubleQuoted inside with ⟨noBackslash, noDoubleQuote⟩
        exact ⟨noBackslash, noDoubleQuote, fun _ => separated⟩
    · have noMark : ∀ c ∈ argument, isMark c = false := by
        by_contra! marked
        have shorter := length_flatten_splitFrom_lt [] (by simpa using marked)
        have flat : (splitFrom ⟨[], none, false⟩ argument).flatten = argument := by
          rw [show splitFrom ⟨[], none, false⟩ argument =
            [argument] from same, List.flatten_singleton]
        simp [flat] at shorter
      have absent {c : Char} (mark : isMark c) : c ∉ argument := fun member => by
        simp [noMark c member] at mark
      exact ⟨absent (by decide), absent (by decide),
        fun member => absurd member (absent (by decide))⟩
  · rintro ⟨nonempty, legible⟩
    have read := reads_shownArgument legible [] []
    rw [List.append_nil, List.append_nil] at read
    rw [split, read]
    simp [splitFrom, State.flush, nonempty]

/-! ## A line of arguments -/

/-- How many separators the arguments of a line have, with one counted behind each argument. -/
def breadth (arguments : List Text) : Nat :=
  (arguments.map fun argument => argument.countP Token.isSeparator + 1).sum

theorem breadth_cons (argument : Text) (rest : List Text) :
    breadth (argument :: rest) = argument.countP Token.isSeparator + 1 + breadth rest := by
  simp [breadth]

theorem breadth_append (front back : List Text) :
    breadth (front ++ back) = breadth front + breadth back := by
  simp [breadth]

/-- A text has a separator for each argument that is read from it but the last, besides those in the
arguments. -/
theorem breadth_splitFrom_le {state : State} (isQuoted : state.IsQuoted) (text : Text) :
    breadth (splitFrom state text) ≤
      state.current.countP Token.isSeparator + text.countP Token.isSeparator + 1 := by
  have flushed (state : State) : breadth state.flush ≤
      state.current.countP Token.isSeparator + 1 := by
    unfold State.flush
    split
    · simp [breadth]
    · simp [breadth, List.countP_reverse]
  induction text generalizing state with
  | nil => exact flushed state
  | cons c rest ih =>
      rcases step_cases isQuoted c with
        ⟨isQuotedNext,
          ⟨nothing, current⟩ | ⟨nothing, current, -⟩ | ⟨ended, current,
          separates⟩⟩ <;>
        have later := ih isQuotedNext <;> rw [current] at later <;> rw [splitFrom, breadth_append]
      · rw [nothing]
        simp only [breadth, List.map_nil, List.sum_nil, List.countP_cons] at later ⊢
        omega
      · rw [nothing]
        simp only [breadth, List.map_nil, List.sum_nil, List.countP_cons] at later ⊢
        omega
      · have before := flushed state
        rw [ended]
        simp only [List.countP_nil, List.countP_cons, separates, if_true] at later ⊢
        omega

theorem breadth_split_le (text : Text) :
    breadth (split text) ≤ text.countP Token.isSeparator + 1 := by
  have bounded := breadth_splitFrom_le isQuoted_start text
  simp only [List.countP_nil, Nat.zero_add] at bounded
  exact bounded

theorem countP_shownArgument (argument : Text) :
    (shownArgument argument).countP Token.isSeparator = argument.countP Token.isSeparator := by
  have notSeparator : Token.isSeparator '\x22' = false := by decide
  unfold shownArgument
  split
  · simp [notSeparator]
  · rfl

theorem commandLine_cons_cons (argument next : Text) (rest : List Text) :
    commandLine (argument :: next :: rest) =
      shownArgument argument ++ ' ' :: commandLine (next :: rest) :=
  Text.unwords_cons_cons ..

/-- A line has the separators that its arguments have in them and between them. -/
theorem countP_commandLine_cons (argument : Text) (rest : List Text) :
    (commandLine (argument :: rest)).countP Token.isSeparator + 1 = breadth (argument :: rest) := by
  induction rest generalizing argument with
  | nil => simp [breadth, commandLine, countP_shownArgument]
  | cons next rest ih =>
      have space : Token.isSeparator ' ' = true := by decide
      rw [commandLine_cons_cons, breadth_cons, ← ih, List.countP_append, List.countP_cons,
        countP_shownArgument, if_pos space]
      omega

/-- A text is its first form, or its first form, a separator, and a text with the other forms. -/
theorem forms_cases (text : Text) : forms text = [text] ∨
    ∃ form c rest, text = form ++ c :: rest ∧
    Token.isSeparator c ∧ forms form = [form] ∧ forms text = form :: forms rest := by
  have from_state (state : State) : formsFrom state text = [text] ∨
      ∃ form c rest, text = form ++ c :: rest ∧
      Token.isSeparator c ∧ formsFrom state form = [form] ∧
          formsFrom state text = form :: forms rest := by
    induction text generalizing state with
    | nil => exact .inl rfl
    | cons c rest ih =>
        cases ends : state.isNeutral && Token.isSeparator c with
        | true =>
            exact .inr ⟨[], c, rest, rfl, (Bool.and_eq_true_iff.mp ends).2, rfl,
              by rw [formsFrom, if_pos ends, forms]⟩
        | false =>
            have goesOn (others : Text) :
                formsFrom state (c :: others) =
                    (formsFrom (step state c).1 others).modifyHead (c :: ·) := by
              rw [formsFrom, if_neg (by simp [ends])]
            rcases ih (step state c).1 with
              whole | ⟨form, d, others, rfl, separates, unbroken, forms_eq⟩
            · exact .inl (by rw [goesOn, whole, List.modifyHead_cons])
            · refine .inr ⟨c :: form, d, others, rfl, separates, ?_, ?_⟩
              · rw [goesOn, unbroken, List.modifyHead_cons]
              · rw [goesOn, forms_eq, List.modifyHead_cons]
  exact from_state {}

/-- Where both are followed by a separator, two beginnings of a text with the same number of
separators are one. -/
theorem eq_of_countP_eq {front first back behind : Text} {c d : Char}
    (isFront : Token.isSeparator c)
    (isFirst : Token.isSeparator d) (parts : front ++ c :: back = first ++ d :: behind)
    (same : front.countP Token.isSeparator = first.countP Token.isSeparator) : front = first ∧
      back = behind := by
  rcases List.append_eq_append_iff.mp parts with
    ⟨between, rfl, rest⟩ | ⟨between, rfl, rest⟩ <;>
    rcases between with _ | ⟨e, between⟩
  · simp_all
  · obtain rfl : c = e := by simp_all
    simp [isFront] at same
  · simp_all
  · obtain rfl : d = e := by simp_all
    simp [isFirst] at same

/-- A form has one argument at most, with the separators of the form. -/
theorem split_unbroken {form : Text} (unbroken : forms form = [form]) :
    split form = [] ∨ ∃ value : Text, split form = [value] ∧
      value.countP Token.isSeparator = form.countP Token.isSeparator := by
  rcases exists_value_of_unbroken isQuoted_start unbroken with ⟨value, split_eq, kept⟩
  rw [split, split_eq, State.flush]
  split
  · exact .inl rfl
  · refine .inr ⟨value, by simp, ?_⟩
    -- no separator is a mark, so all of them are kept
    have countP_eq (text : Text) :
        text.countP Token.isSeparator = (text.filter (!isMark ·)).countP Token.isSeparator := by
      rw [List.countP_filter]
      refine List.countP_congr fun c _ => ?_
      rw [Bool.and_eq_true]
      exact ⟨fun separates => ⟨separates, by simp [isMark_of_isSeparator separates]⟩,
        And.left⟩
    rw [countP_eq value, countP_eq form, kept]

theorem split_shownArgument_of_split_commandLine {arguments : List Text}
    (same : split (commandLine arguments) = arguments) :
    ∀ argument ∈ arguments, split (shownArgument argument) = [argument] := by
  -- The separators are counted: each argument has those of its form, so the forms break where the
  -- line does.
  induction arguments with
  | nil => simp
  | cons argument rest ih =>
      rcases rest with _ | ⟨next, rest⟩
      · simpa [commandLine] using same
      rcases forms_cases (commandLine (argument :: next :: rest)) with
        whole | ⟨form, c, others, parts, separates, unbroken, forms_eq⟩
      · -- without a break there would be one argument only
        rcases split_unbroken whole with none | ⟨value, one, -⟩
        · simp [none] at same
        · simp [one] at same
      · have count := countP_commandLine_cons argument (next :: rest)
        rw [parts, List.countP_append, List.countP_cons, if_pos separates, breadth_cons] at count
        have later := breadth_split_le others
        have split_eq : split (commandLine (argument :: next :: rest)) =
            split form ++ split others := by
          rw [split_eq_flatMap_forms, forms_eq, List.flatMap_cons, ← split_eq_flatMap_forms]
        rw [same] at split_eq
        rcases split_unbroken unbroken with none | ⟨value, one, sameCount⟩
        · -- without an argument in front of the break there would be too few separators
          rw [none, List.nil_append] at split_eq
          rw [← split_eq, breadth_cons] at later
          omega
        · rw [one, List.singleton_append] at split_eq
          rcases List.cons_eq_cons.mp split_eq with ⟨rfl, others_eq⟩
          rw [commandLine_cons_cons] at parts
          rcases eq_of_countP_eq (by decide) separates parts
              (by rw [countP_shownArgument, sameCount]) with
            ⟨rfl, rfl⟩
          rw [List.forall_mem_cons]
          exact ⟨one, ih others_eq.symm⟩

/-- A line is read back as the arguments that it shows exactly if each of them is there and
legible. -/
theorem split_commandLine_eq_iff {arguments : List Text} :
    split (commandLine arguments) = arguments ↔ ∀ argument ∈ arguments, argument ≠ [] ∧
      IsLegible argument := by
  constructor
  · intro same argument member
    exact split_shownArgument_eq_iff.mp
      (split_shownArgument_of_split_commandLine same argument member)
  · intro each
    refine split_unwords ?_ fun argument member => (each argument member).1
    rw [List.forall₂_map_left_iff, List.forall₂_same]
    exact fun argument member => reads_shownArgument (each argument member).2

end Literal

namespace Invocation

theorem IsLegible.of_isBare {argument : Text} (bare : Literal.IsBare argument) :
    IsLegible argument where
  noBackslash := fun member => (bare _ member).1 rfl
  noDoubleQuote := fun member => absurd (bare _ member).2.1 (by decide)
  singleQuote := fun member => absurd (bare _ member).2.1 (by decide)

theorem isBare_integerText (value : Int) : Literal.IsBare (Decimal.integerText value) := by
  have isBare_digits (magnitude : Nat) : Literal.IsBare (Decimal.naturalText magnitude) := by
    intro c member
    have digit := Decimal.isAsciiDigit_of_mem_naturalText member
    refine ⟨?_, ?_, ?_⟩
    · rintro rfl
      exact absurd digit (by decide)
    · by_contra isQuote
      simp only [Token.isQuote, Bool.not_eq_false, Bool.or_eq_true, beq_iff_eq] at isQuote
      rcases isQuote with rfl | rfl <;> exact absurd digit (by decide)
    · by_contra separates
      simp only [Token.isSeparator, Bool.not_eq_false, Bool.or_eq_true, beq_iff_eq] at separates
      rcases separates with rfl | rfl <;> exact absurd digit (by decide)
  unfold Decimal.integerText
  split
  · exact Literal.IsBare.append (by decide : Literal.IsBare ['-']) (isBare_digits _)
  · exact isBare_digits _

theorem isBare_geometry (width height : Int) : Literal.IsBare (geometry width height) :=
  ((isBare_integerText width).append (by decide)).append (isBare_integerText height)

theorem geometry_ne_nil (width height : Int) : geometry width height ≠ [] := by
  simp [geometry]

theorem isLegible_stages (width height : Int) (isExport : Bool) :
    ∀ argument ∈ inputStage width height ++ outputStage width height isExport,
      argument ≠ [] ∧ IsLegible argument := by
  have isLegible_geometry : IsLegible (geometry width height) :=
    .of_isBare (isBare_geometry width height)
  have isLegible_forced : IsLegible (geometry width height ++ "!") :=
    .of_isBare ((isBare_geometry width height).append (by decide))
  have isLegible_fixed :
      ∀ argument ∈ ([program, "-size", "-depth", "8", inputFile, "-quality", "90", exportFile,
      "-filter", "Point", "-resize", previewFile] : List Text), argument ≠ [] ∧
      IsLegible argument := by
    decide
  have nonempty := geometry_ne_nil width height
  cases isExport <;> simp_all [inputStage, outputStage]

/-- The printed line of an invocation is read back as the invocation exactly if every argument of
the command is legible. -/
theorem split_commandLine_build_iff (command : Text) (width height : Int) (isExport : Bool) :
    Literal.split (commandLine (build command width height isExport)) =
      build command width height isExport ↔
      ∀ argument ∈ userStage command, IsLegible argument := by
  have fixed := isLegible_stages width height isExport
  have nonempty : ∀ argument ∈ userStage command, argument ≠ [] := fun _ member =>
    Literal.ne_nil_of_mem_splitFrom member
  rw [Literal.split_commandLine_eq_iff, build]
  simp only [List.forall_mem_append] at fixed ⊢
  exact ⟨fun each argument member => (each.1.2 argument member).2,
    fun legible =>
      ⟨⟨fixed.1, fun argument member =>
        ⟨nonempty argument member, legible argument member⟩⟩, fixed.2⟩⟩

/-- A double quote within double quotes, a backslash, and a single quote in an argument that is
shown as it is are each read with their meaning. -/
theorem split_commandLine_build_illegible :
    Literal.split (commandLine (build "-fill 'a\x22b c'" 64 48 false)) ≠
      build "-fill 'a\x22b c'" 64 48 false ∧
      Literal.split (commandLine (build "-fill a\\\\b" 64 48 true)) ≠
        build "-fill a\\\\b" 64 48 true ∧
      Literal.split (commandLine (build "-fill \x22it's\x22" 64 48 true)) ≠
        build "-fill \x22it's\x22" 64 48 true := by
  decide +kernel

end Invocation

end Retouch
