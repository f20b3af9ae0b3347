import Retouch.Proofs.Command.Quoting

/-!
# Written forms of arguments

A text is cut at the separators that a reader meets with nothing open. What stands between two of
them is the written form of an argument: the reader takes its characters in their order, all but
quotes and backslashes that have a meaning. So the arguments of a text are those of its forms, and a
form that holds its argument in one piece has nothing but such marks around it.
-/

namespace Retouch.Literal

/-- Whether a character can have another meaning to a reader than that of a separator. -/
def isMark (c : Char) : Bool :=
  Token.isQuote c || c == '\\'

/-- Whether nothing is open where a reader stands, so that a separator ends an argument. -/
def State.isNeutral (state : State) : Bool :=
  state.quote.isNone && !state.escaped

/-- Whether a reader has no other quote open than one of the two that there are. -/
def State.IsQuoted (state : State) : Prop :=
  ∀ quote ∈ state.quote, Token.isQuote quote

theorem isQuoted_outside (current : Text) (escaped : Bool) :
    State.IsQuoted ⟨current, none, escaped⟩ := by
  simp [State.IsQuoted]

theorem isQuoted_within {quote : Char} (isQuote : Token.isQuote quote) (current : Text)
    (escaped : Bool) :
    State.IsQuoted ⟨current, some quote, escaped⟩ := by
  simpa [State.IsQuoted] using isQuote

theorem isQuoted_start : State.IsQuoted {} :=
  isQuoted_outside [] false

/-- A separator that a reader meets with nothing open ends the current argument. -/
theorem step_of_ends {state : State} {c : Char}
    (ends : (state.isNeutral && Token.isSeparator c) = true) :
    step state c = ({}, state.flush) := by
  rcases state with ⟨current, quote, escaped⟩
  simp only [State.isNeutral, Token.isSeparator, Bool.and_eq_true, Bool.or_eq_true, beq_iff_eq,
    Option.isNone_iff_eq_none, Bool.not_eq_true'] at ends
  rcases ends with ⟨⟨rfl, rfl⟩, rfl | rfl⟩ <;> rfl

theorem step_of_goesOn {state : State} {c : Char}
    (goesOn : (state.isNeutral && Token.isSeparator c) = false) :
    (step state c).2 = [] := by
  unfold State.isNeutral at goesOn
  unfold step
  grind

theorem step_takes {state : State} {c : Char} (isQuoted : state.IsQuoted)
    (goesOn : (state.isNeutral && Token.isSeparator c) = false) : (step state c).1.IsQuoted ∧
      ((step state c).1.current = c :: state.current ∨
          (step state c).1.current = state.current ∧ isMark c) := by
  unfold State.isNeutral at goesOn
  unfold State.IsQuoted isMark at *
  unfold step
  grind

/-- The written forms in the rest of a text, given the state before it. The first one goes on with
the current argument. -/
def formsFrom (state : State) : Text → List Text
  | [] => [[]]
  | c :: rest =>
      if state.isNeutral && Token.isSeparator c then [] :: formsFrom {} rest
      else (formsFrom (step state c).1 rest).modifyHead (c :: ·)

/-- The written forms of a text, empty ones between neighbouring separators among them. -/
def forms (text : Text) : List Text :=
  formsFrom {} text

/-- Whether a form stands in a text as one: between separators or ends of the text, and without a
separator in it that a reader meets with nothing open. -/
structure IsForm (text form : Text) : Prop where
  around : ∃ front back, text = front ++ form ++ back ∧
    (∀ c ∈ front.getLast?, Token.isSeparator c) ∧
    ∀ c ∈ back.head?, Token.isSeparator c
  unbroken : forms form = [form]

variable {state : State} {text form : Text}

/-- Behind a separator, the forms of what follows are forms of the text. -/
theorem IsForm.after_separator {c : Char} {front rest : Text} (isForm : IsForm rest form)
    (isSeparator : Token.isSeparator c) : IsForm (front ++ c :: rest) form := by
  rcases isForm.around with ⟨before, after, rfl, last, first⟩
  refine ⟨⟨front ++ c :: before, after, by simp, ?_, first⟩, isForm.unbroken⟩
  intro d member
  rw [List.getLast?_append_cons, List.getLast?_cons] at member
  cases found : before.getLast? with
  | none => simp_all
  | some e => exact last d (by simp_all)

/-- The first form goes up to a separator or the end, the others stand behind separators, and each
form has its own arguments. -/
theorem exists_first_form (state : State) (text : Text) :
    ∃ form later, formsFrom state text = form :: later ∧ formsFrom state form = [form] ∧
      (∃ back, text = form ++ back ∧ ∀ c ∈ back.head?, Token.isSeparator c) ∧
      (∀ other ∈ later, ∃ front c rest, text = front ++ c :: rest ∧ Token.isSeparator c ∧
          IsForm rest other) ∧
      splitFrom state text = splitFrom state form ++ later.flatMap split := by
  induction text generalizing state with
  | nil => exact ⟨[], [], rfl, rfl, ⟨[], rfl, by simp⟩, by simp, by simp⟩
  | cons c rest ih =>
      -- A separator with nothing open ends an empty first form; any other character goes on with
      -- the first form.
      cases ends : state.isNeutral && Token.isSeparator c with
      | true =>
          have isSeparator : Token.isSeparator c := (Bool.and_eq_true_iff.mp ends).2
          rcases ih {} with
            ⟨form, later, forms_eq, unbroken, ⟨back, parts, first⟩, behind, split_eq⟩
          refine ⟨[], form :: later, by rw [formsFrom, if_pos ends, forms_eq], rfl,
            ⟨_, rfl, by simpa using isSeparator⟩, ?_, ?_⟩
          · have areForms : ∀ other ∈ form :: later, IsForm rest other := by
              rw [List.forall_mem_cons]
              refine ⟨⟨⟨[], back, parts, by simp, first⟩, unbroken⟩,
                fun other member => ?_⟩
              rcases behind other member with ⟨front, d, others, rfl, separates, isForm⟩
              exact isForm.after_separator separates
            exact fun other member => ⟨[], c, rest, rfl, isSeparator, areForms other member⟩
          · simp only [splitFrom, step_of_ends ends, List.flatMap_cons, split, split_eq]
      | false =>
          rcases ih (step state c).1 with
            ⟨form, later, forms_eq, unbroken, ⟨back, parts, first⟩, behind, split_eq⟩
          refine ⟨c :: form, later, ?_, ?_, ⟨back, by rw [parts, List.cons_append], first⟩,
            ?_, ?_⟩
          · rw [formsFrom, if_neg (by simp [ends]), forms_eq, List.modifyHead_cons]
          · rw [formsFrom, if_neg (by simp [ends]), unbroken, List.modifyHead_cons]
          · intro other member
            rcases behind other member with ⟨front, d, others, rfl, separates, isForm⟩
            exact ⟨c :: front, d, others, rfl, separates, isForm⟩
          · rw [splitFrom, step_of_goesOn ends, List.nil_append, split_eq, splitFrom,
              step_of_goesOn ends, List.nil_append]

theorem split_eq_flatMap_forms (text : Text) : split text = (forms text).flatMap split := by
  rcases exists_first_form {} text with ⟨form, later, forms_eq, -, -, -, split_eq⟩
  rw [forms, forms_eq, split, split_eq]
  rfl

theorem isForm_of_mem_forms (member : form ∈ forms text) : IsForm text form := by
  rcases exists_first_form {} text with
    ⟨first, later, forms_eq, unbroken, ⟨back, parts, head⟩, behind, -⟩
  rw [forms, forms_eq] at member
  rcases List.mem_cons.mp member with rfl | inLater
  · exact ⟨⟨[], back, parts, by simp, head⟩, unbroken⟩
  · rcases behind form inLater with ⟨front, c, rest, rfl, isSeparator, isForm⟩
    exact isForm.after_separator isSeparator

/-- A form is read as one argument, in which all of its characters but marks stand in their
order. -/
theorem exists_value_of_unbroken {form : Text} {state : State} (isQuoted : state.IsQuoted)
    (unbroken : formsFrom state form = [form]) :
    ∃ value : Text, splitFrom state form =
      State.flush { current := value.reverse ++ state.current } ∧
      form.filter (!isMark ·) = value.filter (!isMark ·) := by
  induction form generalizing state with
  | nil => exact ⟨[], rfl, rfl⟩
  | cons c rest ih =>
      have goesOn : (state.isNeutral && Token.isSeparator c) = false := by
        by_contra ends
        rw [formsFrom, if_pos (by simpa using ends)] at unbroken
        simp at unbroken
      have unbrokenRest : formsFrom (step state c).1 rest = [rest] := by
        rw [formsFrom, if_neg (by simp [goesOn])] at unbroken
        rcases exists_first_form (step state c).1 rest with ⟨first, later, forms_eq, -⟩
        rw [forms_eq] at unbroken ⊢
        simpa using unbroken
      rcases step_takes isQuoted goesOn with ⟨isQuotedNext, cases⟩
      rcases ih isQuotedNext unbrokenRest with ⟨value, split_eq, same⟩
      rw [splitFrom, step_of_goesOn goesOn, List.nil_append, split_eq]
      rcases cases with current | ⟨current, mark⟩
      · refine ⟨c :: value, by rw [current]; simp, ?_⟩
        rw [List.filter_cons, List.filter_cons, same]
      · exact ⟨value, by rw [current], by rw [List.filter_cons, if_neg (by simp [mark]), same]⟩

/-- Whether a form is read as an argument that it does not hold in one piece. -/
def Hides (form name : Text) : Prop :=
  split form = [name] ∧ ¬name <:+: form

instance (form name : Text) : Decidable (Hides form name) :=
  inferInstanceAs (Decidable (_ ∧ _))

/-- A form that holds its argument in one piece has nothing but marks around it. -/
theorem IsForm.exists_marks_around {name : Text} (isForm : IsForm text form)
    (isRead : split form = [name]) (inOne : name <:+: form) :
    ∃ front back, form = front ++ name ++ back ∧ (∀ c ∈ front, isMark c) ∧
      ∀ c ∈ back, isMark c := by
  rcases inOne with ⟨front, back, rfl⟩
  refine ⟨front, back, rfl, ?_⟩
  rcases exists_value_of_unbroken isQuoted_start isForm.unbroken with ⟨value, split_eq, same⟩
  obtain rfl : name = value := by
    rw [split, split_eq] at isRead
    cases value with
    | nil => simp [State.flush] at isRead
    | cons c value => simpa [State.flush] using isRead.symm
  have nothing : (front.filter (!isMark ·)).length + (back.filter (!isMark ·)).length = 0 := by
    have lengths := congrArg List.length same
    simp only [List.filter_append, List.length_append] at lengths
    omega
  simpa [List.filter_eq_nil_iff] using nothing

end Retouch.Literal
