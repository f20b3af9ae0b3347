import Retouch.Proofs.Effect.Scope

/-!
# Operations that are read again

A reader takes the words of an operation back as the same operation, with two exceptions around
channel selections. A selection that was written around an operation without its value is read as
three operations. A selection of all colour channels that stands by itself is read together with the
operation and the end of selection behind it as one operation; that changes what is written exactly
if a selection was open before it.
-/

namespace Retouch

namespace Effect

/-- Whether a channel selection is open after a list of effects. -/
def scopeAfterAll (scopeOpen : Bool) (effects : List Effect) : Bool :=
  effects.foldl (fun scopeOpen effect => effect.scopeAfter scopeOpen) scopeOpen

/-- Whether effects begin with a selection of all colour channels for a single operation. -/
def BeginsScope (effects : List Effect) : Prop :=
  ∃ selection operation reset after, effects = selection :: operation :: reset :: after ∧
    selection.SelectsAll ∧ operation.GetsScope ∧ reset.flag = Flag.regionClose

/-- Whether a selection of all colour channels for a single operation stands inside another
selection. -/
def NestsScope (scopeOpen : Bool) (effects : List Effect) : Prop :=
  ∃ before inner, effects = before ++ inner ∧ scopeAfterAll scopeOpen before = true ∧
    BeginsScope inner

theorem not_nestsScope_nil (scopeOpen : Bool) : ¬NestsScope scopeOpen [] := by
  rintro ⟨before, inner, parts, -, selection, operation, reset, after, rfl, -⟩
  simp at parts

/-- The first effects are such a selection inside another one, or later ones are. -/
theorem nestsScope_cons {scopeOpen : Bool} {effect : Effect} {effects : List Effect} :
    NestsScope scopeOpen (effect :: effects) ↔
      scopeOpen = true ∧ BeginsScope (effect :: effects) ∨
        NestsScope (effect.scopeAfter scopeOpen) effects := by
  constructor
  · rintro ⟨before, inner, parts, isOpen, begins⟩
    cases before with
    | nil =>
        rw [List.nil_append] at parts
        exact Or.inl ⟨isOpen, parts ▸ begins⟩
    | cons first before =>
        obtain ⟨rfl, rfl⟩ := List.cons.inj parts
        exact Or.inr ⟨before, inner, rfl, isOpen, begins⟩
  · rintro (⟨isOpen, begins⟩ | ⟨before, inner, rfl, isOpen, begins⟩)
    · exact ⟨[], effect :: effects, rfl, isOpen, begins⟩
    · exact ⟨effect :: before, inner, rfl, isOpen, begins⟩

end Effect

namespace Operation

open Effect

variable {operation : Operation}

theorem flag_effect (operation : Operation) :
    operation.effect.flag = Flag.canonical operation.flag :=
  flag_readRun _ _

theorem isSettled_selectAll : selectAll.IsSettled where
  writable := ⟨by decide, by decide⟩
  named := by decide
  settles := settles_choice Flag.regionOpen ofFlag_channel (by
    simp only [ArePlain, List.forall_mem_singleton]
    decide)

theorem isSettled_reset : reset.IsSettled where
  writable := ⟨by decide, by decide⟩
  named := by decide
  settles := settles_channelReset Flag.regionClose ofFlag_regionClose []

theorem effect_selectAll :
    selectAll.effect =
      ⟨"Channel", "channel", [.select "Chan" Family.scopeTarget Vocabulary.channels]⟩ := by
  have name : Flag.canonical selectAll.flag = "channel".toList := by decide
  rw [Operation.effect, readRun, name, ofFlag_channel]
  rfl

theorem selectsAll_selectAll : selectAll.effect.SelectsAll := by
  rw [effect_selectAll]
  exact ⟨rfl, rfl⟩

theorem scopeAfter_selectAll (scopeOpen : Bool) : selectAll.effect.scopeAfter scopeOpen = true := by
  rw [scopeAfter, flag_effect, if_neg (by decide), if_pos (by decide)]

theorem scopeAfter_reset (scopeOpen : Bool) : reset.effect.scopeAfter scopeOpen = false := by
  rw [scopeAfter, flag_effect, if_pos (by decide)]

/-- Only the selection of all colour channels is read as one. -/
theorem IsSettled.eq_selectAll (settled : operation.IsSettled)
    (selectsAll : operation.effect.SelectsAll) :
    operation = selectAll := by
  obtain ⟨flag, arguments⟩ := operation
  obtain ⟨name, value⟩ := selectsAll
  rw [flag_effect] at name
  have flag_eq : flag = Flag.regionOpen := by
    have named := settled.named
    rw [name] at named
    exact named.symm
  subst flag_eq
  cases arguments with
  | nil => exact absurd value (by decide)
  | cons argument rest =>
      have taken := settled.settles.taken
      have one : (readRun Flag.regionOpen (argument :: rest)).2 = 1 := rfl
      have rest_nil : rest = [] := by
        rw [one, List.length_cons] at taken
        exact List.length_eq_zero_iff.mp (by omega)
      have argument_eq : argument = Family.scopeTarget := by
        have value' : [argument] = [Family.scopeTarget] := value
        exact List.singleton_inj.mp value'
      rw [rest_nil, argument_eq]
      rfl

theorem IsSettled.eq_reset (settled : operation.IsSettled)
    (closes : operation.effect.flag = Flag.regionClose) : operation = reset := by
  obtain ⟨flag, arguments⟩ := operation
  rw [flag_effect] at closes
  have flag_eq : flag = Flag.regionClose := by
    have named := settled.named
    rw [closes] at named
    exact named.symm
  subst flag_eq
  have taken := settled.settles.taken
  have none : (readRun Flag.regionClose arguments).2 = 0 := rfl
  have arguments_nil : arguments = [] := List.length_eq_zero_iff.mp (none ▸ taken).symm
  rw [arguments_nil]
  rfl

theorem getsScope_iff : operation.effect.GetsScope ↔
    operation.isScoped = true ∧ operation.effect.slots ≠ [] := by
  rw [GetsScope, flag_effect, isScoped]

/-- An operation with a selection of its own opens and closes none by itself. -/
theorem scopeAfter_of_isScoped (isScoped : operation.isScoped = true) (scopeOpen : Bool) :
    operation.effect.scopeAfter scopeOpen = scopeOpen := by
  unfold Operation.isScoped at isScoped
  rw [← flag_effect] at isScoped
  unfold scopeAfter
  rw [if_neg, if_neg]
  · intro opens
    rw [opens, ofFlag_channel] at isScoped
    exact absurd isScoped (by decide)
  · intro closes
    rw [closes, ofFlag_regionClose] at isScoped
    exact absurd isScoped (by decide)

/-- Whether operations begin with a selection of all colour channels for a single operation. -/
theorem eq_of_beginsScope {operations : List Operation}
    (settled : ∀ operation ∈ operations, operation.IsSettled)
    (begins : BeginsScope (operations.map effect)) :
    ∃ operation after, operations = selectAll :: operation :: reset :: after ∧
      operation.effect.GetsScope := by
  obtain ⟨selection, single, closing, after, parts, selectsAll, getsScope, closes⟩ := begins
  obtain ⟨first, others, rfl, rfl, parts'⟩ := List.map_eq_cons_iff.mp parts
  obtain ⟨second, others, rfl, rfl, parts''⟩ := List.map_eq_cons_iff.mp parts'
  obtain ⟨third, rest, rfl, rfl, -⟩ := List.map_eq_cons_iff.mp parts''
  have first_eq := (settled first (by simp)).eq_selectAll selectsAll
  have third_eq := (settled third (by simp)).eq_reset closes
  exact ⟨second, rest, by rw [first_eq, third_eq], getsScope⟩

theorem not_beginsScope_of_not_selectsAll {effect : Effect} (other : ¬effect.SelectsAll)
    (effects : List Effect) : ¬BeginsScope (effect :: effects) := by
  rintro ⟨selection, _, _, _, parts, selectsAll, -⟩
  obtain ⟨rfl, -⟩ := List.cons.inj parts
  exact other selectsAll

theorem not_selectsAll_of_isScoped (isScoped : operation.isScoped = true) :
    ¬operation.effect.SelectsAll := by
  intro selectsAll
  unfold Operation.isScoped at isScoped
  rw [← flag_effect, selectsAll.1, ofFlag_channel] at isScoped
  exact absurd isScoped (by decide)

theorem not_selectsAll_reset : ¬reset.effect.SelectsAll := by
  rintro ⟨name, -⟩
  rw [flag_effect] at name
  exact absurd name (by decide)

theorem beginsScope_selectAll (getsScope : operation.effect.GetsScope) (after : List Operation) :
    BeginsScope ((selectAll :: operation :: reset :: after).map effect) :=
  ⟨_, _, _, _, rfl, selectsAll_selectAll, getsScope, rfl⟩

/-! ## How tokens are read -/

theorem allWords_cons (form : Text → Text) (scopeOpen : Bool) (operation : Operation)
    (operations : List Operation) :
    allWords form scopeOpen (operation :: operations) =
      operation.scopedWords form scopeOpen ++
        allWords form (operation.effect.scopeAfter scopeOpen) operations := rfl

theorem scopedWords_of_unwrapped {form : Text → Text} {scopeOpen : Bool}
    (unwrapped : (operation.isScoped && !scopeOpen) = false) :
    operation.scopedWords form scopeOpen = operation.words form := by
  rw [scopedWords, if_neg (by simp [unwrapped])]

theorem scopedWords_of_isScoped {form : Text → Text} (isScoped : operation.isScoped = true) :
    operation.scopedWords form false =
      [Flag.regionOpen, Family.scopeTarget] ++ operation.words form ++ [Flag.regionClose] := by
  rw [scopedWords, if_pos (by simp [isScoped])]

theorem isArgument_of_isFlag {flag : Text} (isFlag : Token.isFlag flag) :
    Token.isArgument flag = false := by
  simp [Token.isArgument, isFlag]

theorem isScoped_selectAll : selectAll.isScoped = false := by
  have name : Flag.canonical selectAll.flag = "channel".toList := by decide
  rw [isScoped, name, ofFlag_channel]
  rfl

theorem isScoped_reset : reset.isScoped = false := by
  have name : Flag.canonical reset.flag = Flag.regionClose := by decide
  rw [isScoped, name, ofFlag_regionClose]
  rfl

/-- The words of a selection of all colour channels for a single operation. -/
theorem allWords_selectAll {form : Text → Text}
    (target : form Family.scopeTarget = Family.scopeTarget)
    (isScoped : operation.isScoped = true) (scopeOpen : Bool) (after : List Operation) :
    allWords form scopeOpen (selectAll :: operation :: reset :: after) =
      [Flag.regionOpen, Family.scopeTarget] ++ operation.words form ++ [Flag.regionClose] ++
        allWords form false after := by
  have unwrapped : (operation.isScoped && !true) = false := by simp
  rw [allWords_cons, scopeAfter_selectAll, allWords_cons, scopeAfter_of_isScoped isScoped,
    allWords_cons, scopeAfter_reset, scopedWords_of_unwrapped unwrapped,
    scopedWords_of_unwrapped (by simp [isScoped_selectAll]),
    scopedWords_of_unwrapped (by simp [isScoped_reset])]
  simp [words, selectAll, reset, target]

theorem isArgument_head?_allWords {operations : List Operation}
    (settled : ∀ operation ∈ operations, operation.IsSettled) (scopeOpen : Bool) :
    ∀ token ∈ (allWords id scopeOpen operations).head?, Token.isArgument token = false := by
  intro token member
  cases operations with
  | nil => simp [allWords] at member
  | cons operation operations =>
      obtain ⟨flag, rest, start, isFlag⟩ :=
        exists_cons_scopedWords (settled operation (by simp)) id scopeOpen
      obtain rfl : flag = token := by simpa [allWords, start] using member
      exact isArgument_of_isFlag isFlag

theorem argumentRun_append (settled : operation.IsSettled) {rest : List Text}
    (stop : ∀ token ∈ rest.head?, Token.isArgument token = false) :
    Token.argumentRun (operation.arguments ++ rest) = operation.arguments :=
  Token.argumentRun_append (fun argument member => (settled.settles.plain argument member).2) stop

theorem ofTokens_flag {flag : Text} (isFlag : Token.isFlag flag) (rest : List Text) :
    ofTokens (flag :: rest) = (readFirst flag rest).1 ::
      ofTokens (rest.drop (readFirst flag rest).2) := by
  rw [ofTokens, if_pos isFlag]

/-- The words of an operation are read as the operation, unless they begin a selection that belongs
to a single operation. -/
theorem ofTokens_words (settled : operation.IsSettled) {rest : List Text}
    (stop : ∀ token ∈ rest.head?, Token.isArgument token = false)
    (single : operation.flag = Flag.regionOpen →
        readScoped? (operation.arguments ++ rest) = none) :
    ofTokens (operation.words id ++ rest) = operation.effect :: ofTokens rest := by
  have read : readFlag operation.flag (operation.arguments ++ rest) =
      (operation.effect, operation.arguments.length) := by
    rw [readFlag_eq, argumentRun_append settled stop, Operation.effect, ← settled.settles.taken]
  have first : readFirst operation.flag (operation.arguments ++ rest) =
      (operation.effect, operation.arguments.length) := by
    unfold readFirst
    split
    · next opens => rw [single opens, Option.getD_none, read]
    · exact read
  rw [words, List.map_id, List.cons_append, ofTokens_flag settled.writable.isFlag, first,
    List.drop_left]

/-- A scoped operation with its value, behind a selection of all colour channels, is read together
with the end of selection behind it. -/
theorem ofTokens_selectAll (settled : operation.IsSettled) (getsScope : operation.effect.GetsScope)
    (rest : List Text) :
    ofTokens ([Flag.regionOpen, Family.scopeTarget] ++ operation.words id ++
        [Flag.regionClose] ++ rest) =
      operation.effect :: ofTokens rest := by
  obtain ⟨isScoped, valued⟩ := getsScope_iff.mp getsScope
  have stop : ∀ token ∈ (Flag.regionClose :: rest).head?, Token.isArgument token = false := by
    simp only [List.head?_cons, Option.mem_some_iff, forall_eq']
    decide
  have read : readScoped? (Family.scopeTarget :: operation.flag ::
      (operation.arguments ++ Flag.regionClose :: rest)) =
      some (operation.effect, operation.arguments.length + 3) := by
    rw [readScoped?, if_pos ⟨rfl, settled.writable.isFlag, isScoped⟩,
      argumentRun_append settled stop, (read_eq_some_iff isScoped _).1 valued]
    simp [settled.settles.taken, Operation.effect]
  have tokens : [Flag.regionOpen, Family.scopeTarget] ++ operation.words id ++
      [Flag.regionClose] ++ rest =
      Flag.regionOpen :: Family.scopeTarget :: operation.flag ::
        (operation.arguments ++ Flag.regionClose :: rest) := by
    simp [words]
  rw [tokens, ofTokens_flag isFlag_regionOpen, readFirst, if_pos rfl, read, Option.getD_some]
  congr 2
  simp

/-- A selection of all colour channels is read by itself if no scoped operation with its value and
an end of selection follow. -/
theorem readScoped?_eq_none {operations : List Operation}
    (settled : ∀ operation ∈ operations, operation.IsSettled)
    (single : ¬BeginsScope ((selectAll :: operations).map effect)) :
    readScoped? (Family.scopeTarget :: allWords id true operations) = none := by
  cases operations with
  | nil => rfl
  | cons operation others =>
      have settledFirst : operation.IsSettled := settled operation (by simp)
      have settledOthers : ∀ other ∈ others, other.IsSettled := fun other member =>
        settled other (List.mem_cons_of_mem _ member)
      have stop := isArgument_head?_allWords settledOthers (operation.effect.scopeAfter true)
      rw [allWords_cons, scopedWords_of_unwrapped (by simp), words, List.map_id, List.cons_append,
        readScoped?]
      by_cases isScoped : operation.isScoped = true
      · rw [if_pos ⟨rfl, settledFirst.writable.isFlag, isScoped⟩,
          argumentRun_append settledFirst stop]
        by_cases valued : operation.effect.slots = []
        · rw [(read_eq_some_iff isScoped _).2 valued]
        · rw [(read_eq_some_iff isScoped _).1 valued]
          simp only [settledFirst.settles.taken, List.drop_left]
          refine if_neg fun closed => single ?_
          rw [scopeAfter_of_isScoped isScoped] at closed
          cases others with
          | nil => simp [allWords] at closed
          | cons closing others =>
              have closes : closing.flag = Flag.regionClose := by
                rw [allWords_cons, scopedWords_of_unwrapped (by simp)] at closed
                simpa [words] using closed
              refine ⟨_, _, _, _, rfl, selectsAll_selectAll,
                getsScope_iff.mpr ⟨isScoped, valued⟩, ?_⟩
              rw [flag_effect, closes]
              rfl
      · exact if_neg fun conditions => isScoped conditions.2.2

/-- An operation without a selection around it is read by itself, unless it is a selection that
belongs to a single operation. -/
theorem ofTokens_allWords {scopeOpen : Bool} {rest : List Operation}
    (settled : ∀ other ∈ operation :: rest, other.IsSettled)
    (unwrapped : (operation.isScoped && !scopeOpen) = false)
    (single : ¬BeginsScope ((operation :: rest).map effect)) :
    ofTokens (allWords id scopeOpen (operation :: rest)) =
      operation.effect :: ofTokens (allWords id (operation.effect.scopeAfter scopeOpen) rest) := by
  have settledFirst : operation.IsSettled := settled operation (by simp)
  have settledRest : ∀ other ∈ rest, other.IsSettled := fun other member =>
    settled other (List.mem_cons_of_mem _ member)
  have stop := isArgument_head?_allWords settledRest (operation.effect.scopeAfter scopeOpen)
  rw [allWords_cons, scopedWords_of_unwrapped unwrapped]
  refine ofTokens_words settledFirst stop fun opens => ?_
  by_cases selectsAll : operation.effect.SelectsAll
  · obtain rfl := settledFirst.eq_selectAll selectsAll
    exact readScoped?_eq_none settledRest single
  · -- What stands behind the flag is another word or a flag.
    have target : ∀ token ∈ (operation.arguments ++
        allWords id (operation.effect.scopeAfter scopeOpen) rest).head?, token ≠
            Family.scopeTarget := by
      rintro token member rfl
      cases arguments : operation.arguments with
      | nil =>
          rw [arguments] at member
          exact absurd (stop _ member) (by decide)
      | cons argument others =>
          obtain rfl : argument = Family.scopeTarget := by simpa [arguments] using member
          have name : operation.effect.flag = "channel".toList := by
            rw [flag_effect, opens]
            rfl
          refine selectsAll ⟨name, ?_⟩
          rw [Operation.effect, opens, arguments]
          rfl
    generalize operation.arguments ++ allWords id (operation.effect.scopeAfter scopeOpen) rest =
      tokens
      at target
    unfold readScoped?
    split
    · next token flag following =>
        exact if_neg fun conditions => target token (by simp) conditions.1
    · rfl

/-- A selection around an operation without its value is read as three operations. -/
theorem ofTokens_apart {rest : List Operation}
    (settled : ∀ other ∈ operation :: rest, other.IsSettled)
    (isScoped : operation.isScoped = true) (missing : ¬operation.effect.GetsScope) :
    ofTokens (allWords id false (operation :: rest)) =
      selectAll.effect :: operation.effect :: reset.effect ::
        ofTokens (allWords id false rest) := by
  have same : allWords id false (operation :: rest) =
      allWords id false (selectAll :: operation :: reset :: rest) := by
    rw [allWords_selectAll rfl isScoped, allWords_cons, scopedWords_of_isScoped isScoped,
      scopeAfter_of_isScoped isScoped]
  have single : ¬BeginsScope ((selectAll :: operation :: reset :: rest).map effect) := by
    rintro ⟨_, _, _, _, parts, -, getsScope, -⟩
    simp only [List.map_cons, List.cons.injEq] at parts
    exact missing (parts.2.1 ▸ getsScope)
  simp only [List.forall_mem_cons] at settled
  rw [same, ofTokens_allWords _ _ single, scopeAfter_selectAll, ofTokens_allWords,
    scopeAfter_of_isScoped isScoped, ofTokens_allWords, scopeAfter_reset]
  · simpa [isSettled_reset] using settled.2
  · simp [isScoped_reset]
  · exact not_beginsScope_of_not_selectsAll not_selectsAll_reset _
  · simpa [isSettled_reset] using settled
  · simp
  · exact not_beginsScope_of_not_selectsAll (not_selectsAll_of_isScoped isScoped) _
  · simpa [isSettled_reset, isSettled_selectAll] using settled
  · simp [isScoped_selectAll]

/-! ## What reading again gives -/

/-- How a list of operations is read again once it was written, given whether a selection is open
before it. -/
inductive Rereads : Bool → List Operation → List Operation → Prop where
  | nil (scopeOpen : Bool) : Rereads scopeOpen [] []
  /-- An operation within its own selection is read as that operation. -/
  | wrapped {operation : Operation} {rest rest' : List Operation}
      (getsScope : operation.effect.GetsScope) (later : Rereads false rest rest') :
      Rereads false (operation :: rest) (operation :: rest')
  /-- Without its value the operation is read apart from the selection. -/
  | apart {operation : Operation} {rest rest' : List Operation}
      (isScoped : operation.isScoped = true)
      (missing : ¬operation.effect.GetsScope) (later : Rereads false rest rest') :
      Rereads false (operation :: rest) (selectAll :: operation :: reset :: rest')
  /-- A selection for a single operation is read as that operation. -/
  | collapsed {scopeOpen : Bool} {operation : Operation} {after after' : List Operation}
      (getsScope : operation.effect.GetsScope) (later : Rereads false after after') :
      Rereads scopeOpen (selectAll :: operation :: reset :: after) (operation :: after')
  /-- Any other operation is read as it is. -/
  | kept {scopeOpen : Bool} {operation : Operation} {rest rest' : List Operation}
      (unwrapped : (operation.isScoped && !scopeOpen) = false)
      (single : ¬BeginsScope ((operation :: rest).map effect))
      (later : Rereads (operation.effect.scopeAfter scopeOpen) rest rest') :
      Rereads scopeOpen (operation :: rest) (operation :: rest')

/-- Every list of settled operations is read again. -/
theorem exists_rereads {operations : List Operation}
    (settled : ∀ operation ∈ operations, operation.IsSettled) (scopeOpen : Bool) :
    ∃ again, Rereads scopeOpen operations again ∧
      (∀ operation ∈ again, operation.IsSettled) ∧
      ofTokens (allWords id scopeOpen operations) = again.map effect := by
  -- A selection for a single operation takes three operations at once, so the induction is on the
  -- length.
  induction length : operations.length
      using Nat.strong_induction_on generalizing operations scopeOpen with
  | _ count ih =>
      subst length
      cases operations with
      | nil => exact ⟨[], .nil _, by simp, by rw [allWords, ofTokens, List.map_nil]⟩
      | cons operation rest =>
          have settledFirst : operation.IsSettled := settled operation (by simp)
          have settledRest : ∀ other ∈ rest, other.IsSettled := fun other member =>
            settled other (List.mem_cons_of_mem _ member)
          by_cases wrapped : operation.isScoped = true ∧ scopeOpen = false
          · obtain ⟨isScoped, rfl⟩ := wrapped
            obtain ⟨again, rereads, settledAgain, tokens⟩ :=
              ih rest.length (by simp) settledRest false rfl
            by_cases getsScope : operation.effect.GetsScope
            · refine ⟨operation :: again, .wrapped getsScope rereads, ?_, ?_⟩
              · simpa [settledFirst] using settledAgain
              · rw [allWords_cons, scopeAfter_of_isScoped isScoped,
                  scopedWords_of_isScoped isScoped, ofTokens_selectAll settledFirst getsScope,
                  tokens, List.map_cons]
            · refine ⟨selectAll :: operation :: reset :: again,
                .apart isScoped getsScope rereads, ?_, ?_⟩
              · simpa [isSettled_selectAll, settledFirst, isSettled_reset] using settledAgain
              · rw [ofTokens_apart settled isScoped getsScope, tokens]
                rfl
          · have unwrapped : (operation.isScoped && !scopeOpen) = false := by
              simpa [Bool.and_eq_false_imp] using wrapped
            by_cases begins : BeginsScope ((operation :: rest).map effect)
            · obtain ⟨single, after, parts, getsScope⟩ := eq_of_beginsScope settled begins
              rw [parts] at settled ⊢
              simp only [List.forall_mem_cons] at settled
              obtain ⟨-, settledSingle, -, settledAfter⟩ := settled
              have isScoped := (getsScope_iff.mp getsScope).1
              obtain ⟨again, rereads, settledAgain, tokens⟩ :=
                ih after.length (by simp [parts]; omega) settledAfter false rfl
              refine ⟨single :: again, .collapsed getsScope rereads, ?_, ?_⟩
              · simpa [settledSingle] using settledAgain
              · rw [allWords_selectAll rfl isScoped,
                  ofTokens_selectAll settledSingle getsScope, tokens, List.map_cons]
            · obtain ⟨again, rereads, settledAgain, tokens⟩ :=
                ih rest.length (by simp) settledRest (operation.effect.scopeAfter scopeOpen) rfl
              refine ⟨operation :: again, .kept unwrapped begins rereads, ?_, ?_⟩
              · simpa [settledFirst] using settledAgain
              · rw [ofTokens_allWords settled unwrapped begins, tokens, List.map_cons]

/-! ## What reading again changes -/

/-- Unless a selection for a single operation stands inside another one, the same is written
again. -/
theorem Rereads.allWords_eq {form : Text → Text}
    (target : form Family.scopeTarget = Family.scopeTarget)
    {scopeOpen : Bool} {operations again : List Operation}
    (rereads : Rereads scopeOpen operations again)
    (flat : ¬NestsScope scopeOpen (operations.map effect)) :
    allWords form scopeOpen again = allWords form scopeOpen operations := by
  induction rereads with
  | nil => rfl
  | @wrapped operation rest rest' getsScope _ ih =>
      have isScoped := (getsScope_iff.mp getsScope).1
      rw [List.map_cons, nestsScope_cons, scopeAfter_of_isScoped isScoped, not_or] at flat
      rw [allWords_cons, allWords_cons, scopeAfter_of_isScoped isScoped, ih flat.2]
  | @apart operation rest rest' isScoped _ _ ih =>
      rw [List.map_cons, nestsScope_cons, scopeAfter_of_isScoped isScoped, not_or] at flat
      rw [allWords_selectAll target isScoped, allWords_cons, scopedWords_of_isScoped isScoped,
        scopeAfter_of_isScoped isScoped, ih flat.2]
  | @collapsed scopeOpen operation after after' getsScope _ ih =>
      have isScoped := (getsScope_iff.mp getsScope).1
      rw [List.map_cons, nestsScope_cons, not_or] at flat
      obtain ⟨outer, flat⟩ := flat
      have closed : scopeOpen = false := by
        by_contra isOpen
        exact outer ⟨by simpa using isOpen, beginsScope_selectAll getsScope after⟩
      subst closed
      rw [List.map_cons, nestsScope_cons, not_or, List.map_cons, nestsScope_cons, not_or] at flat
      have flatAfter : ¬NestsScope false (after.map effect) := flat.2.2
      rw [allWords_selectAll target isScoped, allWords_cons, scopedWords_of_isScoped isScoped,
        scopeAfter_of_isScoped isScoped, ih flatAfter]
  | @kept scopeOpen operation rest rest' _ _ _ ih =>
      rw [List.map_cons, nestsScope_cons, not_or] at flat
      rw [allWords_cons, allWords_cons, ih flat.2]

theorem length_scopedWords_le {scopeOpen other : Bool} (outer : scopeOpen = true → other = true)
    (operation : Operation) : (operation.scopedWords id other).length ≤
      (operation.scopedWords id scopeOpen).length := by
  unfold scopedWords
  cases scopeOpen <;> cases other <;> cases isScoped : operation.isScoped <;> simp at outer ⊢
  omega

theorem scopeAfter_mono {scopeOpen other : Bool} (outer : scopeOpen = true → other = true)
    (effect : Effect) : effect.scopeAfter scopeOpen = true → effect.scopeAfter other = true := by
  unfold Effect.scopeAfter
  split
  · exact id
  · split
    · exact id
    · exact outer

/-- Within the selection for a single operation no other one begins. -/
theorem nestsScope_of_collapsed (isScoped : operation.isScoped = true) {after : List Operation}
    (nests : NestsScope false ((selectAll :: operation :: reset :: after).map effect)) :
    NestsScope false (after.map effect) := by
  simp only [List.map_cons] at nests
  rw [nestsScope_cons, nestsScope_cons, nestsScope_cons] at nests
  rcases nests with ⟨isOpen, -⟩ | ⟨-, begins⟩ | ⟨-, begins⟩ | nests
  · simp at isOpen
  · exact absurd begins (not_beginsScope_of_not_selectsAll (not_selectsAll_of_isScoped isScoped) _)
  · exact absurd begins (not_beginsScope_of_not_selectsAll not_selectsAll_reset _)
  · exact nests

/-- What is read again never takes more words, and it takes fewer if a selection for a single
operation stands inside another one. -/
theorem Rereads.length_le {scopeOpen other : Bool} {operations again : List Operation}
    (rereads : Rereads scopeOpen operations again) (outer : scopeOpen = true → other = true) :
    (allWords id other again).length ≤ (allWords id scopeOpen operations).length ∧
      (NestsScope scopeOpen (operations.map effect) →
        (allWords id other again).length < (allWords id scopeOpen operations).length) := by
  -- A selection that is collapsed takes its end along, so that one can be open in what is read
  -- again and no more in what was written.
  induction rereads generalizing other with
  | nil => exact ⟨by simp [allWords], fun nests => absurd nests (not_nestsScope_nil _)⟩
  | @wrapped operation rest rest' getsScope _ ih =>
      have isScoped := (getsScope_iff.mp getsScope).1
      obtain ⟨le, lt⟩ := ih outer
      have first := length_scopedWords_le outer operation
      rw [allWords_cons, allWords_cons, scopeAfter_of_isScoped isScoped,
        scopeAfter_of_isScoped isScoped, List.length_append, List.length_append, List.map_cons,
        nestsScope_cons, scopeAfter_of_isScoped isScoped]
      refine ⟨by omega, ?_⟩
      rintro (⟨isOpen, -⟩ | nests)
      · simp at isOpen
      · have := lt nests
        omega
  | @apart operation rest rest' isScoped missing _ ih =>
      obtain ⟨le, lt⟩ := @ih false (by simp)
      rw [allWords_selectAll rfl isScoped, allWords_cons, scopedWords_of_isScoped isScoped,
        scopeAfter_of_isScoped isScoped, List.map_cons, nestsScope_cons,
          scopeAfter_of_isScoped isScoped]
      simp only [List.length_append]
      refine ⟨by omega, ?_⟩
      rintro (⟨isOpen, -⟩ | nests)
      · simp at isOpen
      · have := lt nests
        omega
  | @collapsed scopeOpen operation after after' getsScope _ ih =>
      have isScoped := (getsScope_iff.mp getsScope).1
      have inner : false = true → other = true := by simp
      obtain ⟨le, lt⟩ := ih inner
      rw [allWords_selectAll rfl isScoped, allWords_cons, scopeAfter_of_isScoped isScoped,
        List.length_append, List.length_append, ← scopedWords_of_isScoped isScoped]
      have first := length_scopedWords_le inner operation
      refine ⟨by omega, fun nests => ?_⟩
      cases scopeOpen with
      | true =>
          -- The selection around it is open, so the operation is written without one of its own.
          obtain rfl : other = true := outer rfl
          have shorter : (operation.scopedWords id true).length <
              (operation.scopedWords id false).length := by
            rw [scopedWords_of_isScoped isScoped, scopedWords_of_unwrapped (by simp)]
            simp only [List.length_append, List.length_cons]
            omega
          omega
      | false =>
          have := lt (nestsScope_of_collapsed isScoped nests)
          omega
  | @kept scopeOpen operation rest rest' _ single _ ih =>
      obtain ⟨le, lt⟩ := ih (scopeAfter_mono outer operation.effect)
      have first := length_scopedWords_le outer operation
      rw [allWords_cons, allWords_cons, List.length_append, List.length_append, List.map_cons,
        nestsScope_cons]
      refine ⟨by omega, ?_⟩
      rintro (⟨-, begins⟩ | nests)
      · exact absurd begins single
      · have := lt nests
        omega

end Operation

end Retouch
