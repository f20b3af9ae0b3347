import Retouch.Proofs.Command.Requoting
import Retouch.Proofs.Effect.Collapse

/-!
# Units of written commands

Effects that were read from a clean command are written as a clean command again: every word of it
is made of basic characters or was there before. Where no word has a single quote in it, the words
are the tokens that validation reads, and the tokens make up units exactly if each effect is written
as a unit.
-/

namespace Retouch

/-- Whether an effect, without a selection around it, is written as a unit. -/
def Effect.WritesUnit (effect : Effect) : Prop :=
  ∃ body, effect.renderBody = .ok body ∧ IsUnit (Token.scan body)

/-- Whether a word has no single quote and is no flag that is not allowed. -/
structure IsOrdinaryWord (word : Text) : Prop where
  unquoted : '\x27' ∉ word
  isAllowed : Token.isFlag word → Flag.isAllowed word

theorem Token.isArgument_quote {value : Text} (isArgument : Token.isArgument value) :
    Token.isArgument (Literal.quote value) := by
  unfold Literal.quote
  split
  · exact isArgument_of_head (by decide)
  · exact isArgument

/-! ## Operations and units -/

namespace Operation

variable {operation : Operation} {operations : List Operation}

def quoted (operation : Operation) : Operation :=
  ⟨operation.flag, operation.arguments.map Literal.quote⟩

theorem IsPlain.quoted (isPlain : operation.IsPlain) : operation.quoted.IsPlain where
  starts := isPlain.starts
  plain := by
    intro argument member
    rcases List.mem_map.mp member with ⟨value, valueMem, rfl⟩
    exact Token.isArgument_quote (isPlain.plain value valueMem)

theorem map_quote_words (basic : Literal.isBasicText operation.flag) :
    (operation.words id).map Literal.quote = operation.quoted.words id := by
  simp [words, quoted, Literal.quote_of_isBasicText basic]

/-- Operations make up units exactly if each of them is one. -/
theorem exists_units_iff (arePlain : ∀ operation ∈ operations, operation.IsPlain) :
    (∃ units : List (List Text), (∀ unit ∈ units, IsUnit unit) ∧
        operations.flatMap (words id) = units.flatten) ↔
      ∀ operation ∈ operations, IsUnit (operation.words id) := by
  constructor
  · rintro ⟨units, areUnits, isFlatten⟩
    have ofUnit : ∀ unit ∈ units, ∃ operation : Operation, unit = operation.words id ∧
        operation.IsPlain := by
      intro unit member
      rcases (areUnits unit member).exists_cons with ⟨token, arguments, rfl, starts, plain⟩
      exact ⟨⟨token, arguments⟩, by simp [words], starts, plain⟩
    rcases exists_forall₂ ofUnit with ⟨others, pairs⟩
    have units_eq : units = others.map (words id) := by
      rw [← List.forall₂_eq_eq_eq, List.forall₂_map_right_iff]
      exact pairs.imp fun _ _ both => both.1
    -- Both lists of operations are what the tokens are taken apart into.
    have same : operations = others := by
      rw [← ofWords_words arePlain, isFlatten, units_eq, ← List.flatMap_def,
        ofWords_words (forall_of_forall₂ pairs fun _ _ both => both.2)]
    intro operation member
    exact areUnits _ (by rw [units_eq, ← same]; exact List.mem_map_of_mem member)
  · intro areUnits
    exact ⟨operations.map (words id), List.forall_mem_map.mpr areUnits, List.flatMap_def⟩

theorem isClosed_selectAll : ∀ token ∈ selectAll.quoted.words id, Token.IsClosed token := by
  have tokens : selectAll.quoted.words id = [Flag.regionOpen, Family.scopeTarget] := by decide
  rw [tokens, List.forall_mem_cons, List.forall_mem_singleton]
  exact ⟨.word (by decide) (by decide), .word (by decide) (by decide)⟩

theorem isClosed_reset : ∀ token ∈ reset.quoted.words id, Token.IsClosed token := by
  have tokens : reset.quoted.words id = [Flag.regionClose] := by decide
  rw [tokens, List.forall_mem_singleton]
  exact .word (by decide) (by decide)

theorem isUnit_selectAll : IsUnit (selectAll.quoted.words id) := by
  have isUnit : IsUnit (Validation.judge Flag.regionOpen [Family.scopeTarget]).tokens :=
    Validation.isUnit_of_judge_kept (by decide) (by decide +kernel)
  have tokens : (Validation.judge Flag.regionOpen [Family.scopeTarget]).tokens =
      selectAll.quoted.words id := by
    decide +kernel
  rwa [tokens] at isUnit

theorem isUnit_reset : IsUnit (reset.quoted.words id) := by
  have isUnit : IsUnit (Validation.judge Flag.regionClose []).tokens :=
    Validation.isUnit_of_judge_kept (by decide) (by decide +kernel)
  have tokens : (Validation.judge Flag.regionClose []).tokens = reset.quoted.words id := by
    decide +kernel
  rwa [tokens] at isUnit

end Operation

theorem Selection.forall_mem_withScopes_iff {property : Operation → Prop}
    (selectAll : property .selectAll)
    (reset : property .reset) {operations : List Operation} {scopeOpen : Bool} :
    (∀ operation ∈ withScopes scopeOpen operations, property operation) ↔
      ∀ operation ∈ operations, property operation := by
  induction operations generalizing scopeOpen with
  | nil => simp [withScopes]
  | cons operation operations ih =>
      rw [withScopes_cons, List.forall_mem_append, ih, List.forall_mem_cons]
      refine and_congr_left fun _ => ?_
      split <;> simp [selectAll, reset]

theorem Selection.Collapses.sublist {operations read : List Operation}
    (collapses : Collapses operations read) :
    read.Sublist operations := by
  induction collapses with
  | nil => exact List.Sublist.refl []
  | joined _ _ ih => exact ((ih.cons _).cons_cons _).cons _
  | kept _ _ _ ih => exact ih.cons_cons _
  | passed _ _ ih => exact ih.cons _

/-! ## Words of written operations -/

theorem Cleanup.AreClean.of_filter {words : List Text}
    (clean : AreClean (words.filter (!Literal.isBasicText ·))) : AreClean words where
  noPlaceholder := clean.noPlaceholder.of_filter fun word _ basic =>
    ⟨Literal.notMem_of_isBasicText (by simpa using basic) (by decide),
      Literal.notMem_of_isBasicText (by simpa using basic) (by decide)⟩
  plain := by
    intro word member c inside
    cases basic : Literal.isBasicText word with
    | false => exact clean.plain word (List.mem_filter.mpr ⟨member, by simp [basic]⟩) c inside
    | true =>
        have isBasic := List.all_eq_true.mp basic c inside
        constructor
        · rintro rfl
          exact absurd isBasic (by decide)
        · by_contra isBreak
          simp only [isReturnOrFeed, Bool.not_eq_false, Bool.or_eq_true, beq_iff_eq] at isBreak
          rcases isBreak with rfl | rfl <;> exact absurd isBasic (by decide)

namespace Operation

/-- Whether the flag of an operation is made of basic characters and its arguments have no single
quotes. -/
structure IsUnquoted (operation : Operation) : Prop where
  basic : Literal.isBasicText operation.flag
  unquoted : ∀ argument ∈ operation.arguments, '\x27' ∉ argument

theorem IsWrittenAs.isUnquoted {operation written : Operation}
    (isWrittenAs : operation.IsWrittenAs written)
    (isUnquoted : operation.IsUnquoted) : written.IsUnquoted where
  basic := by
    rw [isWrittenAs.flag]
    exact isUnquoted.basic
  unquoted := by
    intro argument member
    cases basic : Literal.isBasicText argument with
    | true => exact Literal.notMem_of_isBasicText basic (by decide)
    | false =>
        have inRead :=
          isWrittenAs.writes.keeps.subset (List.mem_filter.mpr ⟨member, by simp [basic]⟩)
        exact isUnquoted.unquoted argument inRead

theorem IsWrittenAs.filter_words_sublist {operation written : Operation}
    (isWrittenAs : operation.IsWrittenAs written) (basic : Literal.isBasicText operation.flag) :
    ((written.words id).filter (!Literal.isBasicText ·)).Sublist (operation.words id) := by
  rw [words, words, isWrittenAs.flag, List.map_id, List.map_id, List.filter_cons]
  simp only [basic, Bool.not_true, Bool.false_eq_true, if_false]
  exact isWrittenAs.writes.keeps.cons _

theorem filter_allWords_sublist {read written : List Operation}
    (areWritten : List.Forall₂ IsWrittenAs read written)
    (basic : ∀ operation ∈ read, Literal.isBasicText operation.flag) (scopeOpen : Bool) :
    ((allWords id scopeOpen written).filter (!Literal.isBasicText ·)).Sublist
      (read.flatMap (words id)) := by
  induction areWritten generalizing scopeOpen with
  | nil => exact List.Sublist.refl []
  | @cons operation other read written isWrittenAs _ ih =>
      rw [List.forall_mem_cons] at basic
      have first := isWrittenAs.filter_words_sublist basic.1
      have around : ((other.scopedWords id scopeOpen).filter (!Literal.isBasicText ·)).Sublist
          (operation.words id) := by
        have selection : [Flag.regionOpen, Family.scopeTarget].filter (!Literal.isBasicText ·) =
            [] := by decide
        have closing : [Flag.regionClose].filter (!Literal.isBasicText ·) = [] := by decide
        unfold scopedWords
        split
        · rwa [List.filter_append, List.filter_append, selection, closing, List.nil_append,
            List.append_nil]
        · exact first
      rw [allWords, List.filter_append, List.flatMap_cons]
      exact around.append (ih basic.2 _)

section Settled

variable {operation : Operation} {operations : List Operation}

/-- The words of a settled operation are tokens when they are quoted. -/
theorem IsSettled.isClosed_words (settled : operation.IsSettled)
    (isUnquoted : operation.IsUnquoted) :
    ∀ token ∈ operation.quoted.words id, Token.IsClosed token := by
  rw [← map_quote_words isUnquoted.basic]
  intro token member
  rcases List.mem_map.mp member with ⟨word, wordMem, rfl⟩
  rw [words, List.map_id] at wordMem
  rcases List.mem_cons.mp wordMem with rfl | isArgument
  · exact Token.isClosed_quote (ne_nil_of_isFlag settled.writable.isFlag)
      (Literal.notMem_of_isBasicText isUnquoted.basic (by decide))
  · exact Token.isClosed_quote (settled.settles.plain word isArgument).1
      (isUnquoted.unquoted word isArgument)

/-- What an operation was read as is written as a unit exactly if the written operation is one. -/
theorem IsWrittenAs.writesUnit_iff {written : Operation}
    (isWrittenAs : operation.IsWrittenAs written)
    (isUnquoted : operation.IsUnquoted) : operation.effect.WritesUnit ↔
      IsUnit (written.quoted.words id) := by
  have rendered : operation.effect.renderBody = .ok (Text.unwords (written.quoted.words id)) := by
    rw [isWrittenAs.settles.written, quoted, words, List.map_id]
  have closed := isWrittenAs.settles.settled.isClosed_words (isWrittenAs.isUnquoted isUnquoted)
  have tokens := Token.scan_unwords (Token.separable_of_isClosed closed)
  unfold Effect.WritesUnit
  constructor
  · rintro ⟨body, isBody, isUnit⟩
    rw [rendered] at isBody
    rwa [← Except.ok.inj isBody, tokens] at isUnit
  · intro isUnit
    exact ⟨_, rendered, by rwa [tokens]⟩

variable (settled : ∀ operation ∈ operations, operation.IsSettled)
  (areUnquoted : ∀ operation ∈ operations, operation.IsUnquoted)

include areUnquoted in
/-- The words of a command are its words without quotes, quoted. -/
theorem allWords_quote (scopeOpen : Bool) :
    allWords Literal.quote scopeOpen operations =
      (allWords id scopeOpen operations).map Literal.quote := by
  have selection : [Flag.regionOpen, Family.scopeTarget].map Literal.quote =
      [Flag.regionOpen, Family.scopeTarget] := by decide
  have closing : [Flag.regionClose].map Literal.quote = [Flag.regionClose] := by decide
  induction operations generalizing scopeOpen with
  | nil => rfl
  | cons operation operations ih =>
      rw [List.forall_mem_cons] at areUnquoted
      have first : (operation.words id).map Literal.quote = operation.words Literal.quote := by
        simp [words, Literal.quote_of_isBasicText areUnquoted.1.basic]
      rw [allWords, allWords, List.map_append, ih areUnquoted.2, scopedWords, scopedWords]
      split
      · rw [List.map_append, List.map_append, selection, closing, first]
      · rw [first]

include areUnquoted in
/-- The words of a command are those of its operations with quoted arguments. -/
theorem allWords_quote_eq_flatMap (scopeOpen : Bool) :
    allWords Literal.quote scopeOpen operations =
      ((Selection.withScopes scopeOpen operations).map quoted).flatMap (words id) := by
  have basic : ∀ operation ∈ Selection.withScopes scopeOpen operations,
      Literal.isBasicText operation.flag :=
    (Selection.forall_mem_withScopes_iff (by decide) (by decide)).mpr fun operation member =>
      (areUnquoted operation member).basic
  rw [allWords_quote areUnquoted, Selection.allWords_eq, List.map_flatMap, List.flatMap_map]
  exact List.flatMap_congr fun operation member => map_quote_words (basic operation member)

include settled areUnquoted

theorem isClosed_of_mem_allWords (scopeOpen : Bool) :
    ∀ token ∈ allWords Literal.quote scopeOpen operations, Token.IsClosed token := by
  rw [allWords_quote_eq_flatMap areUnquoted, List.forall_mem_flatMap, List.forall_mem_map]
  refine (Selection.forall_mem_withScopes_iff isClosed_selectAll isClosed_reset).mpr
    fun operation member => ?_
  exact (settled operation member).isClosed_words (areUnquoted operation member)

/-- The words of a command make up units exactly if those of each of its operations do. -/
theorem exists_units_allWords_iff (scopeOpen : Bool) :
    (∃ units : List (List Text), (∀ unit ∈ units, IsUnit unit) ∧
        allWords Literal.quote scopeOpen operations = units.flatten) ↔
      ∀ operation ∈ operations, IsUnit (operation.quoted.words id) := by
  have arePlain : ∀ operation ∈ (Selection.withScopes scopeOpen operations).map quoted,
      operation.IsPlain := by
    intro operation member
    rcases List.mem_map.mp member with ⟨other, otherMem, rfl⟩
    exact (Selection.isPlain_of_mem_withScopes settled otherMem).quoted
  rw [allWords_quote_eq_flatMap areUnquoted, exists_units_iff arePlain, List.forall_mem_map]
  exact Selection.forall_mem_withScopes_iff isUnit_selectAll isUnit_reset

/-- A command of clean words is accepted in full exactly if each of its operations is a unit and no
blank character stands at its end. -/
theorem ofText_allWords_iff {scopeOpen : Bool}
    (clean : Cleanup.AreClean (allWords id scopeOpen operations)) :
    Validation.ofText (Text.unwords (allWords Literal.quote scopeOpen operations)) =
        ⟨Text.unwords (allWords Literal.quote scopeOpen operations), []⟩ ↔
      (∀ operation ∈ operations, IsUnit (operation.quoted.words id)) ∧
        ∀ c ∈ (Text.unwords (allWords Literal.quote scopeOpen operations)).getLast?,
          Text.isBlank c = false := by
  have start : ∀ c ∈ (Text.unwords (allWords Literal.quote scopeOpen operations)).head?,
      Cleanup.IsStart c := by
    cases operations with
    | nil => simp [allWords]
    | cons operation operations =>
        rcases exists_cons_scopedWords (settled operation (by simp)) Literal.quote scopeOpen with
          ⟨flag, rest, words, isFlag⟩
        rw [allWords, words, List.cons_append, Text.head?_unwords_cons (ne_nil_of_isFlag isFlag)]
        exact (Token.isStart_of_not_isArgument (isArgument_of_isFlag isFlag)).2
  have cleanText := clean.unwords_map_quote
  rw [← allWords_quote areUnquoted] at cleanText
  rw [Validation.ofText_unwords_iff (isClosed_of_mem_allWords settled areUnquoted scopeOpen)
    cleanText start, exists_units_allWords_iff settled areUnquoted]

end Settled

end Operation

/-! ## Written commands -/

namespace Effect

open Operation

/-- Effects that were read from ordinary words are those of operations of allowed flags, which are
written under their own flags. -/
theorem exists_isWrittenAs_of_ordinary {words : List Text}
    (nonempty : ∀ word ∈ words, word ≠ [])
    (ordinary : ∀ word ∈ words, IsOrdinaryWord word) :
    ∃ read written : List Operation, ofTokens words = read.map Operation.effect ∧
      List.Forall₂ IsWrittenAs read written ∧
        (read.flatMap (Operation.words id)).Sublist words ∧
      ∀ operation ∈ read, operation.IsUnquoted := by
  have arePlain : ∀ operation ∈ ofWords words, operation.IsPlain := fun _ =>
    isPlain_of_mem_ofWords
  rcases exists_collapses arePlain with ⟨read, collapses, fromWords, effects⟩
  rw [ofTokens_ofWords] at effects
  have isOrdinary : ∀ operation ∈ read, ∀ word ∈ operation.words id, word ≠ [] ∧
      IsOrdinaryWord word := by
    intro operation member word inOperation
    have inWords := Selection.mem_of_mem_ofWords (fromWords operation member).1 inOperation
    exact ⟨nonempty word inWords, ordinary word inWords⟩
  have isAllowed : ∀ operation ∈ read, Flag.isAllowed operation.flag := fun operation member =>
    (isOrdinary operation member operation.flag (by simp [Operation.words])).2.isAllowed
      (fromWords operation member).2
  have each : ∀ operation ∈ read, ∃ written, operation.IsWrittenAs written := by
    intro operation member
    refine exists_isWrittenAs (isAllowed operation member) fun argument isArgument => ⟨?_, ?_⟩
    · exact (isOrdinary operation member argument (by simp [Operation.words, isArgument])).1
    · exact (arePlain operation (fromWords operation member).1).plain argument isArgument
  rcases exists_forall₂ each with ⟨written, areWritten⟩
  refine ⟨read, written, effects, areWritten, ?_,
    fun operation member => ⟨?_, fun argument isArgument => ?_⟩⟩
  · refine (collapses.sublist.flatMap (Operation.words id)).trans ?_
    nth_rewrite 2 [← takeApart_append words]
    exact List.sublist_append_right _ _
  · exact Flag.isBasicText_of_isAllowed (isAllowed operation member)
  · exact (isOrdinary operation member argument (by simp [Operation.words, isArgument])).2.unquoted

/-- What was read from ordinary words of a clean text is written as a text that is accepted in full
exactly if each effect is written as a unit and no blank character stands at the end. -/
theorem exists_toCommand_accepted_iff {text : Text} (clean : Cleanup.IsClean text)
    (ordinary : ∀ word ∈ Literal.split text, IsOrdinaryWord word) :
    ∃ written, toCommand (ofCommand text) = .ok written ∧
      (Validation.ofText written = ⟨written, []⟩ ↔
        (∀ effect ∈ ofCommand text, effect.WritesUnit) ∧
          ∀ c ∈ written.getLast?, Text.isBlank c = false) := by
  rcases exists_isWrittenAs_of_ordinary (fun _ => Literal.ne_nil_of_mem_splitFrom) ordinary with
    ⟨read, written, effects, areWritten, inText, areUnquoted⟩
  have effects : ofCommand text = read.map Operation.effect := effects
  have settle : List.Forall₂ SettlesAs (ofCommand text) written := by
    rw [effects, List.forall₂_map_left_iff]
    exact areWritten.imp fun _ _ isWrittenAs => isWrittenAs.settles
  have ofWritten : ∀ operation ∈ written, ∃ other ∈ read, other.IsWrittenAs operation :=
    exists_mem_of_forall₂ areWritten.flip
  have areUnquotedWritten : ∀ operation ∈ written, operation.IsUnquoted := by
    intro operation member
    rcases ofWritten operation member with ⟨other, otherMem, isWrittenAs⟩
    exact isWrittenAs.isUnquoted (areUnquoted other otherMem)
  have cleanWords : Cleanup.AreClean (allWords id false written) := by
    have kept :=
      filter_allWords_sublist areWritten
      (fun operation member => (areUnquoted operation member).basic) false
    exact ((clean.split.sublist inText).sublist kept).of_filter
  refine ⟨_, toCommand_eq settle, ?_⟩
  rw [ofText_allWords_iff (areSettled settle) areUnquotedWritten cleanWords, effects,
    List.forall_mem_map]
  refine and_congr_left fun _ =>
    ⟨fun areUnits operation member => ?_, fun writeUnits operation member => ?_⟩
  · rcases exists_mem_of_forall₂ areWritten operation member with
      ⟨other, otherMem, isWrittenAs⟩
    rw [isWrittenAs.writesUnit_iff (areUnquoted operation member)]
    exact areUnits other otherMem
  · rcases ofWritten operation member with ⟨other, otherMem, isWrittenAs⟩
    rw [← isWrittenAs.writesUnit_iff (areUnquoted other otherMem)]
    exact writeUnits other otherMem

end Effect

end Retouch
