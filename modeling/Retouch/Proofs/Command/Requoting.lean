import Retouch.Proofs.Command.Idempotence
import Retouch.Proofs.Command.Reading
import Retouch.Proofs.Command.Removal

/-!
# Words that are quoted again

A clean text is read as literal words, and the words are quoted and joined again. Reading takes
quotes and backslashes away and quoting brings others, but neither moves an angle bracket, so no
placeholder comes about and the new text is clean. Words without single quotes are tokens of it when
they are quoted, and the text is accepted in full exactly if these tokens make up units and no blank
character stands at its end.
-/

namespace Retouch

namespace Literal

/-! ## Reading words -/

/-- What a written form begins with, if it has no meaning, the value begins with. -/
theorem Reads.isPrefix {front back value : Text} (reads : Reads (front ++ back) value)
    (bare : IsBare front) :
    front <+: value := by
  by_cases front_ne : front = []
  · rw [front_ne]
    exact List.nil_prefix
  · have same : splitFrom ⟨front.reverse, none, false⟩ back =
        State.flush ⟨value.reverse, none, false⟩ := by
      have read := reads [] []
      rwa [List.append_nil, bare.reads, List.append_nil, List.append_nil] at read
    have opened : ∃ word words, splitFrom ⟨front.reverse, none, false⟩ back =
        word :: words ∧
        front.reverse.reverse <+: word :=
      exists_cons_splitFrom (isQuoted_outside _ _) (by simpa using front_ne) back
    rcases opened with ⟨word, words, split, isPrefix⟩
    rw [same] at split
    have isWord : word = value := by
      have member : word ∈ State.flush ⟨value.reverse, none, false⟩ := by simp [split]
      simpa using eq_of_mem_flush member
    rwa [List.reverse_reverse, isWord] at isPrefix

/-- What stands before a colon is read as it is written if it has no meaning. -/
theorem Reads.before_eq {written value : Text} (reads : Reads written value)
    (bare : IsBare (Text.before ':' written)) :
    Text.before ':' value = Text.before ':' written := by
  have notColon := Text.notMem_before ':' written
  rcases Text.before_cases ':' written with all | ⟨rest, parts⟩
  · rw [all] at bare
    rw [reads.unique bare.reads]
  · -- The colon has no meaning either, so the value begins with it and what stands before it.
    rw [parts, ← List.singleton_append, ← List.append_assoc] at reads
    rcases reads.isPrefix (bare.append (by decide)) with ⟨others, isValue⟩
    rw [← isValue, List.append_assoc, List.singleton_append, Text.before_append notColon]

end Literal

namespace Cleanup

/-- Taking away a character that closes no placeholder brings none about. -/
theorem HasNoPlaceholder.without {front back : Text} {c : Char}
    (absent : HasNoPlaceholder (front ++ c :: back))
    (other : c ≠ '>') : HasNoPlaceholder (front ++ back) := by
  induction front with
  | nil => exact absent.2
  | cons d front ih =>
      refine ⟨fun opening => ?_, ih absent.2⟩
      rcases absent.1 opening with closed | never
      · cases front with
        | nil => exact absurd (by simpa using closed) other
        | cons e front => exact .inl (by simpa using closed)
      · exact .inr fun member => never (List.Sublist.mem member (by simp))

/-- The words of a text without placeholders. -/
theorem HasNoPlaceholder.splitFrom {state : Literal.State} {text : Text} (isQuoted : state.IsQuoted)
    (absent : HasNoPlaceholder (state.current.reverse ++ text)) :
    HaveNoPlaceholder (Literal.splitFrom state text) := by
  induction text generalizing state with
  | nil =>
      rw [Literal.splitFrom, Literal.State.flush]
      split
      · exact ⟨by simp, .nil⟩
      · exact ⟨by simpa using absent, List.pairwise_singleton _ _⟩
  | cons c rest ih =>
      rcases Literal.step_cases isQuoted c with
        ⟨isQuotedNext, ⟨nothing, current⟩ | ⟨nothing, current, mark⟩ |
          ⟨flushed, current, separates⟩⟩
      · rw [Literal.splitFrom, nothing, List.nil_append]
        exact ih isQuotedNext (by simpa [current] using absent)
      · rw [Literal.splitFrom, nothing, List.nil_append]
        have other : c ≠ '>' := by rintro rfl; exact absurd mark (by decide)
        exact ih isQuotedNext (by simpa [current] using absent.without other)
      · have other : c ≠ '>' := by rintro rfl; exact absurd separates (by decide)
        have absentRest : HaveNoPlaceholder (Literal.splitFrom (Literal.step state c).1 rest) :=
          ih isQuotedNext (by simpa [current] using absent.of_append.2.2)
        rw [Literal.splitFrom, flushed, Literal.State.flush]
        split
        · exact absentRest
        · refine .cons absent (fun _ => by simpa using other) absentRest
            fun word member d inside => ?_
          have inRest := Literal.mem_of_mem_splitFrom isQuotedNext member inside
          simp only [current, List.reverse_nil, List.nil_append] at inRest
          exact List.mem_cons_of_mem _ inRest

theorem HasNoPlaceholder.split {text : Text} (absent : HasNoPlaceholder text) :
    HaveNoPlaceholder (Literal.split text) :=
  HasNoPlaceholder.splitFrom (by simp [Literal.State.IsQuoted]) absent

/-! ## Quoting words -/

theorem hasNoPlaceholder_of_notMem {text : Text} (absent : '<' ∉ text) :
    HasNoPlaceholder text := by
  induction text with
  | nil => trivial
  | cons c rest ih =>
      simp only [List.mem_cons, not_or] at absent
      exact ⟨fun opening => absurd opening.symm absent.1, ih absent.2⟩

theorem LeavesOpen.mem {text : Text} (leavesOpen : LeavesOpen text) : '<' ∈ text := by
  induction text with
  | nil => exact leavesOpen.elim
  | cons c rest ih =>
      rcases leavesOpen with ⟨rfl, -⟩ | later
      · exact List.mem_cons_self
      · exact List.mem_cons_of_mem _ (ih later)

/-- Words without angle brackets do not matter. -/
theorem HaveNoPlaceholder.of_filter {words : List Text} {keep : Text → Bool}
    (absent : HaveNoPlaceholder (words.filter keep))
    (others : ∀ word ∈ words, keep word = false → '<' ∉ word ∧ '>' ∉ word) :
    HaveNoPlaceholder words where
  each := by
    intro word member
    cases isKept : keep word with
    | true => exact absent.each word (List.mem_filter.mpr ⟨member, isKept⟩)
    | false => exact hasNoPlaceholder_of_notMem (others word member isKept).1
  apart := by
    refine (List.pairwise_filter.mp absent.apart).imp_of_mem ?_
    intro earlier later earlierMem laterMem apart opens closes
    have keepsEarlier : keep earlier := by
      by_contra left
      exact (others earlier earlierMem (by simpa using left)).1 opens.mem
    have keepsLater : keep later := by
      by_contra left
      exact (others later laterMem (by simpa using left)).2 closes
    exact apart keepsEarlier keepsLater opens closes

end Cleanup

namespace Literal

theorem mem_of_mem_escapeChar {c d : Char} (member : d ∈ escapeChar c) : d = '\\' ∨ d = c := by
  unfold escapeChar at member
  split at member <;> simp at member
  · exact member
  · exact .inr member

theorem mem_of_mem_quote {value : Text} {c : Char} (member : c ∈ quote value) :
    c = '\x27' ∨ c = '\\' ∨ c ∈ value := by
  unfold quote at member
  split at member
  · simp only [List.cons_append, List.mem_cons, List.mem_append, List.mem_flatMap,
      List.not_mem_nil, or_false] at member
    rcases member with isQuote | ⟨d, inValue, escaped⟩ | isQuote
    · exact .inl isQuote
    · rcases mem_of_mem_escapeChar escaped with isBackslash | rfl
      · exact .inr (.inl isBackslash)
      · exact .inr (.inr inValue)
    · exact .inl isQuote
  · exact .inr (.inr member)

theorem head?_flatMap_escapeChar {text : Text} (closed : text.head? = some '>') (rest : Text) :
    (text.flatMap escapeChar ++ rest).head? = some '>' := by
  rcases List.head?_eq_some_iff.mp closed with ⟨others, rfl⟩
  rfl

end Literal

namespace Cleanup

open Literal

theorem HasNoPlaceholder.flatMap_escapeChar {text : Text} (absent : HasNoPlaceholder text) :
    HasNoPlaceholder (text.flatMap escapeChar ++ ['\x27']) ∧
      (LeavesOpen (text.flatMap escapeChar ++ ['\x27']) → LeavesOpen text) := by
  induction text with
  | nil =>
      refine ⟨⟨by decide, trivial⟩, fun leavesOpen => ?_⟩
      exact leavesOpen.elim (fun opening => absurd opening.1 (by decide)) id
  | cons c text ih =>
      rcases ih absent.2 with ⟨absentText, opensText⟩
      have front : HasNoPlaceholder (c :: (text.flatMap escapeChar ++ ['\x27'])) := by
        refine ⟨fun opening => (absent.1 opening).imp (head?_flatMap_escapeChar · _)
          fun never member => ?_, absentText⟩
        simp only [List.mem_append, List.mem_flatMap, List.mem_singleton] at member
        rcases member with ⟨d, inText, escaped⟩ | isQuote
        · rcases mem_of_mem_escapeChar escaped with isBackslash | rfl
          · exact absurd isBackslash (by decide)
          · exact never inText
        · exact absurd isQuote (by decide)
      have opens : LeavesOpen (c :: (text.flatMap escapeChar ++ ['\x27'])) →
          LeavesOpen (c :: text) := by
        rintro (⟨opening, following⟩ | later)
        · exact .inl ⟨opening, fun closed => following (head?_flatMap_escapeChar closed _)⟩
        · exact .inr (opensText later)
      rw [List.flatMap_cons, List.append_assoc, escapeChar]
      split
      · exact ⟨⟨fun opening => absurd opening (by decide), front⟩,
          fun leavesOpen => leavesOpen.elim (fun opening => absurd opening.1 (by decide)) opens⟩
      · exact ⟨front, opens⟩

theorem HasNoPlaceholder.quote {value : Text} (absent : HasNoPlaceholder value) :
    HasNoPlaceholder (quote value) ∧ (LeavesOpen (quote value) → LeavesOpen value) := by
  unfold Literal.quote
  split
  · rcases absent.flatMap_escapeChar with ⟨absentEscaped, opens⟩
    exact ⟨⟨fun opening => absurd opening (by decide), absentEscaped⟩,
      fun leavesOpen => leavesOpen.elim (fun opening => absurd opening.1 (by decide)) opens⟩
  · exact ⟨absent, id⟩

theorem HaveNoPlaceholder.map_quote {words : List Text} (absent : HaveNoPlaceholder words) :
    HaveNoPlaceholder (words.map Literal.quote) where
  each := by
    intro quoted member
    rcases List.mem_map.mp member with ⟨word, wordMem, rfl⟩
    exact (absent.each word wordMem).quote.1
  apart := by
    rw [List.pairwise_map]
    refine absent.apart.imp_of_mem fun {earlier later} earlierMem _ apart opens closes => ?_
    refine apart ((absent.each earlier earlierMem).quote.2 opens) ?_
    rcases mem_of_mem_quote closes with isQuote | isBackslash | inLater
    · exact absurd isQuote (by decide)
    · exact absurd isBackslash (by decide)
    · exact inLater

/-- Words in which validation's passes find nothing. -/
structure AreClean (words : List Text) : Prop where
  noPlaceholder : HaveNoPlaceholder words
  plain : ∀ word ∈ words, ∀ c ∈ word, c ≠ backtick ∧ isReturnOrFeed c = false

/-- The words of a clean text are clean. -/
theorem IsClean.split {text : Text} (clean : IsClean text) : AreClean (Literal.split text) where
  noPlaceholder := clean.noPlaceholder.split
  plain := by
    intro word member c inside
    have inText := mem_of_mem_split member inside
    exact ⟨fun same => clean.noBacktick (same ▸ inText), clean.noBreak c inText⟩

theorem AreClean.sublist {words some : List Text} (clean : AreClean words)
    (sublist : some.Sublist words) :
    AreClean some where
  noPlaceholder := clean.noPlaceholder.sublist sublist
  plain := fun word member => clean.plain word (sublist.subset member)

/-- Clean words make a clean text when they are quoted and joined. -/
theorem AreClean.unwords_map_quote {words : List Text} (clean : AreClean words) :
    IsClean (Text.unwords (words.map Literal.quote)) := by
  have characters : ∀ c ∈ Text.unwords (words.map Literal.quote), c ≠ backtick ∧
      isReturnOrFeed c = false := by
    intro c member
    rcases Text.mem_unwords member with rfl | ⟨quoted, quotedMem, inside⟩
    · decide
    · rcases List.mem_map.mp quotedMem with ⟨word, wordMem, rfl⟩
      rcases mem_of_mem_quote inside with rfl | rfl | inWord
      · decide
      · decide
      · exact clean.plain word wordMem c inWord
  exact ⟨fun member => (characters backtick member).1 rfl,
    fun c member => (characters c member).2, clean.noPlaceholder.map_quote.unwords⟩

end Cleanup

/-! ## Reading quoted words -/

/-- A value without single quotes is one token when it is quoted. -/
theorem Token.isClosed_quote {value : Text} (nonempty : value ≠ [])
    (unquoted : '\x27' ∉ value) :
    IsClosed (Literal.quote value) := by
  unfold Literal.quote
  split
  · refine .literal (by decide) fun member => ?_
    rcases List.mem_flatMap.mp member with ⟨c, inValue, escaped⟩
    rcases Literal.mem_of_mem_escapeChar escaped with isBackslash | rfl
    · exact absurd isBackslash (by decide)
    · exact unquoted inValue
  · next unspecial =>
      have plain : ∀ c ∈ value, isQuote c = false ∧ isPlain c := by
        intro c member
        have notSpecial : Literal.isSpecial c = false := by
          simp only [List.any_eq_true, not_exists, not_and, Bool.not_eq_true] at unspecial
          exact unspecial c member
        simp only [Literal.isSpecial, Bool.or_eq_false_iff] at notSpecial
        exact ⟨notSpecial.1.2, isPlain_iff.mpr notSpecial.1.1⟩
      rcases List.exists_cons_of_ne_nil nonempty with ⟨c, rest, rfl⟩
      exact .word (plain c (by simp)).1 fun d member => (plain d member).2

theorem Token.separable_of_isClosed {tokens : List Text}
    (closed : ∀ token ∈ tokens, IsClosed token) :
    Separable tokens := by
  induction tokens with
  | nil => exact .nil
  | cons token tokens ih =>
      rw [List.forall_mem_cons] at closed
      exact .cons closed.1 (ih closed.2)

theorem Token.IsClosed.isSeparator_getLast? {token : Text} (isClosed : IsClosed token) :
    ∀ c ∈ token.getLast?, isSeparator c = false := by
  intro c last
  cases isClosed with
  | group delimiter =>
      obtain rfl := Option.some.inj last
      exact isSeparator_of_isParenthesis delimiter
  | literal isQuote inside =>
      rw [List.getLast?_concat] at last
      obtain rfl := Option.some.inj last
      exact isSeparator_of_isQuote isQuote
  | word unquoted plain => exact (isPlain_iff.mp (plain c (List.mem_of_mem_getLast? last))).1

namespace Validation

/-- A clean text of tokens that end by themselves is accepted in full exactly if the tokens make up
units and no blank character stands at the end. -/
theorem ofText_unwords_iff {tokens : List Text}
    (closed : ∀ token ∈ tokens, Token.IsClosed token)
    (clean : Cleanup.IsClean (Text.unwords tokens))
    (start : ∀ c ∈ (Text.unwords tokens).head?, Cleanup.IsStart c) :
    ofText (Text.unwords tokens) = ⟨Text.unwords tokens, []⟩ ↔
      (∃ units : List (List Text), (∀ unit ∈ units, IsUnit unit) ∧
          tokens = units.flatten) ∧
        ∀ c ∈ (Text.unwords tokens).getLast?, Text.isBlank c = false := by
  have separable := Token.separable_of_isClosed closed
  have notSeparator : ∀ c ∈ (Text.unwords tokens).getLast?, Token.isSeparator c = false := by
    apply Text.forall_getLast?_unwords
    · intro token member
      exact separable.ne_nil member
    · intro token member
      exact (closed token member).isSeparator_getLast?
  have tokens_eq (last : ∀ c ∈ (Text.unwords tokens).getLast?, Text.isBlank c = false) :
      Token.ofText (Cleanup.forValidation (Text.unwords tokens)) = tokens := by
    rw [clean.forValidation_eq start, Text.trimEnd_eq_self_iff.mpr last]
    exact Token.ofText_unwords separable (fun c member => (start c member).isBlank) last
  constructor
  · intro accepted
    have last := isBlank_getLast?_of_command_eq clean start notSeparator
      (congrArg (·.command) accepted)
    refine ⟨?_, last⟩
    rw [← tokens_eq last]
    exact (ofText_accepts _).1.mp (congrArg (·.stripped) accepted)
  · rintro ⟨⟨units, areUnits, isFlatten⟩, last⟩
    rw [ofText, tokens_eq last, isFlatten, ofBlocks_blocks_flatten areUnits]

end Validation

end Retouch
