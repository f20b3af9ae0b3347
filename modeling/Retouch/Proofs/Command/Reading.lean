import Retouch.Proofs.Command.Forms
import Retouch.Text.Word

/-!
# What a reader keeps

A reader of literal arguments takes a character into the current argument, passes over a quote or a
backslash, or ends the argument at a separator. So the arguments are made of the characters of the
text in their order, of which only quotes, backslashes and separators can be lost, and an argument
that is under way is never given up.
-/

namespace Retouch.Literal

/-- A reader takes a character into the current argument, passes over a mark, or ends the argument
at a separator. -/
theorem step_cases {state : State} (isQuoted : state.IsQuoted) (c : Char) :
    (step state c).1.IsQuoted ∧
    (((step state c).2 = [] ∧ (step state c).1.current = c :: state.current) ∨
      ((step state c).2 = [] ∧ (step state c).1.current = state.current ∧ isMark c) ∨
      ((step state c).2 = state.flush ∧ (step state c).1.current = [] ∧
          Token.isSeparator c)) := by
  cases ends : state.isNeutral && Token.isSeparator c with
  | true =>
      rw [step_of_ends ends]
      exact ⟨isQuoted_start, .inr (.inr ⟨rfl, rfl, (Bool.and_eq_true_iff.mp ends).2⟩)⟩
  | false =>
      obtain ⟨isQuotedNext, current | ⟨current, mark⟩⟩ := step_takes isQuoted ends
      · exact ⟨isQuotedNext, .inl ⟨step_of_goesOn ends, current⟩⟩
      · exact ⟨isQuotedNext, .inr (.inl ⟨step_of_goesOn ends, current, mark⟩)⟩

theorem eq_of_mem_flush {state : State} {word : Text} (member : word ∈ state.flush) :
    word = state.current.reverse := by
  unfold State.flush at member
  split at member
  · simp at member
  · exact List.mem_singleton.mp member

theorem flatten_flush (state : State) : state.flush.flatten = state.current.reverse := by
  unfold State.flush
  split
  · next none => simp [List.isEmpty_iff.mp none]
  · simp

/-- The arguments are made of characters of the text in their order. -/
theorem flatten_splitFrom_sublist {state : State} (isQuoted : state.IsQuoted) (text : Text) :
    (splitFrom state text).flatten.Sublist (state.current.reverse ++ text) := by
  induction text generalizing state with
  | nil => rw [splitFrom, flatten_flush, List.append_nil]
  | cons c rest ih =>
      rcases step_cases isQuoted c with
        ⟨isQuotedNext,
          ⟨nothing, current⟩ | ⟨nothing, current, -⟩ | ⟨flushed, current, -⟩⟩ <;>
        have later := ih isQuotedNext <;> rw [current] at later <;>
          rw [splitFrom, List.flatten_append]
      · rw [nothing]
        simpa using later
      · rw [nothing]
        exact later.trans ((List.sublist_cons_self c rest).append_left _)
      · rw [flushed, flatten_flush]
        exact (later.trans (List.sublist_cons_self c rest)).append_left _

theorem isMark_of_isSeparator {c : Char} (separates : Token.isSeparator c) : isMark c = false := by
  simp only [Token.isSeparator, Bool.or_eq_true, beq_iff_eq] at separates
  rcases separates with rfl | rfl <;> decide

theorem isWordChar_of_isMark {c : Char} (mark : isMark c) : Text.isWordChar c = false := by
  simp only [isMark, Token.isQuote, Bool.or_eq_true, beq_iff_eq] at mark
  rcases mark with (rfl | rfl) | rfl <;> decide +kernel

theorem isWordChar_of_isSeparator {c : Char} (separates : Token.isSeparator c) :
    Text.isWordChar c = false := by
  simp only [Token.isSeparator, Bool.or_eq_true, beq_iff_eq] at separates
  rcases separates with rfl | rfl <;> decide +kernel

/-- Whether a character has no meaning to a reader wherever it stands. -/
def isSolid (c : Char) : Bool :=
  !isMark c && !Token.isSeparator c

theorem isSolid_of_isWordChar {c : Char} (isWord : Text.isWordChar c) : isSolid c := by
  rw [isSolid, Bool.and_eq_true, Bool.not_eq_true', Bool.not_eq_true']
  constructor
  · by_contra mark
    simp [isWordChar_of_isMark (by simpa using mark)] at isWord
  · by_contra separates
    simp [isWordChar_of_isSeparator (by simpa using separates)] at isWord

theorem filter_flatten_splitFrom {state : State} (isQuoted : state.IsQuoted) (text : Text) :
    (splitFrom state text).flatten.filter isSolid =
      (state.current.reverse ++ text).filter isSolid := by
  induction text generalizing state with
  | nil => rw [splitFrom, flatten_flush, List.append_nil]
  | cons c rest ih =>
      rcases step_cases isQuoted c with
        ⟨isQuotedNext,
          ⟨nothing, current⟩ | ⟨nothing, current, mark⟩ | ⟨flushed, current,
          separates⟩⟩ <;>
        have later := ih isQuotedNext <;> rw [current] at later <;>
          rw [splitFrom, List.flatten_append]
      · rw [nothing, List.flatten_nil, List.nil_append, later, List.reverse_cons,
          List.append_assoc, List.singleton_append]
      · have lost : isSolid c = false := by simp [isSolid, mark]
        rw [nothing, List.flatten_nil, List.nil_append, later, List.filter_append,
          List.filter_append, List.filter_cons_of_neg (by simp [lost])]
      · have lost : isSolid c = false := by simp [isSolid, separates]
        rw [flushed, flatten_flush, List.filter_append, List.filter_append, later,
          List.filter_cons_of_neg (by simp [lost])]
        rfl

theorem mem_of_mem_splitFrom {state : State} {text word : Text} {c : Char}
    (isQuoted : state.IsQuoted)
    (member : word ∈ splitFrom state text) (inside : c ∈ word) :
    c ∈ state.current.reverse ++ text :=
  (flatten_splitFrom_sublist isQuoted text).subset (List.mem_flatten_of_mem member inside)

theorem mem_of_mem_split {text word : Text} {c : Char} (member : word ∈ split text)
    (inside : c ∈ word) :
    c ∈ text :=
  mem_of_mem_splitFrom isQuoted_start member inside

/-- An argument that is under way begins the first one that is read. -/
theorem exists_cons_splitFrom {state : State} (isQuoted : state.IsQuoted)
    (some : state.current ≠ []) (text : Text) :
    ∃ word words, splitFrom state text = word :: words ∧ state.current.reverse <+: word := by
  have flush : state.flush = [state.current.reverse] := by simp [State.flush, some]
  induction text generalizing state with
  | nil => exact ⟨_, [], flush, List.prefix_refl _⟩
  | cons c rest ih =>
      rcases step_cases isQuoted c with
        ⟨isQuotedNext, ⟨nothing, current⟩ | ⟨nothing, current, -⟩ | ⟨flushed, -, -⟩⟩
      · rcases ih isQuotedNext (by simp [current]) (by simp [State.flush, current]) with
          ⟨word, words, split, isPrefix⟩
        refine ⟨word, words, by rw [splitFrom, nothing, split, List.nil_append], ?_⟩
        rw [current, List.reverse_cons] at isPrefix
        exact (List.prefix_append _ _).trans isPrefix
      · rcases ih isQuotedNext (by simpa [current] using some)
            (by simpa [State.flush, current] using some) with
          ⟨word, words, split, isPrefix⟩
        exact ⟨word, words, by rw [splitFrom, nothing, split, List.nil_append],
          by rwa [current] at isPrefix⟩
      · exact ⟨_, _, by rw [splitFrom, flushed, flush, List.singleton_append],
          List.prefix_refl _⟩

end Retouch.Literal
