import Retouch.Invocation
import Retouch.Proofs.Command.Reading
import Retouch.Proofs.Command.Tokenization

/-!
# Commands without arguments

An empty command is replaced, so that the engine has something to do. But what is replaced is an
empty text, and the engine gets the arguments that are read from it: a text that is not empty can
have none, if it is made of separators, empty literals, and a quote or a backslash at its end that
waits for more. Exactly then an invocation has nothing between its fixed stages.
-/

namespace Retouch

namespace Literal

/-- Whether there is nothing in a text that a reader takes. -/
inductive IsHollow : Text → Prop
  | nil : IsHollow []
  /-- A separator ends no argument. -/
  | separator {c : Char} {rest : Text} (separates : Token.isSeparator c) (later : IsHollow rest) :
      IsHollow (c :: rest)
  /-- A literal has nothing in it. -/
  | literal {quote : Char} {rest : Text} (isQuote : Token.isQuote quote) (later : IsHollow rest) :
      IsHollow (quote :: quote :: rest)
  | opening {quote : Char} (isQuote : Token.isQuote quote) : IsHollow [quote]
  /-- A backslash has no character to take at the end. -/
  | escaping : IsHollow ['\\']
  /-- The same within a literal. -/
  | openingAndEscaping {quote : Char} (isQuote : Token.isQuote quote) : IsHollow [quote, '\\']

theorem splitFrom_ne_nil {state : State} (isQuoted : state.IsQuoted) (some : state.current ≠ [])
    (text : Text) :
    splitFrom state text ≠ [] := by
  rcases exists_cons_splitFrom isQuoted some text with ⟨word, words, split_eq, -⟩
  simp [split_eq]

theorem split_separator {c : Char} (separates : Token.isSeparator c) (rest : Text) :
    split (c :: rest) = split rest := by
  have ended : step {} c = ({}, State.flush {}) :=
    step_of_ends (by simp [State.isNeutral, separates])
  rw [split, splitFrom, ended]
  rfl

theorem split_quote {quote : Char} (isQuote : Token.isQuote quote) (rest : Text) :
    split (quote :: rest) = splitFrom ⟨[], some quote, false⟩ rest := by
  rcases Token.isQuote_iff.mp isQuote with rfl | rfl <;> rfl

theorem begins_of_split_eq_nil {c : Char} {rest : Text} (nothing : split (c :: rest) = []) :
    Token.isSeparator c ∨ Token.isQuote c ∨ (c = '\\' ∧ rest = []) := by
  by_contra! taken
  rcases taken with ⟨noSeparator, noQuote, inside⟩
  by_cases escapes : c = '\\'
  · subst escapes
    rcases List.exists_cons_of_ne_nil (inside rfl) with ⟨d, more, rfl⟩
    exact splitFrom_ne_nil (isQuoted_outside _ _) (by simp) more
      (show splitFrom ⟨[d], none, false⟩ more = [] from nothing)
  · rw [split, splitFrom_bare escapes (by simpa using noQuote) (by simpa using noSeparator)]
      at nothing
    exact splitFrom_ne_nil (isQuoted_outside _ _) (by simp) rest nothing

/-- What is read as no arguments within a literal closes it or is at its end. -/
theorem within_of_splitFrom_eq_nil {quote : Char} (isQuote : Token.isQuote quote) {text : Text}
    (nothing : splitFrom ⟨[], some quote, false⟩ text = []) :
    text = [] ∨ text = ['\\'] ∨ ∃ rest, text = quote :: rest ∧ split rest = [] := by
  rcases text with _ | ⟨c, rest⟩
  · exact .inl rfl
  by_cases escapes : c = '\\'
  · subst escapes
    rcases rest with _ | ⟨d, more⟩
    · exact .inr (.inl rfl)
    · exact absurd (show splitFrom ⟨[d], some quote, false⟩ more = [] from nothing)
        (splitFrom_ne_nil (isQuoted_within isQuote _ _) (by simp) more)
  · by_cases closes : c = quote
    · subst closes
      have closed : step ⟨[], some c, false⟩ c = ({}, []) := by simp [step, escapes]
      rw [splitFrom, closed, List.nil_append] at nothing
      exact .inr (.inr ⟨rest, rfl, nothing⟩)
    · rw [splitFrom_within escapes closes] at nothing
      exact absurd nothing (splitFrom_ne_nil (isQuoted_within isQuote _ _) (by simp) rest)

theorem isHollow_of_split_eq_nil : ∀ {text : Text}, split text = [] → IsHollow text
  | [], _ => .nil
  | c :: rest, nothing => by
      rcases begins_of_split_eq_nil nothing with separates | isQuote | ⟨rfl, rfl⟩
      · rw [split_separator separates] at nothing
        exact .separator separates (isHollow_of_split_eq_nil nothing)
      · rw [split_quote isQuote] at nothing
        rcases within_of_splitFrom_eq_nil isQuote nothing with
          rfl | rfl | ⟨more, rfl, nothingMore⟩
        · exact .opening isQuote
        · exact .openingAndEscaping isQuote
        · exact .literal isQuote (isHollow_of_split_eq_nil nothingMore)
      · exact .escaping
termination_by text => text.length

/-- A text is read as no arguments exactly if it is hollow. -/
theorem split_eq_nil_iff {text : Text} : split text = [] ↔ IsHollow text := by
  refine ⟨isHollow_of_split_eq_nil, fun hollow => ?_⟩
  induction hollow with
  | nil => rfl
  | separator separates later ih => rw [split_separator separates, ih]
  | literal isQuote later ih => rcases Token.isQuote_iff.mp isQuote with rfl | rfl <;> exact ih
  | opening isQuote => rcases Token.isQuote_iff.mp isQuote with rfl | rfl <;> rfl
  | escaping => rfl
  | openingAndEscaping isQuote => rcases Token.isQuote_iff.mp isQuote with rfl | rfl <;> rfl

instance (text : Text) : Decidable (IsHollow text) :=
  decidable_of_iff (split text = []) split_eq_nil_iff

end Literal

namespace Invocation

/-- Behind the six arguments of its fixed beginning an invocation goes on at once with its fixed end
exactly if the cleaned command is not empty and nothing in it is taken by a reader. -/
theorem drop_build_eq_outputStage_iff (command : Text) (width height : Int) (isExport : Bool) :
    (build command width height isExport).drop 6 = outputStage width height isExport ↔
      Cleanup.forEngine command ≠ [] ∧ Literal.IsHollow (Cleanup.forEngine command) := by
  have behind : (build command width height isExport).drop 6 =
      userStage command ++ outputStage width height isExport := rfl
  rw [behind, List.append_left_eq_self, userStage, ← Literal.split_eq_nil_iff]
  cases cleaned : Cleanup.forEngine command with
  | nil =>
      -- the fallback stands in for an empty command
      have given : Literal.split fallback ≠ [] := by decide
      simp [given]
  | cons c rest => simp

/-- An empty literal, an open quote and a lone backslash are commands for which the engine gets no
operation. -/
theorem drop_build_hollow :
    (build "''" 64 48 false).drop 6 = outputStage 64 48 false ∧
      (build "```'' \x22```" 64 48 true).drop 6 = outputStage 64 48 true ∧
      (build "\\" 64 48 true).drop 6 = outputStage 64 48 true := by
  decide +kernel

end Invocation

end Retouch
