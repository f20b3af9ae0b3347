import Mathlib.Data.List.TakeWhile
import Retouch.Command.Token
import Retouch.Proofs.Text.Join
import Retouch.Proofs.Text.Trim

/-!
# Tokens of joined tokens

A token of a text is a group delimiter, a literal up to its closing quote, or a plain word; only the
last token may be a literal whose quote stays open. Each of these is read as one token again, and
all but an open literal also when a space follows, so a list of tokens is what its join is read as.
Reading loses nothing but separators.
-/

namespace Retouch.Token

/-- Tokens that end by themselves, whatever follows after a space. -/
inductive IsClosed : Text → Prop where
  | group {c : Char} (delimiter : isParenthesis c) : IsClosed [c]
  /-- A literal up to its closing quote. -/
  | literal {quote : Char} {body : Text} (isQuote : isQuote quote) (inside : quote ∉ body) :
      IsClosed (quote :: body ++ [quote])
  | word {c : Char} {rest : Text} (unquoted : isQuote c = false)
      (plain : ∀ d ∈ c :: rest, isPlain d) :
      IsClosed (c :: rest)

/-- A literal whose quote stays open. -/
inductive IsOpen : Text → Prop where
  | literal {quote : Char} {body : Text} (isQuote : isQuote quote) (inside : quote ∉ body) :
      IsOpen (quote :: body)

/-- Lists of tokens of which all end by themselves, the last one possibly excepted. -/
inductive Separable : List Text → Prop where
  | nil : Separable []
  | last {token : Text} (isOpen : IsOpen token) : Separable [token]
  | cons {token : Text} {rest : List Text} (isClosed : IsClosed token)
      (separable : Separable rest) :
      Separable (token :: rest)

theorem isQuote_iff {c : Char} : isQuote c = true ↔ c = '\x27' ∨ c = '\x22' := by
  simp [isQuote]

theorem isSeparator_of_isQuote {c : Char} (quote : isQuote c) : isSeparator c = false := by
  rcases isQuote_iff.mp quote with rfl | rfl <;> decide

theorem isSeparator_of_isParenthesis {c : Char} (parenthesis : isParenthesis c) :
    isSeparator c = false := by
  simp only [isParenthesis, Bool.or_eq_true, beq_iff_eq] at parenthesis
  rcases parenthesis with rfl | rfl <;> decide

theorem isQuote_of_isParenthesis {c : Char} (parenthesis : isParenthesis c) :
    isQuote c = false := by
  simp only [isParenthesis, Bool.or_eq_true, beq_iff_eq] at parenthesis
  rcases parenthesis with rfl | rfl <;> decide

theorem isSeparator_of_not_isBlank {c : Char} (notBlank : Text.isBlank c = false) :
    isSeparator c = false := by
  by_contra separator
  simp only [isSeparator, Bool.not_eq_false, Bool.or_eq_true, beq_iff_eq] at separator
  rcases separator with rfl | rfl <;> simp [Text.isBlank_space, Text.isBlank_tab] at notBlank

theorem isPlain_iff {c : Char} :
    isPlain c = true ↔ isSeparator c = false ∧ isParenthesis c = false := by
  simp [isPlain]

theorem isGroup_iff {token : Text} : isGroup token = true ↔ token = groupOpen ∨
    token = groupClose := by
  simp [isGroup]

theorem exists_head?_of_isFlag {token : Text} (isFlag : Token.isFlag token) :
    ∃ c ∈ token.head?, c = '-' ∨ c = '+' := by
  unfold Token.isFlag at isFlag
  split at isFlag
  · next sign second rest =>
      simp only [Bool.and_eq_true, Bool.or_eq_true, beq_iff_eq] at isFlag
      exact ⟨sign, rfl, isFlag.1.1⟩
  · simp at isFlag

/-- The arguments before a token that is no argument are what a flag finds behind it. -/
theorem argumentRun_append {arguments rest : List Text}
    (plain : ∀ argument ∈ arguments, isArgument argument)
    (stop : ∀ token ∈ rest.head?, isArgument token = false) :
    argumentRun (arguments ++ rest) = arguments := by
  have stopped : rest.takeWhile isArgument = [] := by
    cases rest with
    | nil => rfl
    | cons token rest => simp [stop token (by simp)]
  rw [argumentRun, List.takeWhile_append_of_pos plain, stopped, List.append_nil]

/-- Whether a run of arguments is the whole run: what stands behind it begins with no argument. -/
structure IsWholeRun (run following : List Text) : Prop where
  plain : ∀ argument ∈ run, isArgument argument
  stop : ∀ token ∈ following.head?, isArgument token = false

theorem argumentRun_append_of_plain {arguments rest : List Text}
    (plain : ∀ argument ∈ arguments, isArgument argument) :
    argumentRun (arguments ++ rest) = arguments ++ argumentRun rest :=
  List.takeWhile_append_of_pos plain

theorem argumentRun_append_eq_iff {arguments rest : List Text} :
    argumentRun (arguments ++ rest) = arguments ↔ IsWholeRun arguments rest := by
  constructor
  · intro isRun
    have plain : ∀ argument ∈ arguments, isArgument argument := by
      intro argument member
      rw [← isRun] at member
      exact List.mem_takeWhile_imp member
    refine ⟨plain, fun token isNext => ?_⟩
    rw [argumentRun_append_of_plain plain, List.append_right_eq_self] at isRun
    cases rest with
    | nil => simp at isNext
    | cons next rest =>
        rcases Option.some.inj isNext with rfl
        simpa [argumentRun, List.takeWhile_cons] using isRun
  · intro whole
    exact argumentRun_append whole.plain whole.stop

/-- What follows a list of tokens does not change its first arguments, unless it begins with one. -/
theorem argumentRun_append_of_stop {tokens rest : List Text}
    (stop : ∀ token ∈ rest.head?, isArgument token = false) :
    argumentRun (tokens ++ rest) = argumentRun tokens := by
  induction tokens with
  | nil =>
      have plain : ∀ argument ∈ ([] : List Text), isArgument argument := by simp
      exact argumentRun_append plain stop
  | cons token tokens ih =>
      simp only [argumentRun, List.cons_append, List.takeWhile_cons] at ih ⊢
      rw [ih]

theorem drop_argumentRun_append (tokens rest : List Text) :
    (tokens ++ rest).drop (argumentRun tokens).length = tokens.dropWhile isArgument ++ rest := by
  induction tokens with
  | nil => rfl
  | cons token tokens ih =>
      cases isArgument : Token.isArgument token with
      | true => simpa [argumentRun, isArgument] using ih
      | false => simp [argumentRun, isArgument]

/-- The tokens behind the first arguments begin with no argument. -/
theorem isArgument_head?_dropWhile (tokens : List Text) :
    ∀ token ∈ (tokens.dropWhile isArgument).head?, isArgument token = false := by
  intro token member
  have stop := List.head?_dropWhile_not isArgument tokens
  rw [Option.mem_def.mp member] at stop
  simpa using stop

theorem scan_separator {c : Char} (separator : isSeparator c) (rest : Text) :
    scan (c :: rest) = scan rest := by
  rw [scan, if_pos separator]

theorem scan_literal {quote : Char} (isQuote : isQuote quote) {body : Text}
    (inside : quote ∉ body) (rest : Text) :
    scan (quote :: (body ++ quote :: rest)) = (quote :: body ++ [quote]) :: scan rest := by
  have before : ∀ c ∈ body, (c != quote) = true := by
    intro c member
    simpa using fun same : c = quote => inside (same ▸ member)
  rw [scan, if_neg (by simp [isSeparator_of_isQuote isQuote]), if_pos isQuote,
    List.takeWhile_append_of_pos before, List.dropWhile_append_of_pos before]
  simp

/-- A literal without a closing quote is read up to the end. -/
theorem scan_open_literal {quote : Char} (isQuote : isQuote quote) {body : Text}
    (inside : quote ∉ body) : scan (quote :: body) = [quote :: body] := by
  have before : ∀ c ∈ body, (c != quote) = true := by
    intro c member
    simpa using fun same : c = quote => inside (same ▸ member)
  rw [scan, if_neg (by simp [isSeparator_of_isQuote isQuote]), if_pos isQuote,
    List.takeWhile_eq_self_iff.mpr before, List.dropWhile_eq_nil_iff.mpr before]
  simp [scan]

theorem scan_parenthesis {c : Char} (parenthesis : isParenthesis c) (rest : Text) :
    scan (c :: rest) = [c] :: scan rest := by
  rw [scan, if_neg (by simp [isSeparator_of_isParenthesis parenthesis]),
    if_neg (by simp [isQuote_of_isParenthesis parenthesis]), if_pos parenthesis]

/-- A plain word is read up to the first character that is not plain. -/
theorem scan_word {c : Char} {word rest : Text} (unquoted : isQuote c = false)
    (plain : ∀ d ∈ c :: word, isPlain d) (stop : ∀ d ∈ rest.head?, isPlain d = false) :
    scan (c :: (word ++ rest)) = (c :: word) :: scan rest := by
  obtain ⟨separator, parenthesis⟩ := isPlain_iff.mp (plain c (by simp))
  have plainWord : ∀ d ∈ word, isPlain d = true := fun d member =>
    plain d (List.mem_cons_of_mem _ member)
  have taken : rest.takeWhile isPlain = [] := by
    cases rest with
    | nil => rfl
    | cons d rest => simp [stop d (by simp)]
  have dropped : rest.dropWhile isPlain = rest := by
    cases rest with
    | nil => rfl
    | cons d rest => simp [stop d (by simp)]
  rw [scan, if_neg (by simp [separator]), if_neg (by simp [unquoted]),
    if_neg (by simp [parenthesis]), List.takeWhile_append_of_pos plainWord,
    List.dropWhile_append_of_pos plainWord, taken, dropped,
    List.append_nil]

/-- A token that ends by itself is read as it is, and so is what follows after a space. -/
theorem scan_closed_append {token : Text} (isClosed : IsClosed token) (rest : Text) :
    scan (token ++ ' ' :: rest) = token :: scan rest := by
  have space : scan (' ' :: rest) = scan rest := scan_separator (by decide) rest
  cases isClosed with
  | group delimiter => rw [List.singleton_append, scan_parenthesis delimiter, space]
  | literal isQuote inside =>
      rw [← space]
      simpa using scan_literal isQuote inside (' ' :: rest)
  | word unquoted plain =>
      rw [List.cons_append, scan_word unquoted plain (by simp; decide), space]

theorem scan_closed {token : Text} (isClosed : IsClosed token) : scan token = [token] := by
  cases isClosed with
  | group delimiter => rw [scan_parenthesis delimiter, scan]
  | literal isQuote inside => simpa [scan] using scan_literal isQuote inside []
  | word unquoted plain =>
      have stop : ∀ d ∈ ([] : Text).head?, isPlain d = false := by simp
      simpa [scan] using scan_word unquoted plain stop

theorem scan_open {token : Text} (isOpen : IsOpen token) : scan token = [token] := by
  cases isOpen with
  | literal isQuote inside => exact scan_open_literal isQuote inside

/-- A list of tokens is what its join is read as. -/
theorem scan_unwords {tokens : List Text} (separable : Separable tokens) :
    scan (Text.unwords tokens) = tokens := by
  induction separable with
  | nil => exact scan.eq_1
  | last isOpen => exact scan_open isOpen
  | @cons token rest isClosed _ ih =>
      cases rest with
      | nil => exact scan_closed isClosed
      | cons next rest => rw [Text.unwords_cons_cons, scan_closed_append isClosed, ih]

/-- The rest of a text after a run of plain characters begins with a character that is not plain. -/
theorem isPlain_head?_dropWhile (text : Text) :
    ∀ c ∈ (text.dropWhile isPlain).head?, isPlain c = false := by
  intro c member
  have stop := List.head?_dropWhile_not isPlain text
  rw [Option.mem_def.mp member] at stop
  simpa using stop

/-- The ways in which a text is read: nothing is left, a separator is skipped, or a token of one of
the four forms comes first. -/
@[elab_as_elim]
theorem scan_induction {motive : Text → Prop} (nil : motive [])
    (separator : ∀ c rest, isSeparator c → motive rest → motive (c :: rest))
    (parenthesis : ∀ c rest, isParenthesis c → motive rest → motive (c :: rest))
    (literal : ∀ quote body rest, isQuote quote → quote ∉ body → motive rest →
      motive (quote :: (body ++ quote :: rest)))
    (openLiteral : ∀ quote body, isQuote quote → quote ∉ body → motive (quote :: body))
    (word : ∀ c word rest, isQuote c = false → (∀ d ∈ c :: word, isPlain d) →
      (∀ d ∈ rest.head?, isPlain d = false) → motive rest → motive (c :: (word ++ rest)))
    (text : Text) : motive text := by
  induction text using scan.induct with
  | case1 => exact nil
  | case2 c rest isSeparator ih => exact separator c rest isSeparator ih
  | case3 c rest _ isQuote ih =>
      by_cases inside : c ∈ rest
      · obtain ⟨body, after, rfl, notBefore⟩ := List.eq_append_cons_of_mem inside
        have before : ∀ d ∈ body, (d != c) = true := by
          intro d member
          simpa using fun same : d = c => notBefore (same ▸ member)
        rw [List.dropWhile_append_of_pos before] at ih
        exact literal c body after isQuote notBefore (by simpa using ih)
      · exact openLiteral c rest isQuote inside
  | case4 c rest _ _ isParenthesis ih => exact parenthesis c rest isParenthesis ih
  | case5 c rest notSeparator notQuote notParenthesis ih =>
      simp only [Bool.not_eq_true] at notSeparator notQuote notParenthesis
      have plain : isPlain c := isPlain_iff.mpr ⟨notSeparator, notParenthesis⟩
      rw [← List.takeWhile_append_dropWhile (p := isPlain) (l := rest)]
      refine word c _ _ notQuote ?_ (isPlain_head?_dropWhile rest) ih
      intro d member
      rcases List.mem_cons.mp member with rfl | inRest
      · exact plain
      · exact List.mem_takeWhile_imp inRest

/-- The tokens of a text can be told apart in their join. -/
theorem separable_scan (text : Text) : Separable (scan text) := by
  induction text using scan_induction with
  | nil => rw [scan]; exact .nil
  | separator c rest separator ih => rwa [scan_separator separator]
  | parenthesis c rest parenthesis ih =>
      rw [scan_parenthesis parenthesis]
      exact .cons (.group parenthesis) ih
  | literal quote body rest isQuote inside ih =>
      rw [scan_literal isQuote inside]
      exact .cons (.literal isQuote inside) ih
  | openLiteral quote body isQuote inside =>
      rw [scan_open_literal isQuote inside]
      exact .last (.literal isQuote inside)
  | word c word rest unquoted plain stop ih =>
      rw [scan_word unquoted plain stop]
      exact .cons (.word unquoted plain) ih

/-- Some of the tokens, in their order, can still be told apart in their join. -/
theorem Separable.sublist {tokens some : List Text} (separable : Separable tokens)
    (sublist : some.Sublist tokens) : Separable some := by
  induction separable generalizing some with
  | nil => obtain rfl := List.sublist_nil.mp sublist; exact .nil
  | last isOpen =>
      rcases List.sublist_singleton.mp sublist with rfl | rfl
      · exact .nil
      · exact .last isOpen
  | @cons token rest isClosed _ ih =>
      cases sublist with
      | cons _ sublist => exact ih sublist
      | cons_cons _ sublist => exact .cons isClosed (ih sublist)

theorem Separable.ne_nil {tokens : List Text} (separable : Separable tokens) {token : Text}
    (member : token ∈ tokens) : token ≠ [] := by
  induction separable with
  | nil => simp at member
  | last isOpen =>
      obtain rfl := List.mem_singleton.mp member
      cases isOpen
      simp
  | cons isClosed _ ih =>
      rcases List.mem_cons.mp member with rfl | later
      · cases isClosed <;> simp
      · exact ih later

/-- Reading loses nothing but separators. -/
theorem filter_flatten_scan (text : Text) :
    (scan text).flatten.filter (!isSeparator ·) = text.filter (!isSeparator ·) := by
  induction text using scan_induction with
  | nil => simp [scan]
  | separator c rest separator ih => simp [scan_separator separator, separator, ih]
  | parenthesis c rest parenthesis ih =>
      simp [scan_parenthesis parenthesis, isSeparator_of_isParenthesis parenthesis, ih]
  | literal quote body rest isQuote inside ih =>
      simp [scan_literal isQuote inside, isSeparator_of_isQuote isQuote, ih]
  | openLiteral quote body isQuote inside => simp [scan_open_literal isQuote inside]
  | word c word rest unquoted plain stop ih =>
      rw [scan_word unquoted plain stop, List.flatten_cons, List.filter_append, ih,
        ← List.filter_append, List.cons_append]

theorem filter_unwords (tokens : List Text) :
    (Text.unwords tokens).filter (!isSeparator ·) = tokens.flatten.filter (!isSeparator ·) := by
  induction tokens with
  | nil => rfl
  | cons token rest ih =>
      cases rest with
      | nil => simp
      | cons next rest =>
          have space : isSeparator ' ' = true := by decide
          rw [Text.unwords_cons_cons, List.filter_append, List.filter_cons, ih]
          simp [space]

theorem mem_of_mem_scan {text token : Text} (member : token ∈ scan text) {c : Char}
    (inside : c ∈ token) : c ∈ text := by
  induction text using scan_induction with
  | nil => simp [scan] at member
  | separator d rest separator ih =>
      rw [scan_separator separator] at member
      exact List.mem_cons_of_mem _ (ih member)
  | parenthesis d rest parenthesis ih =>
      rw [scan_parenthesis parenthesis] at member
      rcases List.mem_cons.mp member with rfl | later
      · simp_all
      · exact List.mem_cons_of_mem _ (ih later)
  | literal quote body rest isQuote notInside ih =>
      rw [scan_literal isQuote notInside] at member
      rcases List.mem_cons.mp member with rfl | later
      · simp only [List.cons_append, List.mem_cons, List.mem_append, List.not_mem_nil]
          at inside ⊢
        grind
      · simp [ih later]
  | openLiteral quote body isQuote notInside =>
      rw [scan_open_literal isQuote notInside] at member
      obtain rfl := List.mem_singleton.mp member
      exact inside
  | word d word rest unquoted plain stop ih =>
      rw [scan_word unquoted plain stop] at member
      rcases List.mem_cons.mp member with rfl | later
      · rw [← List.cons_append]
        exact List.mem_append_left _ inside
      · simp [ih later]

/-- If no separator stands at the end of the text, none stands at the end of a token. -/
theorem isSeparator_getLast?_of_mem_scan {text token : Text}
    (last : ∀ c ∈ text.getLast?, isSeparator c = false) (member : token ∈ scan text) :
    ∀ c ∈ token.getLast?, isSeparator c = false := by
  have lastRest (front : Text) {rest : Text}
      (last : ∀ c ∈ (front ++ rest).getLast?, isSeparator c = false) :
      ∀ c ∈ rest.getLast?, isSeparator c = false := by
    intro c final
    refine last c ?_
    rw [List.getLast?_append, Option.mem_def.mp final]
    rfl
  -- Only an open literal can end with a separator, and it goes up to the end of the text.
  induction text using scan_induction with
  | nil => simp [scan] at member
  | separator c rest separator ih =>
      rw [scan_separator separator] at member
      exact ih (lastRest [c] last) member
  | parenthesis c rest parenthesis ih =>
      rw [scan_parenthesis parenthesis] at member
      rcases List.mem_cons.mp member with rfl | later
      · simpa using isSeparator_of_isParenthesis parenthesis
      · exact ih (lastRest [c] last) later
  | literal quote body rest isQuote inside ih =>
      rw [scan_literal isQuote inside] at member
      rcases List.mem_cons.mp member with rfl | later
      · rw [List.getLast?_concat]
        simpa using isSeparator_of_isQuote isQuote
      · refine ih (lastRest (quote :: body ++ [quote]) ?_) later
        simpa using last
  | openLiteral quote body isQuote inside =>
      rw [scan_open_literal isQuote inside] at member
      obtain rfl := List.mem_singleton.mp member
      exact last
  | word c word rest unquoted plain stop ih =>
      rw [scan_word unquoted plain stop] at member
      rw [← List.cons_append] at last
      rcases List.mem_cons.mp member with rfl | later
      · intro d final
        exact (isPlain_iff.mp (plain d (List.mem_of_mem_getLast? final))).1
      · exact ih (lastRest (c :: word) last) later

/-- Joined tokens are read as they are if there are no blank characters to trim. -/
theorem ofText_unwords {tokens : List Text} (separable : Separable tokens)
    (start : ∀ c ∈ (Text.unwords tokens).head?, Text.isBlank c = false)
    (last : ∀ c ∈ (Text.unwords tokens).getLast?, Text.isBlank c = false) :
    ofText (Text.unwords tokens) = tokens := by
  rw [ofText, Text.trim_eq_trimEnd start, Text.trimEnd_eq_self_iff.mpr last, scan_unwords separable]

end Retouch.Token
