import Retouch.Proofs.Command.Tokenization

/-!
# What a text is read as

A text is its tokens with spaces and tabs between them, and nothing else is lost. Which characters
make up a token is fixed by what stands next to it: a literal goes up to the next occurrence of its
quote or to the end of the text, a word as far as there are plain characters. There is one way only
to lay out a text like this, and the tokens of the text are those of its layout.

A join of tokens begins and ends like the text that they were read from, so no blank character has
come to its ends, and it is read as the same tokens.
-/

namespace Retouch.Token

/-- A token and the separators in front of it. -/
structure Placed where
  /-- What stands between the token and the one before it. -/
  gap : Text
  /-- The token. -/
  token : Text

/-- The text that placed tokens make up. -/
def Placed.join (placed : List Placed) : Text :=
  placed.flatMap fun here => here.gap ++ here.token

/-- The forms of a token, given what is written in front of it and behind it. -/
inductive Stands (front following : Text) : Text → Prop where
  | group {c : Char} (delimiter : isParenthesis c) : Stands front following [c]
  /-- A literal up to the next occurrence of its quote. -/
  | literal {quote : Char} {body : Text} (isQuote : isQuote quote) (inside : quote ∉ body) :
      Stands front following (quote :: body ++ [quote])
  /-- A literal up to the end of the text, where its quote does not occur again. -/
  | openLiteral {quote : Char} {body : Text} (isQuote : isQuote quote) (inside : quote ∉ body)
      (atEnd : following = []) : Stands front following (quote :: body)
  /-- A run of plain characters that does not begin with a quote. It cannot be continued, and what
  stands in front of it cannot belong to it: no plain character does, unless it closes a literal. -/
  | word {c : Char} {rest : Text} (unquoted : isQuote c = false)
      (plain : ∀ d ∈ c :: rest, isPlain d)
      (begins : ∀ d ∈ front.getLast?, isPlain d → isQuote d)
        (ends : ∀ d ∈ following.head?, isPlain d = false) :
      Stands front following (c :: rest)

/-- Whether a text is laid out as placed tokens with separators at its end, given what is written in
front of the text. -/
structure IsLayout (front text : Text) (placed : List Placed) (tail : Text) : Prop where
  covers : text = Placed.join placed ++ tail
  separates : ∀ c ∈ tail, isSeparator c
  each : ∀ before here after, placed = before ++ here :: after →
    (∀ c ∈ here.gap, isSeparator c) ∧ here.token ≠ [] ∧
      Stands (front ++ Placed.join before ++ here.gap) (Placed.join after ++ tail) here.token

variable {front following gap text token tail : Text} {here : Placed} {placed : List Placed}

@[simp]
theorem Placed.join_nil : join [] = [] := rfl

@[simp]
theorem Placed.join_cons (here : Placed) (placed : List Placed) :
    join (here :: placed) = here.gap ++ (here.token ++ join placed) := by
  simp [join]

theorem scan_append_of_separators (separators : ∀ c ∈ gap, isSeparator c) (rest : Text) :
    scan (gap ++ rest) = scan rest := by
  induction gap with
  | nil => rfl
  | cons c gap ih =>
      rw [List.cons_append, scan_separator (separators c (by simp))]
      apply ih
      intro d member
      exact separators d (List.mem_cons_of_mem c member)

/-! ## One layout at most -/

namespace Stands

theorem ne_nil (stands : Stands front following token) : token ≠ [] := by
  cases stands <;> simp

theorem scan_append (stands : Stands front following token) :
    scan (token ++ following) = token :: scan following := by
  cases stands with
  | group delimiter => exact scan_parenthesis delimiter following
  | literal isQuote inside => simpa using scan_literal isQuote inside following
  | openLiteral isQuote inside atEnd =>
      -- it would run on into anything that is written behind it
      subst atEnd
      simpa [scan] using scan_open_literal isQuote inside
  | word unquoted plain _ ends => exact scan_word unquoted plain ends

end Stands

namespace IsLayout

theorem isLayout_nil (separators : ∀ c ∈ tail, isSeparator c) :
    IsLayout front tail [] tail where
  covers := rfl
  separates := separators
  each := by simp

/-- A layout is the first token where it stands and a layout of what is behind it. -/
theorem isLayout_cons_iff : IsLayout front text (here :: placed) tail ↔
    (∀ c ∈ here.gap, isSeparator c) ∧ Stands (front ++ here.gap)
    (Placed.join placed ++ tail) here.token ∧
      ∃ rest, text = here.gap ++ (here.token ++ rest) ∧
        IsLayout (front ++ here.gap ++ here.token) rest placed tail := by
  constructor
  · intro layout
    have first := layout.each [] here placed rfl
    refine ⟨first.1, by simpa using first.2.2, Placed.join placed ++ tail, ?_, rfl,
      layout.separates, ?_⟩
    · simpa using layout.covers
    · intro before other after parts
      have later := layout.each (here :: before) other after (by rw [parts, List.cons_append])
      simpa using later
  · rintro ⟨separators, stands, rest, rfl, layout⟩
    refine ⟨?_, layout.separates, ?_⟩
    · rw [layout.covers]
      simp
    · intro before other after parts
      rcases List.cons_eq_append_iff.mp parts with ⟨rfl, same⟩ | ⟨later, rfl, same⟩
      · rcases List.cons.inj same with ⟨rfl, rfl⟩
        exact ⟨separators, stands.ne_nil, by simpa using stands⟩
      · simpa using layout.each later other after same

theorem scan_eq (layout : IsLayout front text placed tail) :
    scan text = placed.map Placed.token := by
  induction placed generalizing front text with
  | nil =>
      have same : text = tail ++ [] := by simpa using layout.covers
      rw [same, scan_append_of_separators layout.separates, scan, List.map_nil]
  | cons here placed ih =>
      rcases isLayout_cons_iff.mp layout with ⟨separators, stands, rest, rfl, later⟩
      rw [← later.covers] at stands
      rw [scan_append_of_separators separators, stands.scan_append, ih later, List.map_cons]

end IsLayout

/-! ## Every text has a layout -/

/-- Whether no word can have been cut between two texts: where a plain character goes on behind
another one, a literal is closed. -/
def AreApart (front text : Text) : Prop :=
  ∀ d ∈ front.getLast?, ∀ c ∈ text.head?, isPlain d → isPlain c → isQuote d

theorem areApart_of_not_isPlain {c : Char} (notPlain : isPlain c = false) (front text : Text) :
    AreApart (front ++ [c]) text := by
  intro d last e _ isPlain
  rw [List.getLast?_concat, Option.mem_some_iff] at last
  simp [← last, notPlain] at isPlain

namespace IsLayout

/-- A separator in front of a text belongs to the first gap of its layout. -/
theorem exists_separator {c : Char} (separator : isSeparator c)
    (layout : IsLayout (front ++ [c]) text placed tail) :
    ∃ others rest, others.map Placed.token = placed.map Placed.token ∧
      IsLayout front (c :: text) others rest := by
  cases placed with
  | nil =>
      have same : text = tail := by simpa using layout.covers
      refine ⟨[], c :: text, rfl, isLayout_nil ?_⟩
      intro d member
      rcases List.mem_cons.mp member with rfl | inTail
      · exact separator
      · exact layout.separates d (same ▸ inTail)
  | cons here placed =>
      rcases isLayout_cons_iff.mp layout with ⟨separators, stands, rest, rfl, later⟩
      refine ⟨⟨c :: here.gap, here.token⟩ :: placed, tail, rfl,
        isLayout_cons_iff.mpr ⟨?_, ?_, rest, rfl, ?_⟩⟩
      · intro d member
        rcases List.mem_cons.mp member with rfl | inGap
        · exact separator
        · exact separators d inGap
      · simpa using stands
      · simpa using later

theorem exists_token {tokens : List Text} (stands : Stands front text token)
    (rest : ∃ placed tail, placed.map Placed.token = tokens ∧
        IsLayout (front ++ token) text placed tail) :
    ∃ placed tail, placed.map Placed.token = token :: tokens ∧
      IsLayout front (token ++ text) placed tail := by
  rcases rest with ⟨placed, tail, rfl, layout⟩
  rw [layout.covers] at stands
  refine ⟨⟨[], token⟩ :: placed, tail, rfl,
    isLayout_cons_iff.mpr ⟨by simp, ?_, text, rfl, ?_⟩⟩
  · simpa using stands
  · simpa using layout

end IsLayout

/-- A text is laid out as the tokens that it is read as, also behind another text from which it is
apart. -/
theorem exists_isLayout_scan (text : Text) : ∀ front, AreApart front text →
    ∃ placed tail, placed.map Placed.token = scan text ∧ IsLayout front text placed tail := by
  -- The scan takes what is behind a token as a text of its own. That a word begins where it is read
  -- is known only from the text before it, so each case hands on that the rest is apart from what
  -- has been read.
  induction text using scan_induction with
  | nil =>
      intro front _
      exact ⟨[], [], by simp [scan], IsLayout.isLayout_nil (by simp)⟩
  | separator c rest separator ih =>
      intro front _
      have notPlain : isPlain c = false := by simp [isPlain, separator]
      rcases ih (front ++ [c]) (areApart_of_not_isPlain notPlain front rest) with
        ⟨placed, tail, tokens, layout⟩
      rw [scan_separator separator, ← tokens]
      exact layout.exists_separator separator
  | parenthesis c rest parenthesis ih =>
      intro front _
      have notPlain : isPlain c = false := by simp [isPlain, parenthesis]
      rw [scan_parenthesis parenthesis]
      exact IsLayout.exists_token (.group parenthesis)
        (ih _ (areApart_of_not_isPlain notPlain front rest))
  | literal quote body rest isQuote inside ih =>
      intro front _
      have apart : AreApart (front ++ (quote :: body ++ [quote])) rest := by
        intro d last _ _ _ _
        rw [← List.append_assoc, List.getLast?_concat, Option.mem_some_iff] at last
        rwa [← last]
      rw [scan_literal isQuote inside]
      simpa using IsLayout.exists_token (.literal isQuote inside) (ih _ apart)
  | openLiteral quote body isQuote inside =>
      intro front _
      rw [scan_open_literal isQuote inside]
      have ended : IsLayout (front ++ quote :: body) [] [] [] := IsLayout.isLayout_nil (by simp)
      simpa using IsLayout.exists_token (.openLiteral isQuote inside rfl) ⟨[], [], rfl, ended⟩
  | word c word rest unquoted plain stop ih =>
      intro front apart
      have begins : ∀ d ∈ front.getLast?, isPlain d → isQuote d := by
        intro d last isPlain
        exact apart d last c rfl isPlain (plain c (by simp))
      have apartRest : AreApart (front ++ c :: word) rest := by
        intro _ _ d first _ isPlain
        simp [stop d first] at isPlain
      rw [scan_word unquoted plain stop]
      exact IsLayout.exists_token (.word unquoted plain begins stop) (ih _ apartRest)

/-- Reading finds exactly the tokens of the layout that the text, blanks around it left out, has:
some separators, a token, and so on up to some separators at the end. -/
theorem ofText_eq_iff (text : Text) (tokens : List Text) :
    ofText text = tokens ↔
      ∃ placed tail, placed.map Placed.token = tokens ∧ IsLayout []
        (Text.trim text) placed tail := by
  constructor
  · rintro rfl
    apply exists_isLayout_scan
    intro d last
    simp at last
  · rintro ⟨placed, tail, rfl, layout⟩
    exact layout.scan_eq

/-! ## Reading a join -/

theorem head?_unwords_scan (start : ∀ c ∈ text.head?, isSeparator c = false) :
    (Text.unwords (scan text)).head? = text.head? := by
  cases text with
  | nil => simp [scan]
  | cons c rest =>
      have notSeparator := start c rfl
      rw [scan, if_neg (by simp [notSeparator])]
      split
      · exact Text.head?_unwords_cons (by simp) _
      · split <;> exact Text.head?_unwords_cons (by simp) _

theorem getLast?_filter {test : Char → Bool} (last : ∀ c ∈ text.getLast?, test c) :
    (text.filter test).getLast? = text.getLast? := by
  rcases text.eq_nil_or_concat with rfl | ⟨front, c, rfl⟩
  · rfl
  · rw [List.concat_eq_append] at last ⊢
    have kept : test c := last c List.getLast?_concat
    rw [List.filter_append, List.filter_cons_of_pos kept, List.filter_nil, List.getLast?_concat,
      List.getLast?_concat]

/-- A text that does not end with a separator ends like the join of its tokens: no token ends with
one, and the other characters are the same. -/
theorem getLast?_unwords_scan (last : ∀ c ∈ text.getLast?, isSeparator c = false) :
    (Text.unwords (scan text)).getLast? = text.getLast? := by
  have joinLast : ∀ c ∈ (Text.unwords (scan text)).getLast?, isSeparator c = false := by
    apply Text.forall_getLast?_unwords
    · intro token member
      exact (separable_scan text).ne_nil member
    · intro token member
      exact isSeparator_getLast?_of_mem_scan last member
  calc (Text.unwords (scan text)).getLast?
      = ((Text.unwords (scan text)).filter (!isSeparator ·)).getLast? :=
        (getLast?_filter (by simpa using joinLast)).symm
    _ = (text.filter (!isSeparator ·)).getLast? := by rw [filter_unwords, filter_flatten_scan]
    _ = text.getLast? := getLast?_filter (by simpa using last)

/-- The join of the tokens of a text is read as the same tokens. -/
theorem ofText_unwords_ofText (text : Text) :
    ofText (Text.unwords (ofText text)) = ofText text := by
  have start : ∀ c ∈ (Text.trim text).head?, Text.isBlank c = false :=
    Text.isBlank_head?_trim text
  have last : ∀ c ∈ (Text.trim text).getLast?, Text.isBlank c = false :=
    Text.isBlank_getLast?_trimEnd _
  apply ofText_unwords (separable_scan (Text.trim text))
  · rw [head?_unwords_scan fun c member => isSeparator_of_not_isBlank (start c member)]
    exact start
  · rw [getLast?_unwords_scan fun c member => isSeparator_of_not_isBlank (last c member)]
    exact last

end Retouch.Token
