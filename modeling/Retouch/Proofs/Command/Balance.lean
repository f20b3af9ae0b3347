import Mathlib.Data.List.Infix
import Retouch.Proofs.Command.Idempotence
import Retouch.Proofs.Command.Spans

/-!
# Balanced parentheses

Splitting follows channel selections and groups on their own, so that a channel selection may begin
or end inside a group. A group is balanced as a segment, and a flag with its arguments has no
parentheses. In a command with balanced parentheses an entry is therefore unbalanced exactly if it
is a channel selection that has one end of a group inside and the other one outside.
-/

namespace Retouch

/-- Whether as many groups are closed as are opened, and none before it is opened. -/
structure AreBalanced (tokens : List Text) : Prop where
  balances : tokens.count Token.groupClose = tokens.count Token.groupOpen
  isCovered : ∀ front, front <+: tokens →
    front.count Token.groupClose ≤ front.count Token.groupOpen

instance (tokens : List Text) : Decidable (AreBalanced tokens) :=
  decidable_of_iff (tokens.count Token.groupClose = tokens.count Token.groupOpen ∧
      ∀ front ∈ tokens.inits, front.count Token.groupClose ≤ front.count Token.groupOpen)
    ⟨fun ⟨balances, isCovered⟩ =>
        ⟨balances, fun _ isPrefix => isCovered _ ((List.mem_inits _ _).mpr isPrefix)⟩,
      fun balanced =>
        ⟨balanced.balances, fun _ member =>
          balanced.isCovered _ ((List.mem_inits _ _).mp member)⟩⟩

/-- Whether a span of tokens has one end of a group inside and the other one outside. -/
inductive CutsGroup (before span after : List Text) : Prop where
  /-- The group begins before the span and ends in it. -/
  | begins {outside inside : List Text} (isOutside : outside <:+ before)
      (isInside : inside <+: span)
      (begun : outside ≠ []) (ended : inside ≠ [])
      (enclosed : Segment.IsEnclosed Token.groupOpen Token.groupClose (outside ++ inside))
  /-- The group begins in the span and ends behind it. -/
  | ends {inside outside : List Text} (isInside : inside <:+ span) (isOutside : outside <+: after)
      (begun : inside ≠ []) (ended : outside ≠ [])
      (enclosed : Segment.IsEnclosed Token.groupOpen Token.groupClose (inside ++ outside))

namespace Segment

variable {opener closer : Text} {tokens : List Text} {inner : Nat}

/-- Where more is closed than was opened, some token closes the level around. -/
theorem exists_closesAt (distinct : opener ≠ closer) {front : List Text}
    (isPrefix : front <+: tokens) (unopened : front.count opener + inner < front.count closer) :
    ∃ span, span <+: tokens ∧ ClosesAt opener closer inner span := by
  induction tokens generalizing front inner with
  | nil => simp [List.prefix_nil.mp isPrefix] at unopened
  | cons token rest ih =>
      rcases List.prefix_cons_iff.mp isPrefix with rfl | ⟨front, rfl, isRest⟩
      · simp at unopened
      by_cases opens : token = opener
      · subst opens
        rw [List.count_cons_self, List.count_cons_of_ne distinct] at unopened
        have deeper : front.count token + (inner + 1) < front.count closer := by omega
        rcases ih isRest deeper with ⟨span, isSpan, closes⟩
        exact ⟨token :: span, List.cons_prefix_cons.mpr ⟨rfl, isSpan⟩,
          (closesAt_opener distinct).mpr closes⟩
      by_cases closes : token = closer
      · subst closes
        cases inner with
        | zero =>
            exact ⟨[token], List.cons_prefix_cons.mpr ⟨rfl, List.nil_prefix⟩,
              (closesAt_zero_closer distinct).mpr rfl⟩
        | succ inner =>
            rw [List.count_cons_self, List.count_cons_of_ne opens] at unopened
            have outer : front.count opener + inner < front.count token := by omega
            rcases ih isRest outer with ⟨span, isSpan, closes⟩
            exact ⟨token :: span, List.cons_prefix_cons.mpr ⟨rfl, isSpan⟩,
              (closesAt_closer distinct).mpr closes⟩
      · rw [List.count_cons_of_ne opens, List.count_cons_of_ne closes] at unopened
        rcases ih isRest unopened with ⟨span, isSpan, closesSpan⟩
        exact ⟨token :: span, List.cons_prefix_cons.mpr ⟨rfl, isSpan⟩,
          (closesAt_other opens closes).mpr closesSpan⟩

/-- Where more is opened than closed, some opening token is the last one that stays open. -/
theorem exists_unclosed {back : List Text} (isSuffix : back <:+ tokens)
    (unclosed : back.count closer < back.count opener) :
    ∃ span, opener :: span <:+ tokens ∧ span.count closer = span.count opener ∧
      ∀ back, back <:+ span → back.count opener ≤ back.count closer := by
  induction tokens generalizing back with
  | nil => simp [List.suffix_nil.mp isSuffix] at unclosed
  | cons token rest ih =>
      by_cases later : ∃ back, back <:+ rest ∧ back.count closer < back.count opener
      · rcases later with ⟨back, isRest, stays⟩
        rcases ih isRest stays with ⟨span, isSpan, even, closed⟩
        exact ⟨span, isSpan.trans (List.suffix_cons token rest), even, closed⟩
      · simp only [not_exists, not_and, not_lt] at later
        rcases List.suffix_cons_iff.mp isSuffix with rfl | isRest
        · have closed := later rest List.suffix_rfl
          by_cases opens : token = opener
          · subst opens
            rw [List.count_cons, List.count_cons_self] at unclosed
            exact ⟨rest, List.suffix_rfl, by omega, later⟩
          · rw [List.count_cons, List.count_cons_of_ne opens] at unclosed
            omega
        · exact absurd (later back isRest) (Nat.not_le.mpr unclosed)

/-- The last opening token that stays open and the first closing one that closes the level around
belong together. -/
theorem isEnclosed_append (distinct : opener ≠ closer) {front back : List Text}
    (even : front.count closer = front.count opener)
    (closed : ∀ part, part <:+ front → part.count opener ≤ part.count closer)
    (closes : ClosesAt opener closer 0 back) :
    IsEnclosed opener closer (opener :: (front ++ back)) := by
  refine (isEnclosed_cons_iff distinct).mpr ⟨?_, fun part isPrefix notAll => ?_⟩
  · rw [List.count_append, List.count_append, closes.balances, even]
    omega
  · rcases List.prefix_or_prefix_of_prefix isPrefix (List.prefix_append front back) with
      ⟨rest, rfl⟩ | ⟨rest, rfl⟩
    · have closedRest := closed rest (List.suffix_append part rest)
      rw [List.count_append, List.count_append] at even
      omega
    · have within := closes.isFirst rest ((List.prefix_append_right_inj front).mp isPrefix)
        fun same => notAll (by rw [same])
      rw [List.count_append, List.count_append]
      omega

theorem IsEnclosed.areBalanced {span : List Text}
    (enclosed : IsEnclosed Token.groupOpen Token.groupClose span) : AreBalanced span where
  balances := enclosed.balances
  isCovered := by
    intro front isPrefix
    by_cases isNil : front = []
    · simp [isNil]
    by_cases isAll : front = span
    · rw [isAll, enclosed.balances]
    · exact Nat.le_of_lt (enclosed.isFirst front isPrefix isNil isAll)

end Segment

/-! ## Parts of balanced tokens -/

variable {before span after tokens : List Text}

/-- A part of balanced tokens is balanced exactly if no group has one end in it and the other one
outside. -/
theorem AreBalanced.part_iff (balanced : AreBalanced (before ++ (span ++ after))) :
    AreBalanced span ↔ ¬CutsGroup before span after := by
  have distinct : Token.groupOpen ≠ Token.groupClose := by decide
  constructor
  · rintro part
      (⟨-, isInside, begun, ended, enclosed⟩ | ⟨isInside, -, begun, ended, enclosed⟩)
    · have stillOpen := enclosed.isFirst _ (List.prefix_append _ _) begun (by simpa using ended)
      have even := enclosed.balances
      have covered := part.isCovered _ isInside
      simp only [List.count_append] at even
      omega
    · rcases isInside with ⟨front, rfl⟩
      have stillOpen := enclosed.isFirst _ (List.prefix_append _ _) begun (by simpa using ended)
      have even := part.balances
      have covered := part.isCovered front (List.prefix_append _ _)
      simp only [List.count_append] at even
      omega
  · intro uncut
    -- An end too many in the span closes a group that was opened before it, and a beginning too
    -- many opens one that is closed behind it.
    have isCovered : ∀ front, front <+: span →
        front.count Token.groupClose ≤ front.count Token.groupOpen := by
      intro front isPrefix
      by_contra covered
      have unopened : front.count Token.groupOpen + 0 < front.count Token.groupClose := by omega
      rcases Segment.exists_closesAt distinct isPrefix unopened with ⟨inside, isInside, closes⟩
      have covered := balanced.isCovered (before ++ inside)
        ((List.prefix_append_right_inj before).mpr (isInside.trans (List.prefix_append span after)))
      have balances := closes.balances
      simp only [List.count_append] at covered
      have unclosed : before.count Token.groupClose < before.count Token.groupOpen := by omega
      rcases Segment.exists_unclosed (List.suffix_refl before) unclosed with
        ⟨group, isGroup, even, closed⟩
      refine uncut
        (.begins isGroup isInside (by simp) ?_
        (Segment.isEnclosed_append distinct even closed closes))
      rintro rfl
      exact Segment.not_closesAt_nil closes
    refine ⟨?_, isCovered⟩
    by_contra uneven
    have covered := isCovered span List.prefix_rfl
    have unclosed : span.count Token.groupClose < span.count Token.groupOpen := by omega
    rcases Segment.exists_unclosed (List.suffix_refl span) unclosed with
      ⟨group, isGroup, even, closed⟩
    have balances := balanced.balances
    have coveredBefore := balanced.isCovered before (List.prefix_append _ _)
    simp only [List.count_append] at balances
    have unopened : after.count Token.groupOpen + 0 < after.count Token.groupClose := by omega
    rcases Segment.exists_closesAt distinct (List.prefix_refl after) unopened with
      ⟨outside, isOutside, closes⟩
    refine uncut
      (.ends isGroup isOutside (by simp) ?_ (Segment.isEnclosed_append distinct even closed closes))
    rintro rfl
    exact Segment.not_closesAt_nil closes

theorem areBalanced_filter_iff : AreBalanced (tokens.filter Token.isGroup) ↔
    AreBalanced tokens := by
  have count (some : List Text) {delimiter : Text} (isGroup : Token.isGroup delimiter) :
      (some.filter Token.isGroup).count delimiter = some.count delimiter :=
        List.count_filter isGroup
  have opens : Token.isGroup Token.groupOpen := by decide
  have closes : Token.isGroup Token.groupClose := by decide
  constructor
  · intro balanced
    refine ⟨by simpa only [count _ opens, count _ closes] using balanced.balances,
      fun front isPrefix => ?_⟩
    simpa only [count _ opens, count _ closes]
      using balanced.isCovered _ (isPrefix.filter Token.isGroup)
  · intro balanced
    refine ⟨by simpa only [count _ opens, count _ closes] using balanced.balances,
      fun front isPrefix => ?_⟩
    rcases List.prefix_filter_iff.mp isPrefix with ⟨part, isPart, rfl⟩
    simpa only [count _ opens, count _ closes] using balanced.isCovered part isPart

theorem areBalanced_of_no_group (plain : ∀ token ∈ tokens, Token.isGroup token = false) :
    AreBalanced tokens := by
  have none : tokens.filter Token.isGroup = [] := List.filter_eq_nil_iff.mpr (by simpa using plain)
  rw [← areBalanced_filter_iff, none]
  exact ⟨rfl, fun front isPrefix => by rw [List.prefix_nil.mp isPrefix]; exact Nat.le_refl 0⟩

/-! ## Entries -/

namespace Token

theorem filter_isGroup_scan_of_blank {blanks : Text} (areBlank : ∀ c ∈ blanks, Text.isBlank c) :
    (scan blanks).filter isGroup = [] := by
  refine List.filter_eq_nil_iff.mpr fun token member delimiter => ?_
  have blank : ∀ c ∈ token, Text.isBlank c := fun c inside =>
    areBlank c (mem_of_mem_scan member inside)
  rcases isGroup_iff.mp delimiter with rfl | rfl
  · exact absurd (blank '(' (by decide)) (by decide)
  · exact absurd (blank ')' (by decide)) (by decide)

theorem filter_isGroup_scan_append (text : Text) {blanks : Text}
    (areBlank : ∀ c ∈ blanks, Text.isBlank c) :
    (scan (text ++ blanks)).filter isGroup = (scan text).filter isGroup := by
  have skip {c : Char} (notParenthesis : isParenthesis c = false) (rest : Text)
      (tokens : List Text) :
      ((c :: rest) :: tokens).filter isGroup = tokens.filter isGroup := by
    refine List.filter_cons_of_neg fun delimiter => ?_
    rcases isGroup_iff.mp delimiter with same | same <;>
      rw [(List.cons.inj same).1] at notParenthesis <;>
      exact absurd notParenthesis (by decide)
  induction text using scan_induction with
  | nil => rw [List.nil_append, filter_isGroup_scan_of_blank areBlank, scan, List.filter_nil]
  | separator c rest separator ih =>
      rw [List.cons_append, scan_separator separator, scan_separator separator, ih]
  | parenthesis c rest parenthesis ih =>
      rw [List.cons_append, scan_parenthesis parenthesis, scan_parenthesis parenthesis,
        List.filter_cons, List.filter_cons, ih]
  | literal quote body rest isQuote inside ih =>
      rw [List.cons_append, List.append_assoc, List.cons_append, scan_literal isQuote inside,
        scan_literal isQuote inside, List.filter_cons, List.filter_cons, ih]
  | openLiteral quote body isQuote inside =>
      have notBlank : Text.isBlank quote = false := by
        rcases isQuote_iff.mp isQuote with rfl | rfl <;> decide
      -- the literal goes on through the blank characters
      have stays : quote ∉ body ++ blanks := by
        intro member
        rcases List.mem_append.mp member with inBody | inBlanks
        · exact inside inBody
        · simp [areBlank quote inBlanks] at notBlank
      have notParenthesis : isParenthesis quote = false := by
        rcases isQuote_iff.mp isQuote with rfl | rfl <;> decide
      rw [List.cons_append, scan_open_literal isQuote inside, scan_open_literal isQuote stays,
        skip notParenthesis, skip notParenthesis]
  | word c word rest unquoted plain stop ih =>
      have notParenthesis := (isPlain_iff.mp (plain c List.mem_cons_self)).2
      rw [scan_word unquoted plain stop, skip notParenthesis]
      cases rest with
      | nil =>
          -- blank characters that are no separators make the last word longer
          have longer : ∀ d ∈ c :: (word ++ blanks.takeWhile isPlain), isPlain d := by
            intro d member
            rw [← List.cons_append] at member
            rcases List.mem_append.mp member with inWord | inBlanks
            · exact plain d inWord
            · exact List.mem_takeWhile_imp inBlanks
          have fewer : ∀ d ∈ blanks.dropWhile isPlain, Text.isBlank d := fun d member =>
            areBlank d ((List.dropWhile_suffix isPlain).subset member)
          have parts : c :: (word ++ []) ++ blanks =
              c :: ((word ++ blanks.takeWhile isPlain) ++ blanks.dropWhile isPlain) := by
            rw [List.append_nil, List.append_assoc, List.takeWhile_append_dropWhile,
              List.cons_append]
          rw [parts, scan_word unquoted longer (isPlain_head?_dropWhile blanks),
            skip notParenthesis, filter_isGroup_scan_of_blank fewer, scan, List.filter_nil]
      | cons d rest =>
          rw [List.cons_append, List.append_assoc, scan_word unquoted plain (by simpa using stop),
            skip notParenthesis, ih]

end Token

namespace Segment

variable {command : Text} {segment : Segment}

/-- A segment that makes an entry begins with a flag or with a group. -/
theorem IsSegment.isArgument_head? {following span : List Text} {kind : Kind}
    (isSegment : IsSegment following kind span) (kept : kind ≠ .skipped) :
    ∃ token, span.head? = some token ∧ Token.isArgument token = false := by
  cases isSegment with
  | region enclosed => exact ⟨_, enclosed.begins, by decide⟩
  | group enclosed => exact ⟨_, enclosed.begins, by decide⟩
  | @atom flag _ isFlag => exact ⟨flag, rfl, by simp [Token.isArgument, isFlag]⟩
  | stray | regionClose | safety => exact absurd rfl kept

theorem IsSegment.isBlank_head? {following span : List Text} {kind : Kind}
    (isSegment : IsSegment following kind span) (kept : kind ≠ .skipped) :
    ∀ c ∈ (Text.unwords span).head?, Text.isBlank c = false := by
  intro c member
  refine (Token.isStart_unwords ?_ c member).isBlank
  intro token first
  rcases isSegment.isArgument_head? kept with ⟨head, isFirst, notArgument⟩
  rwa [← Option.some.inj (isFirst.symm.trans first)]

/-- Only a channel selection can be an unbalanced segment. -/
theorem IsSegment.areBalanced {following span : List Text} {kind : Kind}
    (isSegment : IsSegment following kind span) (kept : kind ≠ .skipped)
    (notRegion : kind ≠ .region) :
    AreBalanced span := by
  cases isSegment with
  | region => exact absurd rfl notRegion
  | group enclosed => exact enclosed.areBalanced
  | atom isFlag _ window _ _ =>
      refine areBalanced_of_no_group fun token member => ?_
      rcases List.mem_cons.mp member with rfl | inArguments
      · cases isGroup : Token.isGroup token with
        | false => rfl
        | true => exact absurd isFlag (by simp [Token.isFlag_eq_false_of_isGroup isGroup])
      · have plain := window.plain token inArguments
        simp only [Token.isArgument, Bool.and_eq_true, Bool.not_eq_true'] at plain
        exact plain.1
  | stray | regionClose | safety => exact absurd rfl kept

/-- Reading the text of an entry finds the parentheses of its segment. -/
theorem areBalanced_entry_iff (member : segment ∈ ofTokens (Token.ofText command))
    (kept : segment.kind ≠ .skipped) :
    AreBalanced (Token.ofText (Text.unwords segment.tokens)) ↔ AreBalanced segment.tokens := by
  have separable : Token.Separable segment.tokens := by
    refine (Token.separable_scan (Text.trim command)).sublist ?_
    rw [← Token.ofText, ← flatMap_tokens_ofTokens (Token.ofText command)]
    exact List.sublist_flatten_of_mem (List.mem_map_of_mem member)
  rcases List.append_of_mem member with ⟨before, after, parts⟩
  have start := ((kind_iff parts _).mp rfl).isBlank_head? kept
  rcases Text.trimEnd_append (Text.unwords segment.tokens) with ⟨blanks, areBlank, whole⟩
  rw [← areBalanced_filter_iff, Token.ofText, Text.trim_eq_trimEnd start,
    ← Token.filter_isGroup_scan_append _ areBlank, whole, Token.scan_unwords separable,
      areBalanced_filter_iff]

/-- The entry of a segment of a balanced command is balanced, unless the segment is a channel
selection that cuts a group. -/
theorem areBalanced_part_iff (balanced : AreBalanced (Token.ofText command))
    {before after : List Segment}
    (parts : ofTokens (Token.ofText command) = before ++ segment :: after) {part : LabelledCommand}
    (isPart : segment.entry? = some part) :
    AreBalanced (Token.ofText part.command) ↔
      (segment.kind = .region →
        ¬CutsGroup (before.flatMap Segment.tokens) segment.tokens
          (after.flatMap Segment.tokens)) := by
  unfold entry? at isPart
  split at isPart
  · simp at isPart
  next kept =>
    rcases Option.some.inj isPart with rfl
    have member : segment ∈ ofTokens (Token.ofText command) := by simp [parts]
    rw [areBalanced_entry_iff member kept]
    rw [← flatMap_tokens_ofTokens (Token.ofText command), parts, List.flatMap_append,
      List.flatMap_cons] at balanced
    by_cases isRegion : segment.kind = .region
    · simp [isRegion, balanced.part_iff]
    · simpa [isRegion] using ((kind_iff parts _).mp rfl).areBalanced kept isRegion

/-- The entries of a balanced command are balanced exactly if no channel selection that is an entry
has one end of a group inside and the other one outside. -/
theorem areBalanced_split_iff (command : Text) (balanced : AreBalanced (Token.ofText command)) :
    (∀ part ∈ split command, AreBalanced (Token.ofText part.command)) ↔
      ∀ before segment after, ofTokens (Token.ofText command) = before ++ segment :: after →
        segment.kind = .region →
          ¬CutsGroup (before.flatMap Segment.tokens) segment.tokens
            (after.flatMap Segment.tokens) := by
  constructor
  · intro each before segment after parts isRegion
    have isPart : segment.entry? = some ⟨segment.label, Text.unwords segment.tokens⟩ := by
      simp [ entry?, isRegion]
    have isBalanced := each _ (List.mem_filterMap.mpr ⟨segment, by simp [parts], isPart⟩)
    exact (areBalanced_part_iff balanced parts isPart).mp isBalanced isRegion
  · intro uncut part member
    rcases List.mem_filterMap.mp member with ⟨segment, inCommand, isPart⟩
    rcases List.append_of_mem inCommand with ⟨before, after, parts⟩
    exact (areBalanced_part_iff balanced parts isPart).mpr (uncut before segment after parts)

theorem areBalanced_split_iff_nested :
    AreBalanced (Token.ofText "-channel Red ( -negate ) +channel") ∧
      ((∀ part ∈ split "-channel Red ( -negate ) +channel",
          AreBalanced (Token.ofText part.command)) ↔
        ∀ before segment after,
          ofTokens (Token.ofText "-channel Red ( -negate ) +channel") =
            before ++ segment :: after → segment.kind = .region →
              ¬CutsGroup (before.flatMap Segment.tokens) segment.tokens
                (after.flatMap Segment.tokens)) :=
  ⟨by decide +kernel, areBalanced_split_iff _ (by decide +kernel)⟩

/-- A channel selection may end inside a group that begins in it: its entry leaves the group open,
and the closing parenthesis is skipped. -/
theorem split_unbalanced_region :
    ¬(AreBalanced (Token.ofText "-channel Red ( -negate +channel )") →
      ∀ part ∈ split "-channel Red ( -negate +channel )",
        AreBalanced (Token.ofText part.command)) := by
  decide +kernel

end Segment

end Retouch
