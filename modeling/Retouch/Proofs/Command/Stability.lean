import Retouch.Proofs.Command.Balance

/-!
# Splitting twice

The entries of a command, joined again, are split into the same entries. What was skipped is missing
now, but that changes no segment that is left: a channel selection or a group is closed inside of
its own tokens, a flag with fewer arguments than it takes is followed by the next segment, which
begins with no argument, and a selection that was closed nowhere has lost ends of selections only,
so that it is still closed nowhere.
-/

namespace Retouch.Segment

variable {opener closer : Text} {tokens left following fewer span : List Text} {kind : Kind}

/-! ## Selections that stay open -/

/-- An opening token stays open exactly if behind it there is never more closed than opened. -/
theorem staysOpen_cons_iff (distinct : opener ≠ closer) :
    StaysOpen opener closer (opener :: tokens) ↔
    ∀ front, front <+: tokens → front.count closer ≤ front.count opener := by
  constructor
  · intro staysOpen front isPrefix
    -- the first beginning that closes more than it opens ends where the token is closed
    by_contra closed
    have unopened : front.count opener + 0 < front.count closer := by omega
    rcases exists_closesAt distinct isPrefix unopened with ⟨inside, isInside, closes⟩
    apply staysOpen (opener :: inside) (List.cons_prefix_cons.mpr ⟨rfl, isInside⟩)
    exact (isEnclosed_cons_iff distinct).mpr closes
  · intro covered front isPrefix enclosed
    rcases List.prefix_cons_iff.mp isPrefix with rfl | ⟨inside, rfl, isInside⟩
    · simpa using enclosed.begins
    · have balances := ((isEnclosed_cons_iff distinct).mp enclosed).balances
      have within := covered inside isInside
      omega

/-- If tokens are left out but none of a kind, then a beginning of what is left comes from a
beginning of the tokens with as many of this kind. -/
theorem exists_prefix_of_sublist (sublist : left.Sublist tokens)
    (same : left.count opener = tokens.count opener)
    {front : List Text} (isPrefix : front <+: left) :
    ∃ whole, whole <+: tokens ∧ front.Sublist whole ∧
      front.count opener = whole.count opener := by
  induction sublist generalizing front with
  | slnil =>
      exact ⟨[], List.nil_prefix, by simpa using isPrefix,
        by simp [List.prefix_nil.mp isPrefix]⟩
  | @cons left tokens token sublist ih =>
      have fewer := sublist.count_le opener
      have notOpener : token ≠ opener := by
        rintro rfl
        rw [List.count_cons_self] at same
        omega
      rw [List.count_cons_of_ne notOpener] at same
      rcases ih same isPrefix with ⟨whole, isWhole, inWhole, count⟩
      refine ⟨token :: whole, List.cons_prefix_cons.mpr ⟨rfl, isWhole⟩,
        inWhole.cons token, ?_⟩
      rw [count, List.count_cons_of_ne notOpener]
  | @cons_cons left tokens token sublist ih =>
      rw [List.count_cons, List.count_cons, Nat.add_right_cancel_iff] at same
      rcases List.prefix_cons_iff.mp isPrefix with rfl | ⟨rest, rfl, isRest⟩
      · exact ⟨[], List.nil_prefix, List.nil_sublist _, rfl⟩
      · rcases ih same isRest with ⟨whole, isWhole, inWhole, count⟩
        refine ⟨token :: whole, List.cons_prefix_cons.mpr ⟨rfl, isWhole⟩,
          inWhole.cons_cons token, ?_⟩
        rw [List.count_cons, List.count_cons, count]

/-- An opening token that stays open still does when tokens behind it are left out that open
nothing. -/
theorem StaysOpen.sublist (distinct : opener ≠ closer)
    (staysOpen : StaysOpen opener closer (opener :: tokens))
    (sublist : left.Sublist tokens) (same : left.count opener = tokens.count opener) :
    StaysOpen opener closer (opener :: left) := by
  rw [staysOpen_cons_iff distinct] at staysOpen ⊢
  intro front isPrefix
  rcases exists_prefix_of_sublist sublist same isPrefix with ⟨whole, isWhole, inWhole, count⟩
  calc front.count closer ≤ whole.count closer := inWhole.count_le closer
    _ ≤ whole.count opener := staysOpen whole isWhole
    _ = front.count opener := count.symm

/-! ## Segments that are left -/

/-- A segment that makes an entry stays one when tokens behind it are left out, if they open no
selection and no argument comes to stand behind the segment. -/
theorem IsSegment.sublist (isSegment : IsSegment following kind span) (kept : kind ≠ .skipped)
    (sublist : fewer.Sublist following)
    (same : fewer.count Flag.regionOpen = following.count Flag.regionOpen)
    (stop : ∀ token ∈ fewer.head?, Token.isArgument token = false) :
    IsSegment fewer kind span := by
  cases isSegment with
  | region enclosed => exact .region enclosed
  | group enclosed => exact .group enclosed
  | @atom flag arguments isFlag notEnd window notSafety unclosed =>
      refine .atom isFlag notEnd ⟨window.plain, window.atMost, fun _ => stop⟩ notSafety ?_
      rintro rfl
      apply (unclosed rfl).sublist (by decide)
      · exact sublist.append_left arguments
      · rw [List.count_append, List.count_append, same]
  | stray | regionClose | safety => exact absurd rfl kept

def kept (segments : List Segment) : List Segment :=
  segments.filter (·.kind ≠ .skipped)

theorem kept_cons_of_skipped {segment : Segment} (isSkipped : segment.kind = .skipped)
    (segments : List Segment) :
    kept (segment :: segments) = kept segments :=
  List.filter_cons_of_neg (by simpa using isSkipped)

theorem kept_cons_of_ne {segment : Segment} (isKept : segment.kind ≠ .skipped)
    (segments : List Segment) :
    kept (segment :: segments) = segment :: kept segments :=
  List.filter_cons_of_pos (by simpa using isKept)

theorem filterMap_entry?_kept (segments : List Segment) :
    (kept segments).filterMap entry? = segments.filterMap entry? := by
  induction segments with
  | nil => rfl
  | cons segment segments ih =>
      by_cases isSkipped : segment.kind = .skipped
      · rw [kept_cons_of_skipped isSkipped,
          List.filterMap_cons_none (by simp [ entry?, isSkipped]), ih]
      · rw [kept_cons_of_ne isSkipped, List.filterMap_cons, List.filterMap_cons, ih]

theorem flatMap_tokens_kept_sublist (segments : List Segment) :
    ((kept segments).flatMap Segment.tokens).Sublist (segments.flatMap Segment.tokens) :=
  (List.filter_sublist.map Segment.tokens).flatten

section Cut

variable {segments : List Segment} (parts : ofTokens tokens = segments)

include parts

theorem exists_isSegment_of_mem {segment : Segment} (member : segment ∈ segments) :
    ∃ following, IsSegment following segment.kind segment.tokens := by
  rcases List.append_of_mem member with ⟨before, after, rfl⟩
  exact ⟨_, (kind_iff parts _).mp rfl⟩

/-- The tokens of the segments that are left begin with no argument. -/
theorem isArgument_head?_kept :
    ∀ token ∈ ((kept segments).flatMap Segment.tokens).head?,
      Token.isArgument token = false := by
  intro token member
  rcases left : kept segments with _ | ⟨segment, others⟩
  · simp [left] at member
  · have isLeft : segment ∈ kept segments := by simp [left]
    rcases List.mem_filter.mp isLeft with ⟨inSegments, isKept⟩
    rcases exists_isSegment_of_mem parts inSegments with ⟨following, isSegment⟩
    rcases isSegment.isArgument_head? (by simpa using isKept) with ⟨first, isFirst, notArgument⟩
    rw [left, List.flatMap_cons, List.head?_append, isFirst] at member
    rwa [← Option.some.inj member]

theorem count_regionOpen_kept :
    ((kept segments).flatMap Segment.tokens).count Flag.regionOpen =
      (segments.flatMap Segment.tokens).count Flag.regionOpen := by
  have lasting : isLasting Flag.regionOpen := by decide
  have lost : ∀ segment ∈ segments, segment.kind = .skipped →
      segment.tokens.filter isLasting = [] := by
    intro segment member isSkipped
    rcases exists_isSegment_of_mem parts member with ⟨following, isSegment⟩
    rw [isSkipped] at isSegment
    exact filter_isLasting_of_isSkipped isSegment
  calc ((kept segments).flatMap Segment.tokens).count Flag.regionOpen
      = (((kept segments).flatMap Segment.tokens).filter isLasting).count Flag.regionOpen :=
        (List.count_filter lasting).symm
    _ = ((segments.flatMap Segment.tokens).filter isLasting).count Flag.regionOpen := by
        rw [kept, filter_isLasting_flatMap lost]
    _ = (segments.flatMap Segment.tokens).count Flag.regionOpen := List.count_filter lasting

end Cut

/-- Without the tokens that are skipped, tokens are cut into the segments that are left. -/
theorem ofTokens_kept (tokens : List Text) :
    ofTokens ((kept (ofTokens tokens)).flatMap Segment.tokens) = kept (ofTokens tokens) := by
  generalize parts : ofTokens tokens = segments
  induction segments generalizing tokens with
  | nil => exact ofTokens.eq_1
  | cons segment after ih =>
      rcases cuts_ofTokens.exists_of_cons parts with ⟨token, front, made, -, later⟩
      by_cases isSkipped : segment.kind = .skipped
      · rw [kept_cons_of_skipped isSkipped]
        exact ih _ later
      -- the segment is the first one of what is left: only tokens behind it are gone, and they
      -- opened nothing
      have isSegment : IsSegment (after.flatMap Segment.tokens) segment.kind segment.tokens :=
        (kind_iff (show ofTokens tokens = [] ++ segment :: after from parts) _).mp rfl
      have stays := isSegment.sublist isSkipped (flatMap_tokens_kept_sublist after)
        (count_regionOpen_kept later) (isArgument_head?_kept later)
      rw [made, ← first_eq_iff] at stays
      rw [kept_cons_of_ne isSkipped, List.flatMap_cons, made, List.cons_append,
        cuts_ofTokens.cons_append (by rw [stays]), ih _ later, stays, ← made]

/-! ## Entries -/

/-- The join of the entries of a command is the join of the tokens that are left of it. -/
theorem unwords_split (command : Text) :
    Text.unwords ((split command).map LabelledCommand.command) =
      Text.unwords ((kept (ofTokens (Token.ofText command))).flatMap Segment.tokens) := by
  have nonempty : ∀ group ∈ (kept (ofTokens (Token.ofText command))).map Segment.tokens,
      group ≠ [] := by
    intro group member
    rcases List.mem_map.mp member with ⟨segment, isLeft, rfl⟩
    rcases List.mem_filter.mp isLeft with ⟨inSegments, isKept⟩
    rcases exists_isSegment_of_mem rfl inSegments with ⟨following, isSegment⟩
    rcases isSegment.isArgument_head? (by simpa using isKept) with ⟨first, isFirst, -⟩
    intro none
    simp [none] at isFirst
  rw [split, map_command_entries, ← kept, List.flatMap, ← Text.unwords_map_unwords _ nonempty,
    List.map_map]
  rfl

/-- A command is split again into the same entries if their join does not end with a blank
character: the join is then read as the tokens that were left. -/
theorem split_unwords_of_not_blank {command : Text}
    (last : ∀ c ∈ (Text.unwords ((split command).map LabelledCommand.command)).getLast?,
        Text.isBlank c = false) :
    split (Text.unwords ((split command).map LabelledCommand.command)) = split command := by
  have sublist := flatMap_tokens_kept_sublist (ofTokens (Token.ofText command))
  rw [flatMap_tokens_ofTokens] at sublist
  have separable := (Token.separable_scan (Text.trim command)).sublist sublist
  rw [unwords_split] at last ⊢
  have start :
      ∀ c ∈ (Text.unwords
      ((kept (ofTokens (Token.ofText command))).flatMap Segment.tokens)).head?,
      Text.isBlank c = false := fun c member =>
        (Token.isStart_unwords (isArgument_head?_kept rfl) c member).isBlank
  have tokens := Token.ofText_unwords separable start last
  rw [split, tokens, ofTokens_kept, filterMap_entry?_kept, split]

/-- Splitting is stable: if the blank characters of a command are spaces and tabs, the join of its
entries is split into the same entries, with the same labels. -/
theorem split_unwords_split (command : Text)
    (spaced : ∀ c ∈ command, Text.isBlank c → c = ' ' ∨ c = '\t') :
    split (Text.unwords ((split command).map LabelledCommand.command)) = split command := by
  apply split_unwords_of_not_blank
  rw [unwords_split]
  have inCommand : ∀ token ∈ (kept (ofTokens (Token.ofText command))).flatMap Segment.tokens,
      token ∈ Token.ofText command := by
    have sublist := flatMap_tokens_kept_sublist (ofTokens (Token.ofText command))
    rw [flatMap_tokens_ofTokens] at sublist
    exact fun token member => sublist.subset member
  apply Text.forall_getLast?_unwords
  · intro token member
    exact (Token.separable_scan (Text.trim command)).ne_nil (inCommand token member)
  · intro token member c ends
    have notSeparator : Token.isSeparator c = false := by
      refine Token.isSeparator_getLast?_of_mem_scan ?_ (inCommand token member) c ends
      intro d last
      exact Token.isSeparator_of_not_isBlank (Text.isBlank_getLast?_trimEnd _ d last)
    by_contra blank
    have isIn : c ∈ command :=
      Text.mem_of_mem_trim
        (Token.mem_of_mem_scan (inCommand token member) (List.mem_of_mem_getLast? ends))
    rcases spaced c isIn (by simpa using blank) with rfl | rfl <;>
      exact absurd notSeparator (by decide)

/-- Stray arguments, an end without a selection, a flag without its argument in front of a safety
pair, an open selection in front of a closed one, a group that stays open and a literal that
does. -/
theorem split_unwords_split_skips :
    let command : Text :=
      "x +channel -blur -alpha opaque y -channel Red -channel Blue ) -negate +channel " ++
        "( -edge\t1 2 -fill 'a \"b"
    (∀ c ∈ command, Text.isBlank c → c = ' ' ∨ c = '\t') ∧
      (split command).map LabelledCommand.command =
        ["-blur", "-channel Red", "-channel Blue ) -negate +channel", "-edge 1", "-fill 'a \"b"] ∧
      split (Text.unwords ((split command).map LabelledCommand.command)) = split command := by
  intro command
  have spaced : ∀ c ∈ command, Text.isBlank c → c = ' ' ∨ c = '\t' := by decide +kernel
  exact ⟨spaced, by decide +kernel, split_unwords_split command spaced⟩

end Retouch.Segment
