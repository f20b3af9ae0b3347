import Retouch.Proofs.Command.FilenameFree

/-!
# Blank characters around a text

Text is trimmed when all other passes are over. Of these, only the one for tool names looks at the
beginning and at the end of a text: the others leave blank characters around it where they are, but
for a line break that a code fence takes with it, and make the same of what is between them.
-/

namespace Retouch

namespace Cleanup

variable {text front back : Text}

/-! ## Code fences -/

theorem ne_backtick_of_isBlank {c : Char} (blank : Text.isBlank c) : c ≠ backtick := by
  rintro rfl
  exact absurd blank (by decide)

theorem removeFences_append_left (noFence : backtick ∉ front) (text : Text) :
    removeFences (front ++ text) = front ++ removeFences text := by
  induction front with
  | nil => rfl
  | cons c front ih =>
      simp only [List.mem_cons, not_or] at noFence
      rw [removeFences] at ih
      rw [List.cons_append, removeFences,
        removeFenceMarks_of_none (afterFence?_cons_of_ne (Ne.symm noFence.1) _),
        List.filter_cons_of_pos (by simpa using Ne.symm noFence.1), ih noFence.2, List.cons_append]

/-- Behind a fence blank characters stay, but for a line break right behind its language name. -/
theorem exists_afterFence_append (blank : ∀ c ∈ back, Text.isBlank c) (text : Text) :
    ∃ left, left <:+ back ∧ afterFence (text ++ back) = afterFence text ++ left := by
  have noLetters : back.dropWhile Text.isAnyLetter = back := by
    rcases back with _ | ⟨c, rest⟩
    · rfl
    · rw [List.dropWhile_cons_of_neg
        (by simp [Text.isAnyLetter_of_isBlank (blank c List.mem_cons_self)])]
  unfold afterFence
  rw [List.dropWhile_append, noLetters]
  cases following : text.dropWhile Text.isAnyLetter with
  | nil =>
      split
      · next rest begins =>
          obtain rfl : back = '\n' :: rest := begins
          exact ⟨rest, List.suffix_cons _ _, rfl⟩
      · exact ⟨back, List.suffix_refl _, rfl⟩
  | cons c rest =>
      refine ⟨back, List.suffix_refl _, ?_⟩
      by_cases feed : c = '\n'
      · subst feed
        rfl
      · simp [feed]

/-- Removing code fences leaves blank characters behind a text, but for a line break that belongs to
a fence. -/
theorem exists_removeFences_append (blank : ∀ c ∈ back, Text.isBlank c) (text : Text) :
    ∃ left, left <:+ back ∧ removeFences (text ++ back) = removeFences text ++ left := by
  have noFence {blanks : Text} (blank : ∀ c ∈ blanks, Text.isBlank c) : backtick ∉ blanks :=
    fun member => ne_backtick_of_isBlank (blank _ member) rfl
  -- Blank characters complete no fence, but a fence can take a line break from them.
  have marks : ∃ left, left <:+ back ∧
      removeFenceMarks (text ++ back) = removeFenceMarks text ++ left := by
    induction text using removeFenceMarks.induct generalizing back with
    | case1 =>
        exact ⟨back, List.suffix_refl _,
          by rw [List.nil_append, removeFenceMarks_eq_self (noFence blank),
        removeFenceMarks, List.nil_append]⟩
    | case2 c rest after found ih =>
        rcases Option.map_eq_some_iff.mp found with ⟨following, begins, rfl⟩
        rcases exists_afterFence_append blank following with ⟨left, isSuffix, after_eq⟩
        have foundBefore : afterFence? (c :: (rest ++ back)) =
            some (afterFence following ++ left) := by
          rw [← after_eq, ← List.cons_append, Text.eq_append_of_afterStart? begins]
          rfl
        rcases ih fun d member => blank d (isSuffix.subset member) with ⟨last, isLast, marks⟩
        exact ⟨last, isLast.trans isSuffix, by
          rw [List.cons_append, removeFenceMarks_of_some foundBefore,
            removeFenceMarks_of_some found, marks]⟩
    | case3 c rest absent ih =>
        have absentBefore : afterFence? (c :: (rest ++ back)) = none := by
          rw [afterFence?, Option.map_eq_none_iff] at absent ⊢
          rw [← List.cons_append]
          refine Text.afterStart?_append_eq_none absent fun d isHead member => ?_
          have isMark : d = backtick := by simpa using member
          exact ne_backtick_of_isBlank (blank d (List.mem_of_mem_head? isHead)) isMark
        rcases ih blank with ⟨left, isSuffix, marks⟩
        exact ⟨left, isSuffix, by
          rw [List.cons_append, removeFenceMarks_of_none absentBefore,
            removeFenceMarks_of_none absent, marks, List.cons_append]⟩
  rcases marks with ⟨left, isSuffix, marks⟩
  refine ⟨left, isSuffix, ?_⟩
  have kept : left.filter (· != backtick) = left := by
    refine List.filter_eq_self.mpr fun c member => ?_
    simpa using ne_backtick_of_isBlank (blank c (isSuffix.subset member))
  rw [removeFences, marks, List.filter_append, kept, removeFences]

/-! ## The passes behind the one for tool names -/

theorem isBoundary_of_isBlank {c : Char} (blank : Text.isBlank c) : IsBoundary c where
  noWord := Text.isWordChar_of_isBlank blank
  noDot := by rintro rfl; exact absurd blank (by decide)

theorem removeFilenames_around (blankFront : ∀ c ∈ front, Text.isBlank c)
    (blankBack : ∀ c ∈ back, Text.isBlank c)
    (text : Text) : removeFilenames (front ++ text ++ back) =
      front ++ removeFilenames text ++ back := by
  have blanks {blanks : Text} (blank : ∀ c ∈ blanks, Text.isBlank c) :
      removeFilenames blanks = blanks :=
    removeFilenames_eq_self fun member => absurd (blank _ member) (by decide)
  have behind (text : Text) : removeFilenames (text ++ back) = removeFilenames text ++ back := by
    rcases back with _ | ⟨d, back⟩
    · simp
    · rw [List.forall_mem_cons] at blankBack
      rw [removeFilenames, removeFilenamesFrom_append (isBoundary_of_isBlank blankBack.1),
        blanks blankBack.2, removeFilenames]
  induction front with
  | nil => exact behind text
  | cons c front ih =>
      rw [List.forall_mem_cons] at blankFront
      rw [List.cons_append, List.cons_append, removeFilenames,
        removeFilenamesFrom_cons (isBoundary_of_isBlank blankFront.1), ih blankFront.2,
          List.cons_append,
        List.cons_append]

theorem fillPlaceholders_append_left (closed : '<' ∉ front) (text : Text) :
    fillPlaceholders (front ++ text) = front ++ fillPlaceholders text := by
  induction front with
  | nil => rfl
  | cons c front ih =>
      simp only [List.mem_cons, not_or] at closed
      have absent : afterPlaceholder? (c :: (front ++ text)) = none :=
        afterPlaceholder?_cons_eq_none_iff.mpr fun opening => absurd opening.symm closed.1
      rw [List.cons_append, fillPlaceholders_of_none absent, ih closed.2, List.cons_append]

/-- Placeholders that are not closed in a text are not closed by what has no closing bracket. -/
theorem fillPlaceholders_append_right (opened : '<' ∉ back) (closed : '>' ∉ back)
    (text : Text) :
    fillPlaceholders (text ++ back) = fillPlaceholders text ++ back := by
  induction text using fillPlaceholders.induct with
  | case1 =>
      have none := fillPlaceholders_append_left opened []
      simpa [fillPlaceholders] using none
  | case2 c rest after found ih =>
      have foundBefore : afterPlaceholder? (c :: (rest ++ back)) = some (after ++ back) := by
        rw [afterPlaceholder?] at found ⊢
        split at found
        · next opening =>
            have head : (rest ++ back).head? = rest.head? := by
              rw [Text.eq_append_of_after? found]
              simp
            rw [if_pos (by rwa [head]), Text.eq_append_of_after? found, List.append_assoc,
              List.cons_append, Text.after?_append (Text.notMem_before _ _)]
        · simp at found
      rw [List.cons_append, fillPlaceholders_of_some foundBefore,
        fillPlaceholders_of_some found, ih, List.cons_append]
  | case3 c rest absent ih =>
      have absentBefore : afterPlaceholder? (c :: (rest ++ back)) = none := by
        rw [afterPlaceholder?_cons_eq_none_iff] at absent ⊢
        intro opening
        rcases absent opening with atOnce | never
        · exact .inl (by simp [atOnce])
        · exact .inr (by simp [never, closed])
      rw [List.cons_append, fillPlaceholders_of_none absentBefore,
        fillPlaceholders_of_none absent, ih, List.cons_append]

/-- In front of a text, a run of line breaks only goes on. -/
theorem exists_replaceBreaks_append_left (blank : ∀ c ∈ front, Text.isBlank c) (inRun : Bool) :
    ∃ blanks inRunLater, (∀ c ∈ blanks, Text.isBlank c) ∧
      ∀ text, replaceBreaks inRun (front ++ text) = blanks ++ replaceBreaks inRunLater text := by
  induction front generalizing inRun with
  | nil => exact ⟨[], inRun, by simp, fun _ => rfl⟩
  | cons c front ih =>
      rw [List.forall_mem_cons] at blank
      cases isBreak : isReturnOrFeed c with
      | false =>
          rcases ih blank.2 false with ⟨blanks, inRunLater, areBlank, begins⟩
          refine ⟨c :: blanks, inRunLater, List.forall_mem_cons.mpr ⟨blank.1, areBlank⟩,
            fun text => ?_⟩
          rw [List.cons_append, replaceBreaks, if_neg (by simp [isBreak]), begins, List.cons_append]
      | true =>
          rcases ih blank.2 true with ⟨blanks, inRunLater, areBlank, begins⟩
          cases inRun with
          | true =>
              refine ⟨blanks, inRunLater, areBlank, fun text => ?_⟩
              rw [List.cons_append, replaceBreaks, if_pos isBreak, if_pos rfl, begins]
          | false =>
              refine ⟨' ' :: blanks, inRunLater,
                List.forall_mem_cons.mpr ⟨by decide, areBlank⟩, fun text => ?_⟩
              rw [List.cons_append, replaceBreaks, if_pos isBreak, if_neg (by decide), begins,
                List.cons_append]

theorem exists_replaceBreaks_append_right (blank : ∀ c ∈ back, Text.isBlank c) (inRun : Bool)
    (text : Text) :
    ∃ blanks, (∀ c ∈ blanks, Text.isBlank c) ∧
      replaceBreaks inRun (text ++ back) = replaceBreaks inRun text ++ blanks := by
  induction text generalizing inRun with
  | nil =>
      refine ⟨replaceBreaks inRun back, fun c member => ?_, rfl⟩
      rcases (mem_replaceBreaks member).2 with rfl | inBack
      · decide
      · exact blank c inBack
  | cons c text ih =>
      rw [List.cons_append, replaceBreaks, replaceBreaks]
      split
      · rcases ih true with ⟨blanks, areBlank, ends⟩
        split
        · exact ⟨blanks, areBlank, ends⟩
        · exact ⟨blanks, areBlank, by rw [ends, List.cons_append]⟩
      · rcases ih false with ⟨blanks, areBlank, ends⟩
        exact ⟨blanks, areBlank, by rw [ends, List.cons_append]⟩

theorem trim_replaceBreaks (inRun : Bool) (text : Text) :
    Text.trim (replaceBreaks inRun text) = joinLines text := by
  cases inRun with
  | false => rfl
  | true =>
      rcases text with _ | ⟨c, text⟩
      · rfl
      · rw [joinLines, replaceBreaks, replaceBreaks]
        split
        · have around : Text.trim ([' '] ++ replaceBreaks true text ++ []) =
              Text.trim (replaceBreaks true text) :=
            Text.trim_around (by decide) (by simp) _
          simpa using around.symm
        · rfl

theorem joinLines_around (blankFront : ∀ c ∈ front, Text.isBlank c)
    (blankBack : ∀ c ∈ back, Text.isBlank c)
    (text : Text) : joinLines (front ++ text ++ back) = joinLines text := by
  rcases exists_replaceBreaks_append_left blankFront false with
    ⟨before, inRun, blankBefore, front_eq⟩
  rcases exists_replaceBreaks_append_right blankBack inRun text with
    ⟨behind, blankBehind, back_eq⟩
  rw [joinLines, List.append_assoc, front_eq, back_eq, ← List.append_assoc,
    Text.trim_around blankBefore blankBehind, trim_replaceBreaks]

/-- What text that goes to the engine goes through behind the removal of tool names. -/
def finish (text : Text) : Text :=
  joinLines (fillPlaceholders (removeFilenames text))

theorem finish_around (blankFront : ∀ c ∈ front, Text.isBlank c)
    (blankBack : ∀ c ∈ back, Text.isBlank c)
    (text : Text) : finish (front ++ text ++ back) = finish text := by
  have absent {blanks : Text} {c : Char} (blank : ∀ c ∈ blanks, Text.isBlank c)
      (other : Text.isBlank c = false) :
      c ∉ blanks := fun member => by simp [blank c member] at other
  rw [finish, removeFilenames_around blankFront blankBack,
    fillPlaceholders_append_right (absent blankBack (by decide)) (absent blankBack (by decide)),
    fillPlaceholders_append_left (absent blankFront (by decide)),
      joinLines_around blankFront blankBack, finish]

theorem finish_trimStart (text : Text) : finish (Text.trimStart text) = finish text := by
  have blank : ∀ c ∈ text.takeWhile Text.isBlank, Text.isBlank c := fun c =>
    List.mem_takeWhile_imp
  have around : finish (text.takeWhile Text.isBlank ++ Text.trimStart text ++ []) =
      finish (Text.trimStart text) :=
    finish_around blank (by simp) _
  rw [List.append_nil, Text.trimStart, List.takeWhile_append_dropWhile] at around
  exact around.symm

theorem replaceBreaks_append_left (noBreak : ∀ c ∈ front, isReturnOrFeed c = false)
    (text : Text) :
    replaceBreaks false (front ++ text) = front ++ replaceBreaks false text := by
  induction front with
  | nil => rfl
  | cons c front ih =>
      rw [List.forall_mem_cons] at noBreak
      rw [List.cons_append, replaceBreaks, if_neg (by simp [noBreak.1]), ih noBreak.2,
        List.cons_append]

/-- A word in front of a blank character stays as it is. -/
theorem exists_finish_append {word : Text} {blank : Char} (nonempty : word ≠ [])
    (isWord : ∀ c ∈ word, Text.isWordChar c) (isBlank : Text.isBlank blank) (rest : Text) :
    ∃ tail, finish (word ++ blank :: rest) = word ++ tail ∧ Text.trim tail = finish rest := by
  have foreign {c : Char} (other : Text.isWordChar c = false) : c ∉ word := fun member => by
    simp [isWord c member] at other
  have noBlank : ∀ c ∈ word, Text.isBlank c = false := fun c member =>
    Text.not_isBlank_of_isWordChar (isWord c member)
  have noBreak : ∀ c ∈ word, isReturnOrFeed c = false := fun c member => by
    by_contra isBreak
    exact foreign (isWordChar_of_isReturnOrFeed (by simpa using isBreak)) member
  have opened : '<' ∉ word ++ [blank] := by
    have other : '<' ≠ blank := fun same => absurd (same ▸ isBlank) (by decide)
    simp [foreign (c := '<') (by decide +kernel), other]
  have alone : removeFilenamesFrom false word = word :=
    removeFilenames_eq_self (foreign (by decide +kernel))
  have filled : fillPlaceholders (removeFilenames (word ++ blank :: rest)) =
      word ++ blank :: fillPlaceholders (removeFilenames rest) := by
    rw [removeFilenames, removeFilenamesFrom_append (isBoundary_of_isBlank isBlank), alone,
      List.append_cons, fillPlaceholders_append_left opened, ← List.append_cons]
  have joined : joinLines ([blank] ++ fillPlaceholders (removeFilenames rest) ++ []) =
      finish rest :=
    joinLines_around (by simpa using isBlank) (by simp) _
  rw [List.append_nil, List.singleton_append, joinLines] at joined
  refine ⟨_, ?_, (Text.trim_trimEnd _).trans joined⟩
  have first :
      ∀ c ∈ (word ++ replaceBreaks false
      (blank :: fillPlaceholders (removeFilenames rest))).head?,
      Text.isBlank c = false := by
    rw [List.head?_append_of_ne_nil _ nonempty]
    exact fun c member => noBlank c (List.mem_of_mem_head? member)
  rw [finish, filled, joinLines, replaceBreaks_append_left noBreak, Text.trim_eq_trimEnd first,
    Text.trimEnd_append_eq fun c member => noBlank c (List.mem_of_getLast? member)]

end Cleanup

end Retouch
