import Retouch.Command.Cleanup
import Retouch.Proofs.Text.Split
import Retouch.Proofs.Text.Trim

/-!
# Clean text

What the cleaning passes leave and when they change nothing. Text that went through validation's
passes has no backtick, no line break, no placeholder and no blank character at its ends. A
placeholder is an opening angle bracket that something closes, so in text without placeholders every
such bracket is closed at once or never.
-/

namespace Retouch.Cleanup

/-- Text in which no placeholder begins anywhere: what follows an opening angle bracket closes it at
once or never. -/
def HasNoPlaceholder : Text → Prop
  | [] => True
  | c :: rest => (c = '<' → rest.head? = some '>' ∨ '>' ∉ rest) ∧ HasNoPlaceholder rest

theorem afterPlaceholder?_cons_eq_none_iff {c : Char} {rest : Text} :
    afterPlaceholder? (c :: rest) = none ↔
      (c = '<' → rest.head? = some '>' ∨ '>' ∉ rest) := by
  rw [afterPlaceholder?]
  split
  · next opening => simp [opening, Text.after?_eq_none_iff]
  · next other =>
      simp only [ne_eq, not_and, not_not] at other
      simp only [true_iff]
      exact fun opening => Or.inl (other opening)

theorem fillPlaceholders_of_none {c : Char} {rest : Text}
    (absent : afterPlaceholder? (c :: rest) = none) :
    fillPlaceholders (c :: rest) = c :: fillPlaceholders rest := by
  rw [fillPlaceholders]
  split
  · next found => simp [absent] at found
  · rfl

theorem fillPlaceholders_of_some {c : Char} {rest after : Text}
    (found : afterPlaceholder? (c :: rest) = some after) :
    fillPlaceholders (c :: rest) = placeholderValue :: fillPlaceholders after := by
  rw [fillPlaceholders]
  split
  · next other => rw [Option.some.inj (found.symm.trans other)]
  · next absent => simp [found] at absent

theorem fillPlaceholders_eq_self {text : Text} (absent : HasNoPlaceholder text) :
    fillPlaceholders text = text := by
  induction text with
  | nil => rw [fillPlaceholders]
  | cons c rest ih =>
      rw [fillPlaceholders_of_none (afterPlaceholder?_cons_eq_none_iff.mpr absent.1), ih absent.2]

theorem mem_of_mem_afterPlaceholder? {c : Char} {text rest : Text}
    (found : afterPlaceholder? text = some rest) (member : c ∈ rest) : c ∈ text := by
  cases text with
  | nil => simp [afterPlaceholder?] at found
  | cons d text =>
      rw [afterPlaceholder?] at found
      split at found
      · exact List.mem_cons_of_mem _ (Text.mem_of_mem_after? found member)
      · simp at found

theorem mem_fillPlaceholders {c : Char} {text : Text} (member : c ∈ fillPlaceholders text) :
    c = placeholderValue ∨ c ∈ text := by
  induction text using fillPlaceholders.induct with
  | case1 => simp [fillPlaceholders] at member
  | case2 d rest after found ih =>
      rw [fillPlaceholders_of_some found] at member
      rcases List.mem_cons.mp member with value | later
      · exact Or.inl value
      · exact (ih later).imp_right (mem_of_mem_afterPlaceholder? found)
  | case3 d rest absent ih =>
      rw [fillPlaceholders_of_none absent] at member
      rcases List.mem_cons.mp member with here | later
      · exact Or.inr (by simp [here])
      · exact (ih later).imp_right (List.mem_cons_of_mem _)

/-- After filling in, no placeholder is left, and none has come about. -/
theorem hasNoPlaceholder_fillPlaceholders (text : Text) :
    HasNoPlaceholder (fillPlaceholders text) := by
  induction text using fillPlaceholders.induct with
  | case1 => rw [fillPlaceholders]; trivial
  | case2 c rest after found ih =>
      rw [fillPlaceholders_of_some found]
      exact ⟨fun opening => absurd opening (by decide), ih⟩
  | case3 c rest absent ih =>
      rw [fillPlaceholders_of_none absent]
      refine ⟨fun opening => ?_, ih⟩
      rcases afterPlaceholder?_cons_eq_none_iff.mp absent opening with closed | never
      · left
        cases rest with
        | nil => simp at closed
        | cons d rest =>
            obtain rfl : d = '>' := by simpa using closed
            have unopened : afterPlaceholder? ('>' :: rest) = none :=
              afterPlaceholder?_cons_eq_none_iff.mpr fun opening => absurd opening (by decide)
            rw [fillPlaceholders_of_none unopened]
            rfl
      · right
        intro member
        rcases mem_fillPlaceholders member with value | inRest
        · simp [placeholderValue] at value
        · exact never inRest

theorem HasNoPlaceholder.of_append {front back : Text} (absent : HasNoPlaceholder (front ++ back)) :
    HasNoPlaceholder front ∧ HasNoPlaceholder back := by
  induction front with
  | nil => exact ⟨trivial, absent⟩
  | cons c front ih =>
      obtain ⟨noneFront, noneBack⟩ := ih absent.2
      refine ⟨⟨fun opening => ?_, noneFront⟩, noneBack⟩
      rcases absent.1 opening with closed | never
      · cases front with
        | nil => exact Or.inr (by simp)
        | cons d front => exact Or.inl (by simpa using closed)
      · exact Or.inr fun member => never (List.mem_append_left _ member)

theorem HasNoPlaceholder.of_isInfix {part text : Text} (absent : HasNoPlaceholder text)
    (isInfix : part <:+: text) : HasNoPlaceholder part := by
  obtain ⟨before, after, rfl⟩ := isInfix
  exact absent.of_append.1.of_append.2

theorem mem_replaceBreaks {c : Char} {inRun : Bool} {text : Text}
    (member : c ∈ replaceBreaks inRun text) : isReturnOrFeed c = false ∧
      (c = ' ' ∨ c ∈ text) := by
  induction text generalizing inRun with
  | nil => simp [replaceBreaks] at member
  | cons d rest ih =>
      rw [replaceBreaks] at member
      split at member
      · split at member
        · exact ⟨(ih member).1, (ih member).2.imp_right (List.mem_cons_of_mem _)⟩
        · rcases List.mem_cons.mp member with rfl | later
          · exact ⟨by decide, Or.inl rfl⟩
          · exact ⟨(ih later).1, (ih later).2.imp_right (List.mem_cons_of_mem _)⟩
      · next noBreak =>
          rcases List.mem_cons.mp member with rfl | later
          · exact ⟨by simpa using noBreak, Or.inr (by simp)⟩
          · exact ⟨(ih later).1, (ih later).2.imp_right (List.mem_cons_of_mem _)⟩

theorem replaceBreaks_eq_self {text : Text} (absent : ∀ c ∈ text, isReturnOrFeed c = false)
    (inRun : Bool) :
    replaceBreaks inRun text = text := by
  induction text generalizing inRun with
  | nil => rfl
  | cons c rest ih =>
      rw [replaceBreaks, if_neg (by simp [absent c (by simp)]),
        ih (fun d member => absent d (List.mem_cons_of_mem _ member))]

theorem HasNoPlaceholder.replaceBreaks {text : Text} (absent : HasNoPlaceholder text)
    (inRun : Bool) :
    HasNoPlaceholder (Cleanup.replaceBreaks inRun text) := by
  induction text generalizing inRun with
  | nil => exact trivial
  | cons c rest ih =>
      rw [Cleanup.replaceBreaks]
      split
      · split
        · exact ih absent.2 true
        · exact ⟨fun opening => absurd opening (by decide), ih absent.2 true⟩
      · refine ⟨fun opening => ?_, ih absent.2 false⟩
        rcases absent.1 opening with closed | never
        · left
          cases rest with
          | nil => simp at closed
          | cons d rest =>
              obtain rfl : d = '>' := by simpa using closed
              rfl
        · right
          intro member
          rcases (mem_replaceBreaks member).2 with space | inRest
          · simp at space
          · exact never inRest

theorem afterWord?_suffix {word text rest : Text} (found : Text.afterWord? word text = some rest) :
    rest <:+ text := by
  induction word generalizing text with
  | nil => exact Option.some.inj found ▸ List.suffix_refl text
  | cons letter word ih =>
      cases text with
      | nil => simp [Text.afterWord?] at found
      | cons c text =>
          rw [Text.afterWord?] at found
          split at found
          · exact (ih found).trans (List.suffix_cons c text)
          · simp at found

theorem removeToolName_suffix (names : List Text) (text : Text) :
    removeToolName names text <:+ text := by
  unfold removeToolName
  cases found : afterToolName? names text with
  | none => exact List.suffix_refl text
  | some rest =>
      obtain ⟨name, -, matched⟩ := List.exists_of_findSome?_eq_some found
      split at matched
      · next c after word =>
          split at matched
          · obtain rfl := Option.some.inj matched
            exact (List.dropWhile_suffix _).trans
              ((List.suffix_cons c after).trans (afterWord?_suffix word))
          · simp at matched
      · simp at matched

theorem backtick_notMem_removeFences (text : Text) : backtick ∉ removeFences text := by
  simp [removeFences]

theorem afterFence?_suffix {text rest : Text} (found : afterFence? text = some rest) :
    rest <:+ text := by
  rcases Option.map_eq_some_iff.mp found with ⟨following, marks, rfl⟩
  rw [Text.eq_append_of_afterStart? marks]
  refine List.IsSuffix.trans ?_ (List.suffix_append _ _)
  have dropped := List.dropWhile_suffix Text.isAnyLetter (l := following)
  unfold afterFence
  split
  · next rest parts =>
      rw [parts] at dropped
      exact (List.suffix_cons _ _).trans dropped
  · exact dropped

theorem removeFenceMarks_of_some {c : Char} {rest after : Text}
    (found : afterFence? (c :: rest) = some after) :
    removeFenceMarks (c :: rest) = removeFenceMarks after := by
  rw [removeFenceMarks]
  split
  · next other => rw [Option.some.inj (found.symm.trans other)]
  · next absent => simp [found] at absent

theorem removeFenceMarks_of_none {c : Char} {rest : Text}
    (absent : afterFence? (c :: rest) = none) :
    removeFenceMarks (c :: rest) = c :: removeFenceMarks rest := by
  rw [removeFenceMarks]
  split
  · next found => simp [absent] at found
  · rfl

theorem afterFence?_cons_of_ne {c : Char} (other : c ≠ backtick) (rest : Text) :
    afterFence? (c :: rest) = none := by
  simp [afterFence?, Text.afterStart?, other]

theorem removeFences_sublist (text : Text) : (removeFences text).Sublist text := by
  refine List.filter_sublist.trans ?_
  induction text using removeFenceMarks.induct with
  | case1 => simp [removeFenceMarks]
  | case2 c rest after found ih =>
      rw [removeFenceMarks_of_some found]
      exact ih.trans (afterFence?_suffix found).sublist
  | case3 c rest absent ih =>
      rw [removeFenceMarks_of_none absent]
      exact ih.cons_cons c

theorem removeFenceMarks_eq_self {text : Text} (absent : backtick ∉ text) :
    removeFenceMarks text = text := by
  induction text with
  | nil => rw [removeFenceMarks]
  | cons c rest ih =>
      simp only [List.mem_cons, not_or] at absent
      rw [removeFenceMarks_of_none (afterFence?_cons_of_ne (Ne.symm absent.1) rest), ih absent.2]

theorem removeFences_eq_self {text : Text} (absent : backtick ∉ text) :
    removeFences text = text := by
  rw [removeFences, removeFenceMarks_eq_self absent, List.filter_eq_self]
  intro c member
  simpa using fun same : c = backtick => absent (same ▸ member)

/-- Whether a character begins a flag or a group. -/
def IsStart (c : Char) : Prop :=
  c = '-' ∨ c = '+' ∨ c = '(' ∨ c = ')'

theorem IsStart.isBlank {c : Char} (isStart : IsStart c) : Text.isBlank c = false := by
  rcases isStart with rfl | rfl | rfl | rfl <;> decide

/-- A text that begins with a flag or a group does not begin with a tool name. -/
theorem removeToolName_eq_self {names : List Text} (known : names ⊆ allToolNames) {text : Text}
    (start : ∀ c ∈ text.head?, IsStart c) : removeToolName names text = text := by
  have absent : afterToolName? names text = none := by
    refine List.findSome?_eq_none_iff.mpr fun name member => ?_
    have unmatched : Text.afterWord? name text = none := by
      have isTool := known member
      simp only [allToolNames, List.mem_cons, List.not_mem_nil, or_false] at isTool
      cases text with
      | nil => rcases isTool with rfl | rfl | rfl <;> rfl
      | cons c rest =>
          have isStart : IsStart c := start c (by simp)
          rcases isStart with rfl | rfl | rfl | rfl <;> rcases isTool with rfl | rfl | rfl <;> rfl
    simp [unmatched]
  rw [removeToolName, absent, Option.getD_none]

/-- Text in which validation's passes find nothing, blank characters at its ends excepted. -/
structure IsClean (text : Text) : Prop where
  noBacktick : backtick ∉ text
  noBreak : ∀ c ∈ text, isReturnOrFeed c = false
  noPlaceholder : HasNoPlaceholder text

theorem IsClean.of_isInfix {part text : Text} (clean : IsClean text) (isInfix : part <:+: text) :
    IsClean part where
  noBacktick := fun member => clean.noBacktick (isInfix.subset member)
  noBreak := fun c member => clean.noBreak c (isInfix.subset member)
  noPlaceholder := clean.noPlaceholder.of_isInfix isInfix

/-- The last three passes bring in nothing but spaces and values of placeholders. -/
theorem mem_joinLines_fillPlaceholders {c : Char} {text : Text}
    (member : c ∈ joinLines (fillPlaceholders text)) :
    c = ' ' ∨ c = placeholderValue ∨ c ∈ text :=
  (mem_replaceBreaks (Text.mem_of_mem_trim member)).2.imp_right mem_fillPlaceholders

/-- The last three passes leave nothing to find in text without backticks. -/
theorem isClean_joinLines_fillPlaceholders {text : Text} (absent : backtick ∉ text) :
    IsClean (joinLines (fillPlaceholders text)) where
  noBacktick := by
    intro member
    rcases mem_joinLines_fillPlaceholders member with space | value | inText
    · simp [backtick] at space
    · simp [backtick, placeholderValue] at value
    · exact absent inText
  noBreak := fun c member => (mem_replaceBreaks (Text.mem_of_mem_trim member)).1
  noPlaceholder :=
    ((hasNoPlaceholder_fillPlaceholders text).replaceBreaks false).of_isInfix (Text.isInfix_trim _)

/-- Where there is nothing to find, they only take the blank characters at the ends. -/
theorem IsClean.joinLines_fillPlaceholders {text : Text} (clean : IsClean text)
    (first : ∀ c ∈ text.head?, Text.isBlank c = false) :
    joinLines (fillPlaceholders text) = Text.trimEnd text := by
  rw [fillPlaceholders_eq_self clean.noPlaceholder, joinLines, replaceBreaks_eq_self clean.noBreak,
    Text.trim_eq_trimEnd first]

theorem mem_forValidation {c : Char} {text : Text} (member : c ∈ forValidation text) :
    c = ' ' ∨ c = placeholderValue ∨ c ∈ removeFences text := by
  refine (mem_joinLines_fillPlaceholders member).imp_right (Or.imp_right fun named => ?_)
  exact (List.dropWhile_suffix _).subset ((removeToolName_suffix _ _).subset named)

theorem isClean_forValidation (text : Text) : IsClean (forValidation text) := by
  refine isClean_joinLines_fillPlaceholders fun member => backtick_notMem_removeFences text ?_
  exact (List.dropWhile_suffix _).subset ((removeToolName_suffix _ _).subset member)

/-- Clean text that begins with a flag or a group only loses the blank characters at its end. -/
theorem IsClean.forValidation_eq {text : Text} (clean : IsClean text)
    (start : ∀ c ∈ text.head?, IsStart c) : forValidation text = Text.trimEnd text := by
  have notBlank : ∀ c ∈ text.head?, Text.isBlank c = false := fun c member =>
    (start c member).isBlank
  rw [forValidation, removeFences_eq_self clean.noBacktick, Text.trimStart_eq_self_iff.mpr notBlank,
    removeToolName_eq_self (by decide) start, clean.joinLines_fillPlaceholders notBlank]

end Retouch.Cleanup
