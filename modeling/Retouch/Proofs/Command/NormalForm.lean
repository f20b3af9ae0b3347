import Retouch.Proofs.Command.ToolName

/-!
# Normal form

Each pass of cleaning goes over the text once, and a later pass edits what an earlier one has left.
Still no pass has to be repeated: clean text holds nothing that one of the passes looks for, so that
only a tool name at its beginning could be taken away by cleaning it again.
-/

namespace Retouch.Cleanup

/-- Whether a text is a placeholder: angle brackets with something between them that does not
close. -/
def IsPlaceholder (stretch : Text) : Prop :=
  ∃ inner, inner ≠ [] ∧ '>' ∉ inner ∧ stretch = '<' :: inner ++ ['>']

/-- No placeholder begins anywhere in a text exactly if no stretch of it is one. -/
theorem hasNoPlaceholder_iff {text : Text} :
    HasNoPlaceholder text ↔ ∀ stretch, IsPlaceholder stretch → ¬stretch <:+: text := by
  constructor
  · rintro absent _ ⟨inner, nonempty, open_, rfl⟩ isInfix
    rcases (absent.of_isInfix isInfix).1 rfl with closed | never
    · rcases List.exists_cons_of_ne_nil nonempty with ⟨c, inner, rfl⟩
      obtain rfl : c = '>' := by simpa using closed
      simp at open_
    · simp at never
  · intro absent
    induction text with
    | nil => trivial
    | cons c rest ih =>
        refine ⟨?_, ih fun stretch isPlaceholder isInfix =>
          absent stretch isPlaceholder (isInfix.trans (List.suffix_cons c rest).isInfix)⟩
        rintro rfl
        by_contra! opens
        rcases opens with ⟨notAtOnce, closes⟩
        rcases Text.before_cases '>' rest with all | ⟨after, parts⟩
        · exact Text.notMem_before '>' rest (by rwa [all])
        · refine absent ('<' :: Text.before '>' rest ++ ['>'])
            ⟨_, ?_, Text.notMem_before '>' rest, rfl⟩
            ⟨[], after, ?_⟩
          · intro none
            rw [none] at parts
            simp [parts] at notAtOnce
          · simpa using parts.symm

/-- Text in which the passes of cleaning, but for those that look for a tool name or for file names,
find nothing. -/
structure IsNormal (text : Text) : Prop where
  noBacktick : backtick ∉ text
  noReturn : '\r' ∉ text
  noFeed : '\n' ∉ text
  noPlaceholder : ∀ stretch, IsPlaceholder stretch → ¬stretch <:+: text
  first : ∀ c ∈ text.head?, Text.isBlank c = false
  last : ∀ c ∈ text.getLast?, Text.isBlank c = false

/-- Text in normal form is clean text without blank characters at its ends. -/
theorem isNormal_iff {text : Text} : IsNormal text ↔ IsClean text ∧
    (∀ c ∈ text.head?, Text.isBlank c = false) ∧
      ∀ c ∈ text.getLast?, Text.isBlank c = false := by
  constructor
  · intro normal
    refine ⟨⟨normal.noBacktick, fun c member => ?_,
      hasNoPlaceholder_iff.mpr normal.noPlaceholder⟩, normal.first, normal.last⟩
    have notReturn : c ≠ '\r' := fun same => normal.noReturn (same ▸ member)
    have notFeed : c ≠ '\n' := fun same => normal.noFeed (same ▸ member)
    simp [isReturnOrFeed, notReturn, notFeed]
  · rintro ⟨clean, first, last⟩
    exact ⟨clean.noBacktick, fun member => by simpa [isReturnOrFeed] using clean.noBreak _ member,
      fun member => by simpa [isReturnOrFeed] using clean.noBreak _ member,
      hasNoPlaceholder_iff.mp clean.noPlaceholder, first, last⟩

theorem isNormal_joinLines_fillPlaceholders {text : Text} (absent : backtick ∉ text) :
    IsNormal (joinLines (fillPlaceholders text)) :=
  isNormal_iff.mpr ⟨isClean_joinLines_fillPlaceholders absent, Text.isBlank_head?_trim _,
    Text.isBlank_getLast?_trimEnd _⟩

theorem IsNormal.joinLines_fillPlaceholders {text : Text} (normal : IsNormal text) :
    joinLines (fillPlaceholders text) = text := by
  rcases isNormal_iff.mp normal with ⟨clean, first, last⟩
  rw [clean.joinLines_fillPlaceholders first, Text.trimEnd_eq_self_iff.mpr last]

theorem length_fillPlaceholders_le (text : Text) :
    (fillPlaceholders text).length ≤ text.length := by
  induction text using fillPlaceholders.induct with
  | case1 => rw [fillPlaceholders]
  | case2 c rest after found ih =>
      have shorter := length_afterPlaceholder?_lt found
      rw [fillPlaceholders_of_some found, List.length_cons]
      omega
  | case3 c rest absent ih =>
      rw [fillPlaceholders_of_none absent, List.length_cons, List.length_cons]
      omega

theorem length_replaceBreaks_le (inRun : Bool) (text : Text) :
    (replaceBreaks inRun text).length ≤ text.length := by
  induction text generalizing inRun with
  | nil => exact le_rfl
  | cons c rest ih =>
      have inRunLater := ih true
      have otherwise := ih false
      rw [replaceBreaks]
      split
      · split <;> simp only [List.length_cons] <;> omega
      · simp only [List.length_cons]
        omega

theorem length_joinLines_fillPlaceholders_le (text : Text) :
    (joinLines (fillPlaceholders text)).length ≤ text.length :=
  calc
    (joinLines (fillPlaceholders text)).length
    _ ≤ (replaceBreaks false (fillPlaceholders text)).length := (Text.isInfix_trim _).length_le
    _ ≤ (fillPlaceholders text).length := length_replaceBreaks_le false _
    _ ≤ text.length := length_fillPlaceholders_le text

/-- A pass that leaves out a part leaves out nothing if nothing is missing in the end. -/
theorem eq_self_of_joinLines_fillPlaceholders {text kept : Text} (isKept : kept.Sublist text)
    (same : joinLines (fillPlaceholders kept) = text) : kept = text := by
  have shorter := length_joinLines_fillPlaceholders_le kept
  rw [same] at shorter
  exact isKept.eq_of_length_le shorter

/-- What is taken away as a file name is one. -/
theorem exists_filename_of_afterFilename? {text rest : Text}
    (found : afterFilename? text = some rest) :
    ∃ name, text = name ++ rest ∧ IsFilename name := by
  rcases List.exists_of_findSome?_eq_some found with ⟨stem, isStem, atStem⟩
  split at atStem
  · next dotted word =>
      rcases List.exists_of_findSome?_eq_some atStem with ⟨suffix, isSuffix, atSuffix⟩
      rcases Text.afterWord?_eq_some_iff.mp word with ⟨first, isFirst, rfl⟩
      rcases Text.afterWord?_eq_some_iff.mp (Option.filter_eq_some_iff.mp atSuffix).1 with
        ⟨second, isSecond, rfl⟩
      exact ⟨first ++ '.' :: second, by simp, stem, isStem, suffix, isSuffix, first, second,
        isFirst, isSecond, rfl⟩
  · simp at atStem

/-- A text loses file names exactly if it has one. -/
theorem removeFilenames_eq_self_iff {text : Text} : removeFilenames text = text ↔
    ¬HasFilename text := by
  constructor
  · intro same
    rw [← same]
    exact not_hasFilename_removeFilenames text
  · have from_position (inWord : Bool) (absent : ¬HasFilenameFrom inWord text) :
        removeFilenamesFrom inWord text = text := by
      induction text generalizing inWord with
      | nil => rw [removeFilenamesFrom]
      | cons c rest ih =>
          rw [hasFilenameFrom_iff, not_or] at absent
          have none : afterFilenameUnless? inWord (c :: rest) = none := by
            cases inWord with
            | true => rfl
            | false =>
                rcases found : afterFilename? (c :: rest) with _ | after
                · exact found
                · rcases exists_filename_of_afterFilename? found with ⟨name, parts, isFilename⟩
                  exact absurd ⟨rfl, name, after, parts, isFilename,
                    isWordChar?_head?_of_afterFilename? found⟩
                    absent.1
          rw [removeFilenamesFrom_of_none none,
            ih _ fun later => absent.2 ⟨c, rest, rfl, later⟩]
    exact from_position false

theorem isNormal_forValidation (text : Text) : IsNormal (forValidation text) := by
  refine isNormal_joinLines_fillPlaceholders fun member => backtick_notMem_removeFences text ?_
  exact (List.dropWhile_suffix _).subset ((removeToolName_suffix _ _).subset member)

theorem isNormal_forEngine (text : Text) : IsNormal (forEngine text) := by
  refine isNormal_joinLines_fillPlaceholders fun member => backtick_notMem_removeFences text ?_
  exact (removeToolName_suffix _ _).subset ((removeFilenames_sublist _).subset member)

/-- Cleaning for validation changes nothing exactly if a text is in normal form and begins with no
tool name. -/
theorem forValidation_eq_self_iff {text : Text} :
    forValidation text = text ↔ IsNormal text ∧ ¬HasToolName toolNames text := by
  have passes (normal : IsNormal text) :
      forValidation text = joinLines (fillPlaceholders (removeToolName toolNames text)) := by
    rw [forValidation, removeFences_eq_self normal.noBacktick,
      Text.trimStart_eq_self_iff.mpr normal.first]
  rw [← removeToolName_eq_self_iff]
  constructor
  · intro same
    have normal : IsNormal text := same ▸ isNormal_forValidation text
    refine ⟨normal, eq_self_of_joinLines_fillPlaceholders
      (removeToolName_suffix _ _).sublist ?_⟩
    rw [← passes normal, same]
  · rintro ⟨normal, unnamed⟩
    rw [passes normal, unnamed, normal.joinLines_fillPlaceholders]

/-- Cleaning for the engine changes nothing exactly if a text is in normal form, has no file name
and begins with no tool name. -/
theorem forEngine_eq_self_iff {text : Text} :
    forEngine text = text ↔ IsNormal text ∧ ¬HasFilename text ∧
      ¬HasToolName allToolNames text := by
  have passes (normal : IsNormal text) :
      forEngine text =
          joinLines (fillPlaceholders (removeFilenames (removeToolName allToolNames text))) := by
    rw [forEngine, removeFences_eq_self normal.noBacktick]
  rw [← removeToolName_eq_self_iff]
  constructor
  · intro same
    have normal : IsNormal text := same ▸ isNormal_forEngine text
    have unnamed : (removeToolName allToolNames text).Sublist text :=
      (removeToolName_suffix _ _).sublist
    have kept : removeFilenames (removeToolName allToolNames text) = text :=
      eq_self_of_joinLines_fillPlaceholders ((removeFilenames_sublist _).trans unnamed)
        (by rw [← passes normal, same])
    have longEnough := (removeFilenames_sublist (removeToolName allToolNames text)).length_le
    rw [kept] at longEnough
    exact ⟨normal, same ▸ not_hasFilename_forEngine text, unnamed.eq_of_length_le longEnough⟩
  · rintro ⟨normal, noFilename, unnamed⟩
    rw [passes normal, unnamed, removeFilenames_eq_self_iff.mpr noFilename,
      normal.joinLines_fillPlaceholders]

/-- Clean text is in normal form, and text that goes to the engine has no file name either. So what
cleaning leaves alone is the text in normal form that begins with no tool name. -/
theorem isNormal_clean (text : Text) :
    IsNormal (forValidation text) ∧ IsNormal (forEngine text) ∧
      ¬HasFilename (forEngine text) ∧
      (forValidation text = text ↔ IsNormal text ∧ ¬HasToolName toolNames text) ∧
      (forEngine text = text ↔ IsNormal text ∧ ¬HasFilename text ∧
          ¬HasToolName allToolNames text) :=
  ⟨isNormal_forValidation text, isNormal_forEngine text, not_hasFilename_forEngine text,
    forValidation_eq_self_iff, forEngine_eq_self_iff⟩

-- What stays on both sides of a file name comes together, but not to a new one.
example : forEngine "out.input.png.png" = "out..png".toList := by decide +kernel

end Retouch.Cleanup
