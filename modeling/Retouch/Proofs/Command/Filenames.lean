import Mathlib.Data.List.Basic
import Retouch.Proofs.Command.Cleaning
import Retouch.Proofs.Text.Join

/-!
# File names in command text

Text that goes to the engine loses its file names. A file name is made of word characters and one
dot, so none goes beyond a space, a quote or a parenthesis: of joined tokens each one loses its own.
What is lost are letters and dots, so no placeholder comes about, and clean text stays clean but for
the blank characters at its end.
-/

namespace Retouch.Cleanup

/-- Whether a character belongs to no file name. -/
structure IsBoundary (c : Char) : Prop where
  noWord : Text.isWordChar c = false
  noDot : c ≠ '.'

instance (c : Char) : Decidable (IsBoundary c) :=
  decidable_of_iff (Text.isWordChar c = false ∧ c ≠ '.')
    ⟨fun both => ⟨both.1, both.2⟩, fun isBoundary =>
      ⟨isBoundary.noWord, isBoundary.noDot⟩⟩

theorem isBoundary_space : IsBoundary ' ' := by decide +kernel

theorem IsStart.isBoundary {c : Char} (isStart : IsStart c) : IsBoundary c := by
  rcases isStart with rfl | rfl | rfl | rfl <;> decide +kernel

theorem isWordChar_of_isLetter {c letter : Char}
    (lower : 'a'.toNat ≤ letter.toNat ∧ letter.toNat ≤ 'z'.toNat)
    (isLetter : Text.isLetter letter c) : Text.isWordChar c := by
  have forms : ∀ low ∈ List.range' 'a'.toNat 26,
      ∀ code ∈ [low, low - 32, 0x17F, 0x212A, 0x130, 0x131],
      Text.inRanges code Text.letterOrNumberRanges := by
    decide +kernel
  have isLow : letter.toNat ∈ List.range' 'a'.toNat 26 :=
    List.mem_range'_1.mpr ⟨lower.1, Nat.lt_succ_of_le lower.2⟩
  have code : c.toNat ∈ [letter.toNat, letter.toNat - 32, 0x17F, 0x212A, 0x130, 0x131] := by
    simp only [Text.isLetter, Bool.or_eq_true, Bool.and_eq_true, beq_iff_eq] at isLetter
    simp only [List.mem_cons, List.not_mem_nil, or_false]
    grind
  simp [Text.isWordChar, forms _ isLow c.toNat code]

theorem lower_of_mem_filename {letter : Char} {name : Text}
    (isName : name ∈ fileStems ++ fileSuffixes)
    (member : letter ∈ name) : 'a'.toNat ≤ letter.toNat ∧ letter.toNat ≤ 'z'.toNat := by
  have areLower : ∀ name ∈ fileStems ++ fileSuffixes, ∀ letter ∈ name,
      'a'.toNat ≤ letter.toNat ∧ letter.toNat ≤ 'z'.toNat := by
    decide +kernel
  exact areLower name isName letter member

theorem IsBoundary.isLetter {c letter : Char} {name : Text} (isBoundary : IsBoundary c)
    (isName : name ∈ fileStems ++ fileSuffixes) (member : letter ∈ name) :
    Text.isLetter letter c = false := by
  by_contra isLetter
  have isWord := isWordChar_of_isLetter (lower_of_mem_filename isName member)
    (by simpa using isLetter)
  simp [isBoundary.noWord] at isWord

variable {d : Char}

theorem afterWord?_append {word : Text}
    (foreign : ∀ letter ∈ word, Text.isLetter letter d = false) (front back : Text) :
    Text.afterWord? word (front ++ d :: back) =
      (Text.afterWord? word front).map (· ++ d :: back) := by
  induction word generalizing front with
  | nil => rfl
  | cons letter word ih =>
      rw [List.forall_mem_cons] at foreign
      cases front with
      | nil => simp [Text.afterWord?, foreign.1]
      | cons c front =>
          rw [List.cons_append, Text.afterWord?, Text.afterWord?, ih foreign.2]
          split <;> rfl

theorem findSome?_eq_map {α β : Type} {items : List α} {found results : α → Option β}
    {change : β → β} (same : ∀ item ∈ items, found item = (results item).map change) :
    items.findSome? found = (items.findSome? results).map change := by
  induction items with
  | nil => rfl
  | cons item items ih =>
      rw [List.forall_mem_cons] at same
      rw [List.findSome?_cons, List.findSome?_cons, same.1, ih same.2]
      cases results item <;> rfl

theorem afterSuffix?_append (isBoundary : IsBoundary d) (front back : Text) :
    afterSuffix? (front ++ d :: back) = (afterSuffix? front).map (· ++ d :: back) := by
  refine findSome?_eq_map fun suffix member => ?_
  rw [afterWord?_append fun letter => isBoundary.isLetter (List.mem_append_right _ member)]
  rcases Text.afterWord? suffix front with _ | _ | ⟨c, rest⟩
  · rfl
  · simp [Option.filter, Text.isWordChar?, isBoundary.noWord]
  · cases isWord : Text.isWordChar c <;> simp [Option.filter, Text.isWordChar?, isWord]

/-- No file name goes beyond a boundary. -/
theorem afterFilename?_append (isBoundary : IsBoundary d) (front back : Text) :
    afterFilename? (front ++ d :: back) = (afterFilename? front).map (· ++ d :: back) := by
  refine findSome?_eq_map fun stem member => ?_
  rw [afterWord?_append fun letter => isBoundary.isLetter (List.mem_append_left _ member)]
  rcases Text.afterWord? stem front with _ | _ | ⟨c, rest⟩
  · rfl
  · simp [isBoundary.noDot]
  · by_cases isDot : c = '.'
    · subst isDot
      exact afterSuffix?_append isBoundary rest back
    · simp [isDot]

theorem afterFilenameUnless?_append (isBoundary : IsBoundary d) (inWord : Bool)
    (front back : Text) :
    afterFilenameUnless? inWord (front ++ d :: back) =
      (afterFilenameUnless? inWord front).map (· ++ d :: back) := by
  cases inWord with
  | true => rfl
  | false => exact afterFilename?_append isBoundary front back

theorem removeFilenamesFrom_of_some {inWord : Bool} {c : Char} {rest after : Text}
    (found : afterFilenameUnless? inWord (c :: rest) = some after) :
    removeFilenamesFrom inWord (c :: rest) = removeFilenamesFrom true after := by
  rw [removeFilenamesFrom]
  split
  · next other => rw [Option.some.inj (found.symm.trans other)]
  · next absent => simp [found] at absent

theorem removeFilenamesFrom_of_none {inWord : Bool} {c : Char} {rest : Text}
    (absent : afterFilenameUnless? inWord (c :: rest) = none) :
    removeFilenamesFrom inWord (c :: rest) = c :: removeFilenamesFrom (Text.isWordChar c) rest := by
  rw [removeFilenamesFrom]
  split
  · next found => simp [absent] at found
  · rfl

theorem removeFilenamesFrom_cons (isBoundary : IsBoundary d) (inWord : Bool) (back : Text) :
    removeFilenamesFrom inWord (d :: back) = d :: removeFilenames back := by
  have absent : afterFilenameUnless? inWord (d :: back) = none := by
    have none := afterFilenameUnless?_append isBoundary inWord [] back
    cases inWord <;> exact none
  rw [removeFilenamesFrom_of_none absent, isBoundary.noWord, removeFilenames]

/-- On both sides of a boundary, file names are removed as if the side stood alone. -/
theorem removeFilenamesFrom_append (isBoundary : IsBoundary d) (inWord : Bool) (front back : Text) :
    removeFilenamesFrom inWord (front ++ d :: back) =
      removeFilenamesFrom inWord front ++ d :: removeFilenames back := by
  induction inWord, front using removeFilenamesFrom.induct with
  | case1 inWord =>
      rw [List.nil_append, removeFilenamesFrom_cons isBoundary, removeFilenamesFrom,
        List.nil_append]
  | case2 inWord c rest after found ih =>
      have foundBefore : afterFilenameUnless? inWord (c :: (rest ++ d :: back)) =
          some (after ++ d :: back) := by
        rw [← List.cons_append, afterFilenameUnless?_append isBoundary, found, Option.map_some]
      rw [List.cons_append, removeFilenamesFrom_of_some foundBefore,
        removeFilenamesFrom_of_some found, ih]
  | case3 inWord c rest absent ih =>
      have absentBefore : afterFilenameUnless? inWord (c :: (rest ++ d :: back)) = none := by
        rw [← List.cons_append, afterFilenameUnless?_append isBoundary, absent, Option.map_none]
      rw [List.cons_append, removeFilenamesFrom_of_none absentBefore,
        removeFilenamesFrom_of_none absent, ih, List.cons_append]

/-- Joined tokens each lose their own file names. -/
theorem removeFilenames_unwords (tokens : List Text) :
    removeFilenames (Text.unwords tokens) = Text.unwords (tokens.map removeFilenames) := by
  induction tokens with
  | nil => rw [Text.unwords_nil, removeFilenames, removeFilenamesFrom]; rfl
  | cons token rest ih =>
      by_cases last : rest = []
      · subst last
        rfl
      · rw [Text.unwords_cons token last, removeFilenames,
          removeFilenamesFrom_append isBoundary_space, ih, List.map_cons,
          Text.unwords_cons _ (by simpa using last), removeFilenames]

/-- A file name has a dot in it and something before the dot. -/
theorem exists_suffix_of_afterFilename? {text rest : Text}
    (found : afterFilename? text = some rest) :
    ∃ after, ('.' :: after) <:+ text ∧ rest <:+ after := by
  obtain ⟨stem, -, matched⟩ := List.exists_of_findSome?_eq_some found
  split at matched
  · next after word =>
      obtain ⟨suffix, -, kept⟩ := List.exists_of_findSome?_eq_some matched
      exact ⟨after, afterWord?_suffix word,
        afterWord?_suffix (Option.filter_eq_some_iff.mp kept).1⟩
  · simp at matched

theorem exists_suffix_of_afterFilenameUnless? {inWord : Bool} {text rest : Text}
    (found : afterFilenameUnless? inWord text = some rest) : ∃ after, ('.' :: after) <:+ text ∧
      rest <:+ after := by
  cases inWord with
  | true => simp [afterFilenameUnless?] at found
  | false => exact exists_suffix_of_afterFilename? found

/-- Text without dots has no file names to remove. -/
theorem removeFilenames_eq_self {text : Text} (absent : '.' ∉ text) :
    removeFilenames text = text := by
  have from_position (inWord : Bool) : removeFilenamesFrom inWord text = text := by
    induction text generalizing inWord with
    | nil => rw [removeFilenamesFrom]
    | cons c rest ih =>
        have none : afterFilenameUnless? inWord (c :: rest) = none := by
          rcases found : afterFilenameUnless? inWord (c :: rest) with _ | after
          · rfl
          · obtain ⟨_, isSuffix, -⟩ := exists_suffix_of_afterFilenameUnless? found
            exact absurd (isSuffix.subset List.mem_cons_self) absent
        rw [removeFilenamesFrom_of_none none,
          ih fun member => absent (List.mem_cons_of_mem _ member)]
  exact from_position false

theorem removeFilenamesFrom_sublist (inWord : Bool) (text : Text) :
    (removeFilenamesFrom inWord text).Sublist text := by
  induction inWord, text using removeFilenamesFrom.induct with
  | case1 inWord => rw [removeFilenamesFrom]
  | case2 inWord c rest after found ih =>
      obtain ⟨_, isSuffix, isRest⟩ := exists_suffix_of_afterFilenameUnless? found
      rw [removeFilenamesFrom_of_some found]
      exact ih.trans (isRest.sublist.trans ((List.sublist_cons_self _ _).trans isSuffix.sublist))
  | case3 inWord c rest absent ih =>
      rw [removeFilenamesFrom_of_none absent]
      exact ih.cons_cons c

theorem removeFilenames_sublist (text : Text) : (removeFilenames text).Sublist text :=
  removeFilenamesFrom_sublist false text

/-- Without its file names, a text has no placeholder that it did not have before. -/
theorem HasNoPlaceholder.removeFilenames {text : Text} (absent : HasNoPlaceholder text) :
    HasNoPlaceholder (Cleanup.removeFilenames text) := by
  have from_position (inWord : Bool) : HasNoPlaceholder (removeFilenamesFrom inWord text) := by
    induction inWord, text using removeFilenamesFrom.induct with
    | case1 inWord => rw [removeFilenamesFrom]; trivial
    | case2 inWord c rest after found ih =>
        obtain ⟨_, isSuffix, isRest⟩ := exists_suffix_of_afterFilenameUnless? found
        rw [removeFilenamesFrom_of_some found]
        exact ih (absent.of_isInfix (isRest.trans ((List.suffix_cons _ _).trans isSuffix)).isInfix)
    | case3 inWord c rest none ih =>
        rw [removeFilenamesFrom_of_none none]
        refine ⟨fun opening => ?_, ih absent.2⟩
        rcases absent.1 opening with closed | never
        · left
          obtain ⟨rest, rfl⟩ : ∃ others, rest = '>' :: others := by
            cases rest with
            | nil => simp at closed
            | cons e rest => exact ⟨rest, by simpa using closed⟩
          rw [removeFilenamesFrom_cons (by decide +kernel)]
          rfl
        · exact .inr fun member => never ((removeFilenamesFrom_sublist _ rest).subset member)
  exact from_position false

theorem IsClean.removeFilenames {text : Text} (clean : IsClean text) :
    IsClean (Cleanup.removeFilenames text) where
  noBacktick := fun member => clean.noBacktick ((removeFilenames_sublist text).subset member)
  noBreak := fun c member => clean.noBreak c ((removeFilenames_sublist text).subset member)
  noPlaceholder := clean.noPlaceholder.removeFilenames

/-- Clean text that begins with a flag or a group loses its file names and the blank characters at
its end when it goes to the engine. -/
theorem IsClean.forEngine_eq {text : Text} (clean : IsClean text)
    (start : ∀ c ∈ text.head?, IsStart c) :
    forEngine text = Text.trimEnd (Cleanup.removeFilenames text) := by
  have notBlank : ∀ c ∈ (Cleanup.removeFilenames text).head?, Text.isBlank c = false := by
    cases text with
    | nil => rw [Cleanup.removeFilenames, removeFilenamesFrom]; simp
    | cons c rest =>
        have isStart : IsStart c := start c rfl
        rw [Cleanup.removeFilenames, removeFilenamesFrom_cons isStart.isBoundary]
        simpa using isStart.isBlank
  rw [forEngine, removeFences_eq_self clean.noBacktick,
    removeToolName_eq_self (List.Subset.refl _) start,
    clean.removeFilenames.joinLines_fillPlaceholders notBlank]

end Retouch.Cleanup
