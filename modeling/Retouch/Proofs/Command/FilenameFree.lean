import Retouch.Proofs.Command.Filenames
import Retouch.Proofs.Command.Quoting
import Retouch.Proofs.Text.Classes
import Retouch.Proofs.Text.Trim

/-!
# Text without file names

One pass from left to right takes every file name away. What stays on both sides of a name can come
together, but never to a new name: a name that is taken away begins where no word is under way and
ends a word. Placeholders and line breaks that are replaced later, and blank characters that are
trimmed, bring no name back, so text that goes to the engine has none.
-/

namespace Retouch

namespace Text

/-- Whether a text spells a word of lower case letters, in whatever case. -/
def Spells (word spelled : Text) : Prop :=
  List.Forall₂ (fun letter c => isLetter letter c) word spelled

theorem spells_self (word : Text) : Spells word word :=
  List.forall₂_same.mpr fun letter _ => by simp [isLetter]

theorem afterWord?_eq_some_iff {word text rest : Text} :
    afterWord? word text = some rest ↔ ∃ spelled, Spells word spelled ∧
      text = spelled ++ rest := by
  induction word generalizing text with
  | nil =>
      constructor
      · intro found
        exact ⟨[], .nil, Option.some.inj found⟩
      · rintro ⟨_, _ | _, rfl⟩
        rfl
  | cons letter word ih =>
      cases text with
      | nil =>
          simp only [afterWord?, reduceCtorEq, false_iff, not_exists, not_and,
            List.nil_eq_append_iff]
          rintro _ spells ⟨rfl, -⟩
          cases spells
      | cons c text =>
          rw [afterWord?]
          constructor
          · intro found
            split at found
            · next isLetter =>
                rcases ih.mp found with ⟨spelled, spells, rfl⟩
                exact ⟨c :: spelled, .cons isLetter spells, rfl⟩
            · simp at found
          · rintro ⟨_, _ | ⟨isLetter, spells⟩, parts⟩
            rcases List.cons_eq_cons.mp parts with ⟨rfl, rfl⟩
            rw [if_pos isLetter]
            exact ih.mpr ⟨_, spells, rfl⟩

end Text

namespace Cleanup

def IsFilename (name : Text) : Prop :=
  ∃ stem ∈ fileStems, ∃ suffix ∈ fileSuffixes, ∃ first second,
    Text.Spells stem first ∧ Text.Spells suffix second ∧ name = first ++ '.' :: second

/-- Whether a word is under way behind a text, given whether one is before it. -/
def endsInWord (inWord : Bool) (text : Text) : Bool :=
  (text.getLast?.map Text.isWordChar).getD inWord

/-- Whether a file name stands in a text where no word is under way, and ends a word, given whether
a word is under way before the text. -/
def HasFilenameFrom (inWord : Bool) (text : Text) : Prop :=
  ∃ front name back, text = front ++ name ++ back ∧ IsFilename name ∧
    endsInWord inWord front = false ∧
    Text.isWordChar? back.head? = false

/-- Whether a file name stands in a text as words of it. -/
def HasFilename (text : Text) : Prop :=
  HasFilenameFrom false text

theorem isFilename_of_mem (stem suffix : Text) (isStem : stem ∈ fileStems)
    (isSuffix : suffix ∈ fileSuffixes) :
    IsFilename (stem ++ '.' :: suffix) :=
  ⟨stem, isStem, suffix, isSuffix, stem, suffix, Text.spells_self _, Text.spells_self _, rfl⟩

theorem isWord_of_spells {word spelled : Text} (isName : word ∈ fileStems ++ fileSuffixes)
    (spells : Text.Spells word spelled) : spelled ≠ [] ∧
      ∀ c ∈ spelled, Text.isWordChar c := by
  constructor
  · rintro rfl
    have nonempty : ∀ word ∈ fileStems ++ fileSuffixes, word ≠ [] := by decide +kernel
    exact nonempty word isName (List.forall₂_nil_right_iff.mp spells)
  · intro c member
    rcases exists_mem_of_forall₂ spells.flip c member with ⟨letter, inWord, isLetter⟩
    exact isWordChar_of_isLetter (lower_of_mem_filename isName inWord) isLetter

theorem IsFilename.exists_cons {name : Text} (isFilename : IsFilename name) :
    ∃ c rest, name = c :: rest ∧ Text.isWordChar c := by
  rcases isFilename with ⟨stem, isStem, _, -, first, second, isFirst, -, rfl⟩
  rcases isWord_of_spells (List.mem_append_left _ isStem) isFirst with ⟨nonempty, isWord⟩
  rcases List.exists_cons_of_ne_nil nonempty with ⟨c, first, rfl⟩
  exact ⟨c, _, rfl, isWord c List.mem_cons_self⟩

/-- Where a file name stands at the beginning, one is found. -/
theorem afterFilename?_ne_none {name back : Text} (isFilename : IsFilename name)
    (ends : Text.isWordChar? back.head? = false) : afterFilename? (name ++ back) ≠ none := by
  rcases isFilename with ⟨stem, isStem, suffix, isSuffix, first, second, isFirst, isSecond, rfl⟩
  intro absent
  have atStem := List.findSome?_eq_none_iff.mp absent stem isStem
  rw [Text.afterWord?_eq_some_iff.mpr ⟨first, isFirst, List.append_assoc ..⟩] at atStem
  have atSuffix : ((Text.afterWord? suffix (second ++ back)).filter _) = none :=
    List.findSome?_eq_none_iff.mp atStem suffix isSuffix
  rw [Text.afterWord?_eq_some_iff.mpr ⟨second, isSecond, rfl⟩] at atSuffix
  simp [Option.filter, ends] at atSuffix

theorem isWordChar?_head?_of_afterFilename? {text after : Text}
    (found : afterFilename? text = some after) :
    Text.isWordChar? after.head? = false := by
  rcases List.exists_of_findSome?_eq_some found with ⟨stem, -, atStem⟩
  split at atStem
  · rcases List.exists_of_findSome?_eq_some atStem with ⟨suffix, -, atSuffix⟩
    simpa using (Option.filter_eq_some_iff.mp atSuffix).2
  · simp at atStem

/-- The first character that stays is the first one, unless a name in front of it is taken away.
Then no word begins with it. -/
theorem exists_cons_of_removeFilenamesFrom {inWord : Bool} {text out : Text} {c : Char}
    (stays : removeFilenamesFrom inWord text = c :: out) (kept : inWord ∨ Text.isWordChar c) :
    ∃ rest, text = c :: rest ∧ out = removeFilenamesFrom (Text.isWordChar c) rest := by
  have goesOn {inWord : Bool} {text : Text} (stays : removeFilenamesFrom inWord text = c :: out)
      (absent : afterFilenameUnless? inWord text = none) :
      ∃ rest, text = c :: rest ∧ out = removeFilenamesFrom (Text.isWordChar c) rest := by
    cases text with
    | nil => simp [removeFilenamesFrom] at stays
    | cons d rest =>
        rw [removeFilenamesFrom_of_none absent] at stays
        rcases List.cons_eq_cons.mp stays with ⟨rfl, rfl⟩
        exact ⟨rest, rfl, rfl⟩
  cases found : afterFilenameUnless? inWord text with
  | none => exact goesOn stays found
  | some after =>
      cases inWord with
      | true => simp [afterFilenameUnless?] at found
      | false =>
          have isWord : Text.isWordChar c := by simpa using kept
          have ends := isWordChar?_head?_of_afterFilename? found
          cases text with
          | nil => simp [removeFilenamesFrom] at stays
          | cons d rest =>
              rw [removeFilenamesFrom_of_some found] at stays
              rcases goesOn stays rfl with ⟨_, rfl, -⟩
              simp [Text.isWordChar?, isWord] at ends

/-- A word that stays stood there before. -/
theorem exists_append_of_removeFilenamesFrom {inWord : Bool} {text word out : Text}
    (nonempty : word ≠ []) (isWord : ∀ c ∈ word, Text.isWordChar c)
    (stays : removeFilenamesFrom inWord text = word ++ out) :
    ∃ rest, text = word ++ rest ∧ out = removeFilenamesFrom true rest := by
  induction word generalizing inWord text with
  | nil => exact absurd rfl nonempty
  | cons c word ih =>
      rw [List.forall_mem_cons] at isWord
      rcases exists_cons_of_removeFilenamesFrom stays (.inr isWord.1) with ⟨rest, rfl, later⟩
      rw [isWord.1] at later
      by_cases last : word = []
      · subst last
        exact ⟨rest, rfl, later⟩
      · rcases ih last isWord.2 later.symm with ⟨others, rfl, out_eq⟩
        exact ⟨others, rfl, out_eq⟩

theorem exists_filename_before {inWord : Bool} {text name back : Text}
    (isFilename : IsFilename name)
    (ends : Text.isWordChar? back.head? = false)
    (stays : removeFilenamesFrom inWord text = name ++ back) :
    ∃ rest, text = name ++ rest ∧ Text.isWordChar? rest.head? = false := by
  rcases isFilename with ⟨stem, isStem, suffix, isSuffix, first, second, isFirst, isSecond, rfl⟩
  rcases isWord_of_spells (List.mem_append_left _ isStem) isFirst with ⟨first_ne, firstWord⟩
  rcases isWord_of_spells (List.mem_append_right _ isSuffix) isSecond with
    ⟨second_ne, secondWord⟩
  rw [List.append_assoc] at stays
  rcases exists_append_of_removeFilenamesFrom first_ne firstWord stays with
    ⟨dotted, rfl, behindStem⟩
  rcases exists_cons_of_removeFilenamesFrom behindStem.symm (.inl rfl) with
    ⟨suffixed, rfl, behindDot⟩
  rcases exists_append_of_removeFilenamesFrom second_ne secondWord behindDot.symm with
    ⟨rest, rfl, behindName⟩
  refine ⟨rest, by simp, ?_⟩
  cases rest with
  | nil => rfl
  | cons d rest =>
      rw [removeFilenamesFrom_of_none rfl] at behindName
      simpa [behindName] using ends

theorem endsInWord_cons (inWord : Bool) (c : Char) (text : Text) :
    endsInWord inWord (c :: text) = endsInWord (Text.isWordChar c) text := by
  cases h : text.getLast? <;> simp [endsInWord, List.getLast?_cons, h]

theorem endsInWord_append (inWord : Bool) (front back : Text) :
    endsInWord inWord (front ++ back) = endsInWord (endsInWord inWord front) back := by
  induction front generalizing inWord with
  | nil => rfl
  | cons c front ih => rw [List.cons_append, endsInWord_cons, ih, endsInWord_cons]

theorem endsInWord_of_getLast? {inWord : Bool} {text : Text} (nonempty : text ≠ [])
    (last : Text.isWordChar? text.getLast? = false) : endsInWord inWord text = false := by
  rw [List.getLast?_eq_some_getLast nonempty] at last
  rw [endsInWord, List.getLast?_eq_some_getLast nonempty]
  exact last

theorem endsInWord_false_eq (text : Text) :
    endsInWord false text = Text.isWordChar? text.getLast? := by
  unfold endsInWord
  cases text.getLast? <;> rfl

theorem isWordChar?_of_forall {chars : Text} (noWord : ∀ c ∈ chars, Text.isWordChar c = false)
    {neighbour : Option Char} (among : ∀ c ∈ neighbour, c ∈ chars) :
    Text.isWordChar? neighbour = false := by
  cases neighbour with
  | none => rfl
  | some c => exact noWord c (among c rfl)

/-- A file name stays one if what is put around the text ends and begins with no word. -/
theorem HasFilename.append {text before behind : Text} (has : HasFilename text)
    (last : Text.isWordChar? before.getLast? = false)
    (first : Text.isWordChar? behind.head? = false) :
    HasFilename (before ++ text ++ behind) := by
  rcases has with ⟨front, name, back, rfl, isFilename, outside, ends⟩
  refine ⟨before ++ front, name, back ++ behind, by simp, isFilename, ?_, ?_⟩
  · rwa [endsInWord_append, endsInWord_false_eq, last]
  · cases back with
    | nil => exact first
    | cons c back => exact ends

/-- What does not end in a word does not do so either if no word is under way before it. -/
theorem endsInWord_false {inWord : Bool} {text : Text} (outside : endsInWord inWord text = false) :
    endsInWord false text = false := by
  unfold endsInWord at *
  cases last : text.getLast? with
  | none => rfl
  | some c => simpa [last] using outside

/-- A file name stands at the beginning, where no word is under way, or behind some character. -/
theorem hasFilenameFrom_iff {inWord : Bool} {text : Text} :
    HasFilenameFrom inWord text ↔
      (inWord = false ∧ ∃ name back, text = name ++ back ∧ IsFilename name ∧
          Text.isWordChar? back.head? = false) ∨
        ∃ c rest, text = c :: rest ∧ HasFilenameFrom (Text.isWordChar c) rest := by
  constructor
  · rintro ⟨_ | ⟨c, front⟩, name, back, rfl, isFilename, before, behind⟩
    · exact .inl ⟨before, name, back, rfl, isFilename, behind⟩
    · rw [endsInWord_cons] at before
      exact .inr ⟨c, _, rfl, front, name, back, rfl, isFilename, before, behind⟩
  · rintro (⟨outside, name, back, rfl, isFilename, behind⟩ |
      ⟨c, _, rfl, front, name, back, rfl, isFilename, before, behind⟩)
    · exact ⟨[], name, back, rfl, isFilename, outside, behind⟩
    · exact ⟨c :: front, name, back, rfl, isFilename, by rwa [endsInWord_cons], behind⟩

/-- One pass leaves no file name. -/
theorem not_hasFilenameFrom_removeFilenamesFrom (inWord : Bool) (text : Text) :
    ¬HasFilenameFrom inWord (removeFilenamesFrom inWord text) := by
  induction inWord, text using removeFilenamesFrom.induct with
  | case1 inWord =>
      rw [removeFilenamesFrom]
      rintro ⟨front, name, back, parts, isFilename, -⟩
      rcases isFilename.exists_cons with ⟨c, name, rfl, -⟩
      simp at parts
  | case2 inWord c rest after found ih =>
      rw [removeFilenamesFrom_of_some found, hasFilenameFrom_iff]
      rintro (⟨rfl, name, back, parts, isFilename, behind⟩ | later)
      · rcases exists_filename_before isFilename behind parts with ⟨others, rfl, -⟩
        have ends := isWordChar?_head?_of_afterFilename? found
        rcases isFilename.exists_cons with ⟨d, name, rfl, isWord⟩
        simp [Text.isWordChar?, isWord] at ends
      · exact ih (hasFilenameFrom_iff.mpr (.inr later))
  | case3 inWord c rest absent ih =>
      rw [removeFilenamesFrom_of_none absent, hasFilenameFrom_iff]
      rintro (⟨rfl, name, back, parts, isFilename, behind⟩ | ⟨d, others, parts, later⟩)
      · rw [← removeFilenamesFrom_of_none absent] at parts
        rcases exists_filename_before isFilename behind parts with ⟨others, text_eq, ends⟩
        rw [text_eq] at absent
        exact afterFilename?_ne_none isFilename ends absent
      · rcases List.cons_eq_cons.mp parts with ⟨rfl, rfl⟩
        exact ih later

theorem not_hasFilename_removeFilenames (text : Text) : ¬HasFilename (removeFilenames text) :=
  not_hasFilenameFrom_removeFilenamesFrom false text

/-! ## Later passes -/

/-- Whether some stretches of a text, which do not begin or end in a word, are replaced by a
mark. -/
inductive Substitutes (mark : Char) : Text → Text → Prop
  | nil : Substitutes mark [] []
  | kept (c : Char) {text out : Text} (later : Substitutes mark text out) :
      Substitutes mark (c :: text) (c :: out)
  /-- A stretch is replaced. -/
  | replaced {stretch text out : Text} (nonempty : stretch ≠ [])
      (first : Text.isWordChar? stretch.head? = false)
      (last : Text.isWordChar? stretch.getLast? = false)
      (later : Substitutes mark text out) : Substitutes mark (stretch ++ text) (mark :: out)

namespace Substitutes

variable {mark : Char} {text out : Text}

/-- A cut in what comes out lies behind a cut of the text. -/
theorem exists_append {front back : Text} (substitutes : Substitutes mark text (front ++ back)) :
    ∃ before behind, text = before ++ behind ∧ Substitutes mark before front ∧
      Substitutes mark behind back := by
  induction front generalizing text with
  | nil => exact ⟨[], text, rfl, .nil, substitutes⟩
  | cons c front ih =>
      cases substitutes with
      | kept _ later =>
          rcases ih later with ⟨before, behind, rfl, isFront, isBack⟩
          exact ⟨c :: before, behind, rfl, .kept c isFront, isBack⟩
      | replaced nonempty first last later =>
          rcases ih later with ⟨before, behind, rfl, isFront, isBack⟩
          exact ⟨_ ++ before, behind, by rw [List.append_assoc],
            .replaced nonempty first last isFront, isBack⟩

theorem eq_self (substitutes : Substitutes mark text out) (absent : mark ∉ out) : text = out := by
  induction substitutes with
  | nil => rfl
  | kept c later ih => rw [ih fun member => absent (List.mem_cons_of_mem _ member)]
  | replaced => simp at absent

theorem isWordChar?_head? (substitutes : Substitutes mark text out)
    (outside : Text.isWordChar? out.head? = false) : Text.isWordChar? text.head? = false := by
  cases substitutes with
  | nil => rfl
  | kept c later => exact outside
  | replaced nonempty first last later => rwa [List.head?_append_of_ne_nil _ nonempty]

theorem endsInWord (substitutes : Substitutes mark text out) {inWord : Bool}
    (outside : Cleanup.endsInWord inWord out = false) : Cleanup.endsInWord inWord text = false := by
  induction substitutes generalizing inWord with
  | nil => exact outside
  | kept c later ih =>
      rw [endsInWord_cons] at outside ⊢
      exact ih outside
  | replaced nonempty first last later ih =>
      rw [endsInWord_cons] at outside
      rw [endsInWord_append, endsInWord_of_getLast? nonempty last]
      exact endsInWord_false (ih outside)

/-- A file name that comes out, if it has no mark in it, stood there before. -/
theorem hasFilename (substitutes : Substitutes mark text out)
    (foreign : ∀ name, IsFilename name → mark ∉ name)
    (has : HasFilename out) : HasFilename text := by
  rcases has with ⟨front, name, back, rfl, isFilename, before, behind⟩
  rcases substitutes.exists_append with ⟨_, back', rfl, isLeft, isBack⟩
  rcases isLeft.exists_append with ⟨front', name', rfl, isFront, isName⟩
  rcases isName.eq_self (foreign name isFilename) with rfl
  exact ⟨front', name', back', rfl, isFilename, isFront.endsInWord before,
    isBack.isWordChar?_head? behind⟩

end Substitutes

theorem substitutes_fillPlaceholders (text : Text) :
    Substitutes placeholderValue text (fillPlaceholders text) := by
  induction text using fillPlaceholders.induct with
  | case1 => rw [fillPlaceholders]; exact .nil
  | case2 c rest after found ih =>
      rw [fillPlaceholders_of_some found]
      rw [afterPlaceholder?] at found
      split at found
      · next opening =>
          have stretch : c :: rest = ('<' :: Text.before '>' rest ++ ['>']) ++ after := by
            rw [opening.1, List.append_assoc, List.cons_append, List.singleton_append,
              ← Text.eq_append_of_after? found]
          have first : Text.isWordChar? (some '<') = false := by decide +kernel
          have last : Text.isWordChar? (some '>') = false := by decide +kernel
          rw [stretch]
          exact .replaced (by simp) first (by rwa [List.getLast?_concat]) ih
      · simp at found
  | case3 c rest absent ih =>
      rw [fillPlaceholders_of_none absent]
      exact .kept c ih

theorem isWordChar_of_isReturnOrFeed {c : Char} (isBreak : isReturnOrFeed c) :
    Text.isWordChar c = false := by
  simp only [isReturnOrFeed, Bool.or_eq_true, beq_iff_eq] at isBreak
  rcases isBreak with rfl | rfl <;> decide +kernel

/-- Within a run of line breaks, the rest of the run is passed over. -/
theorem substitutes_replaceBreaks (text : Text) :
    Substitutes ' ' text (replaceBreaks false text) ∧
      ∃ run later, text = run ++ later ∧ (∀ c ∈ run, isReturnOrFeed c) ∧
        Substitutes ' ' later (replaceBreaks true text) := by
  induction text with
  | nil => exact ⟨.nil, [], [], rfl, by simp, .nil⟩
  | cons c rest ih =>
      rcases ih with ⟨afterOther, run, later, rfl, areBreaks, afterRun⟩
      cases isBreak : isReturnOrFeed c with
      | true =>
          have areAll : ∀ d ∈ c :: run, isReturnOrFeed d := by simpa [isBreak] using areBreaks
          have noWord : ∀ d ∈ c :: run, Text.isWordChar d = false := fun d member =>
            isWordChar_of_isReturnOrFeed (areAll d member)
          constructor
          · rw [replaceBreaks, if_pos isBreak, if_neg (by decide), ← List.cons_append]
            exact .replaced (by simp) (isWordChar?_of_forall noWord fun d => List.mem_of_mem_head?)
              (isWordChar?_of_forall noWord fun d => List.mem_of_mem_getLast?) afterRun
          · exact ⟨c :: run, later, rfl, areAll,
              by rwa [replaceBreaks, if_pos isBreak, if_pos rfl]⟩
      | false =>
          have kept (inRun : Bool) : replaceBreaks inRun (c :: (run ++ later)) =
              c :: replaceBreaks false (run ++ later) := by
            rw [replaceBreaks, if_neg (by simp [isBreak])]
          rw [kept, kept]
          exact ⟨.kept c afterOther, [], _, rfl, by simp, .kept c afterOther⟩

theorem HasFilename.of_trim {text : Text} (has : HasFilename (Text.trim text)) :
    HasFilename text := by
  rcases Text.exists_blanks_around_trim text with ⟨front, back, parts, frontBlank, backBlank⟩
  rw [parts]
  exact has.append
    (isWordChar?_of_forall (fun c member => Text.isWordChar_of_isBlank (frontBlank c member))
      fun c => List.mem_of_mem_getLast?)
    (isWordChar?_of_forall (fun c member => Text.isWordChar_of_isBlank (backBlank c member))
      fun c => List.mem_of_mem_head?)

/-- A character that no letter of a file name is read from is in no file name. -/
theorem IsFilename.notMem {name : Text} {c : Char} (isFilename : IsFilename name)
    (other : c ≠ '.')
    (foreign : ∀ part ∈ fileStems ++ fileSuffixes, ∀ letter ∈ part, Text.isLetter letter c =
        false) : c ∉ name := by
  rcases isFilename with ⟨stem, isStem, suffix, isSuffix, first, second, isFirst, isSecond, rfl⟩
  have absent {part spelled : Text} (isPart : part ∈ fileStems ++ fileSuffixes)
      (spells : Text.Spells part spelled) :
      c ∉ spelled := by
    intro member
    rcases exists_mem_of_forall₂ spells.flip c member with ⟨letter, inPart, isLetter⟩
    simp [foreign part isPart letter inPart] at isLetter
  simp only [List.mem_append, List.mem_cons, not_or]
  exact ⟨absent (List.mem_append_left _ isStem) isFirst, other,
    absent (List.mem_append_right _ isSuffix) isSecond⟩

/-- Text that goes to the engine has no file names. -/
theorem not_hasFilename_forEngine (text : Text) : ¬HasFilename (forEngine text) := by
  intro has
  have joined : HasFilename (replaceBreaks false _) := has.of_trim
  have filled := (substitutes_replaceBreaks _).1.hasFilename
    (fun name isFilename => isFilename.notMem (by decide) (by decide +kernel)) joined
  exact not_hasFilename_removeFilenames _ ((substitutes_fillPlaceholders _).hasFilename
    (fun name isFilename => isFilename.notMem (by decide) (by decide +kernel)) filled)

end Cleanup

end Retouch
