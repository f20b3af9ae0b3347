import Retouch.Proofs.Command.FilenameFree

/-!
# Tool names

A tool name goes only from the very beginning of a text, and only together with the blank characters
behind it. So blank characters that are put around a text matter to it in two ways: in front of a
name they hide it, and behind a text that is a name alone they make it one that is taken away.
-/

namespace Retouch.Cleanup

/-- Whether a text is one of the names, in whatever case. -/
def IsToolName (names : List Text) (name : Text) : Prop :=
  ∃ tool ∈ names, Text.Spells tool name

/-- Whether a text begins with one of the names and a blank character. -/
def HasToolName (names : List Text) (text : Text) : Prop :=
  ∃ name blank rest, text = name ++ blank :: rest ∧ IsToolName names name ∧ Text.isBlank blank

variable {names : List Text} {name text rest : Text} {blank : Char}

theorem IsToolName.isWord (isToolName : IsToolName allToolNames name) :
    name ≠ [] ∧ ∀ c ∈ name, Text.isWordChar c := by
  rcases isToolName with ⟨tool, isTool, spells⟩
  constructor
  · rintro rfl
    obtain rfl := List.forall₂_nil_right_iff.mp spells
    exact absurd isTool (by decide)
  · intro c member
    have areLower : ∀ tool ∈ allToolNames, ∀ letter ∈ tool, 'a'.toNat ≤ letter.toNat ∧
        letter.toNat ≤ 'z'.toNat := by
      decide
    rcases exists_mem_of_forall₂ spells.flip c member with ⟨letter, inTool, isLetter⟩
    exact isWordChar_of_isLetter (areLower tool isTool letter inTool) isLetter

theorem IsToolName.isBlank {c : Char} (isToolName : IsToolName allToolNames name)
    (inName : c ∈ name) :
    Text.isBlank c = false :=
  Text.not_isBlank_of_isWordChar (isToolName.isWord.2 c inName)

/-- What is taken away is a tool name and the blank characters behind it. -/
theorem exists_toolName_of_afterToolName? (found : afterToolName? names text = some rest) :
    ∃ name blank later, text = name ++ blank :: later ∧ IsToolName names name ∧
      Text.isBlank blank ∧ rest = Text.trimStart later := by
  rcases List.exists_of_findSome?_eq_some found with ⟨tool, isTool, matched⟩
  split at matched
  · next blank later word =>
      split at matched
      · next isBlank =>
          rcases Text.afterWord?_eq_some_iff.mp word with ⟨name, spells, rfl⟩
          exact ⟨name, blank, later, rfl, ⟨tool, isTool, spells⟩, isBlank,
            (Option.some.inj matched).symm⟩
      · simp at matched
  · simp at matched

theorem afterToolName?_eq_none_iff : afterToolName? names text = none ↔
    ¬HasToolName names text := by
  constructor
  · rintro absent ⟨name, blank, rest, rfl, ⟨tool, isTool, spells⟩, isBlank⟩
    have atTool := List.findSome?_eq_none_iff.mp absent tool isTool
    rw [Text.afterWord?_eq_some_iff.mpr ⟨name, spells, rfl⟩] at atTool
    simp [isBlank] at atTool
  · intro absent
    cases found : afterToolName? names text with
    | none => rfl
    | some rest =>
        rcases exists_toolName_of_afterToolName? found with
          ⟨name, blank, later, parts, isToolName, isBlank, -⟩
        exact absurd ⟨name, blank, later, parts, isToolName, isBlank⟩ absent

/-- A text loses a tool name exactly if it begins with one. -/
theorem removeToolName_eq_self_iff : removeToolName names text = text ↔
    ¬HasToolName names text := by
  rw [← afterToolName?_eq_none_iff, removeToolName]
  cases found : afterToolName? names text with
  | none => simp
  | some rest =>
      rcases exists_toolName_of_afterToolName? found with ⟨name, blank, later, rfl, -, -, rfl⟩
      have shorter := (List.dropWhile_suffix Text.isBlank (l := later)).length_le
      simp only [Option.getD_some, reduceCtorEq, iff_false]
      intro same
      have lengths := congrArg List.length same
      simp only [Text.trimStart, List.length_append, List.length_cons] at lengths
      omega

/-- The name ends where the first blank character stands, so what is left is known. -/
theorem removeToolName_append (isToolName : IsToolName allToolNames name)
    (isBlank : Text.isBlank blank) (rest : Text) :
    removeToolName allToolNames (name ++ blank :: rest) = Text.trimStart rest := by
  have behind {name : Text} {blank : Char} (isToolName : IsToolName allToolNames name)
      (isBlank : Text.isBlank blank)
      (rest : Text) : (name ++ blank :: rest).dropWhile (!Text.isBlank ·) = blank :: rest := by
    rw [List.dropWhile_append_of_pos fun c member => by simp [isToolName.isBlank member],
      List.dropWhile_cons_of_neg (by simp [isBlank])]
  unfold removeToolName
  cases found : afterToolName? allToolNames (name ++ blank :: rest) with
  | none =>
      exact absurd ⟨name, blank, rest, rfl, isToolName, isBlank⟩
        (afterToolName?_eq_none_iff.mp found)
  | some other =>
      rcases exists_toolName_of_afterToolName? found with
        ⟨otherName, otherBlank, later, parts, isOtherName, isOtherBlank, rfl⟩
      have same := behind isToolName isBlank rest
      rw [parts, behind isOtherName isOtherBlank] at same
      rw [(List.cons_eq_cons.mp same).2, Option.getD_some]

theorem IsToolName.not_hasToolName (isToolName : IsToolName allToolNames text) :
    ¬HasToolName allToolNames text := by
  rintro ⟨name, blank, rest, rfl, -, isBlank⟩
  simp [isToolName.isBlank (c := blank) (by simp)] at isBlank

/-- With blank characters around it, a text begins with a tool name exactly if there are none in
front, and it begins with one before or is one that gets a blank character behind it. -/
theorem hasToolName_around_iff {before behind : Text}
    (blankBefore : ∀ c ∈ before, Text.isBlank c)
    (blankBehind : ∀ c ∈ behind, Text.isBlank c) :
    HasToolName allToolNames (before ++ text ++ behind) ↔
      before = [] ∧
        (HasToolName allToolNames text ∨ IsToolName allToolNames text ∧ behind ≠ []) := by
  have apart {name : Text} {c : Char} (isToolName : IsToolName allToolNames name)
      (inName : c ∈ name)
      (isBlank : Text.isBlank c) : False := by
    simp [isToolName.isBlank inName] at isBlank
  constructor
  · rintro ⟨name, blank, rest, parts, isToolName, isBlank⟩
    rcases before with _ | ⟨c, before⟩
    · refine ⟨rfl, ?_⟩
      rcases List.append_eq_append_iff.mp parts with
        ⟨between, rfl, behind_eq⟩ | ⟨between, rfl, rest_eq⟩
      · -- no blank character is in the name, so the name is the whole text
        rcases between with _ | ⟨c, between⟩
        · exact .inr ⟨by simpa using isToolName, by simp [behind_eq]⟩
        · exact (apart isToolName (c := c) (by simp) (blankBehind c (by simp [behind_eq]))).elim
      · rcases between with _ | ⟨c, between⟩
        · exact .inr ⟨by simpa using isToolName, fun none => by simp [none] at rest_eq⟩
        · obtain ⟨rfl, -⟩ := List.cons_eq_cons.mp rest_eq
          exact .inl ⟨name, blank, between, rfl, isToolName, isBlank⟩
    · rcases List.exists_cons_of_ne_nil isToolName.isWord.1 with ⟨d, name, rfl⟩
      obtain rfl : c = d := by simpa using (List.cons_eq_cons.mp parts).1
      exact (apart isToolName List.mem_cons_self (blankBefore c List.mem_cons_self)).elim
  · rintro ⟨rfl,
      ⟨name, blank, rest, rfl, isToolName, isBlank⟩ | ⟨isToolName, nonempty⟩⟩
    · exact ⟨name, blank, rest ++ behind, by simp, isToolName, isBlank⟩
    · rcases List.exists_cons_of_ne_nil nonempty with ⟨blank, rest, rfl⟩
      exact ⟨text, blank, rest, rfl, isToolName, blankBehind blank List.mem_cons_self⟩

end Retouch.Cleanup
