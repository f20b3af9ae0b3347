import Retouch.Text.Line

/-!
# Lines as they are written

A text without line breaks is one line, and it ends at the first break behind it. A file is read
with a line feed in place of each carriage return, so a carriage return may take a line feed behind
it along. Visible characters of ASCII break no line.
-/

namespace Retouch.Text

/-- Whether a text is on one line. -/
def IsInline (text : Text) : Prop :=
  ∀ c ∈ text, isLineBreak c = false

instance (text : Text) : Decidable (IsInline text) :=
  inferInstanceAs (Decidable (∀ c ∈ text, isLineBreak c = false))

theorem IsInline.append {front back : Text} (inlineFront : IsInline front)
    (inlineBack : IsInline back) :
    IsInline (front ++ back) := by
  intro c member
  rcases List.mem_append.mp member with inFront | inBack
  · exact inlineFront c inFront
  · exact inlineBack c inBack

theorem IsInline.notMem_return {text : Text} (inline : IsInline text) : '\r' ∉ text := by
  intro member
  exact absurd (inline '\r' member) (by decide)

/-- What ends a line. -/
inductive LineBreak where
  /-- A carriage return and a line feed. -/
  | pair
  | single (c : Char) (isBreak : isLineBreak c)

def LineBreak.text : LineBreak → Text
  | .pair => ['\r', '\n']
  | .single c _ => [c]

theorem linesFrom_cons {c : Char} (noReturn : c ≠ '\r') (current rest : Text) :
    linesFrom current (c :: rest) =
      if isLineBreak c then current.reverse :: linesFrom [] rest
        else linesFrom (c :: current) rest := by
  rw [linesFrom]
  intro _ same
  exact absurd same noReturn

/-- A text without line breaks goes on with the current line. -/
theorem linesFrom_append {line : Text} (inline : IsInline line) (current rest : Text) :
    linesFrom current (line ++ rest) = linesFrom (line.reverse ++ current) rest := by
  induction line generalizing current with
  | nil => rfl
  | cons c line ih =>
      rcases List.forall_mem_cons.mp inline with ⟨here, later⟩
      have noReturn : c ≠ '\r' := by
        rintro rfl
        exact absurd here (by decide)
      rw [List.cons_append, linesFrom_cons noReturn, if_neg (by simp [here]), ih later,
        List.reverse_cons, List.append_assoc]
      rfl

/-- A line is found up to the break behind it. -/
theorem lines_append {line : Text} (inline : IsInline line) {c : Char} (isBreak : isLineBreak c)
    (noReturn : c ≠ '\r') (rest : Text) : lines (line ++ c :: rest) = line :: lines rest := by
  rw [lines, linesFrom_append inline, linesFrom_cons noReturn, if_pos isBreak, List.append_nil,
    List.reverse_reverse]
  rfl

/-- Lines are found again when each is ended by a line feed. -/
theorem lines_flatMap {texts : List Text} (inline : ∀ text ∈ texts, IsInline text) :
    lines (texts.flatMap (· ++ ['\n'])) = texts := by
  induction texts with
  | nil => rfl
  | cons text texts ih =>
      rcases List.forall_mem_cons.mp inline with ⟨here, later⟩
      rw [List.flatMap_cons, List.append_assoc, List.singleton_append,
        lines_append here (by decide) (by decide), ih later]

theorem lines_of_isInline {line : Text} (inline : IsInline line) (nonempty : line ≠ []) :
    lines line = [line] := by
  have found := linesFrom_append inline [] []
  simp only [List.append_nil] at found
  rw [lines, found, linesFrom, if_neg (by simpa using nonempty), List.reverse_reverse]

theorem withLineFeeds_cons {c : Char} (noReturn : c ≠ '\r') (rest : Text) :
    withLineFeeds (c :: rest) = c :: withLineFeeds rest := by
  rw [withLineFeeds, if_neg noReturn]
  intro _ same
  exact absurd same noReturn

theorem withLineFeeds_append {front : Text} (absent : '\r' ∉ front) (back : Text) :
    withLineFeeds (front ++ back) = front ++ withLineFeeds back := by
  induction front with
  | nil => rfl
  | cons c front ih =>
      rw [List.mem_cons, not_or] at absent
      rw [List.cons_append, withLineFeeds_cons (Ne.symm absent.1), ih absent.2]
      rfl

theorem withLineFeeds_eq_self {text : Text} (absent : '\r' ∉ text) :
    withLineFeeds text = text := by
  have parts := withLineFeeds_append absent []
  rw [List.append_nil] at parts
  exact parts.trans (List.append_nil text)

/-- A break is read as one that is no carriage return, and may take a line feed behind it along. -/
theorem exists_withLineFeeds (lineBreak : LineBreak) (rest : Text) : ∃ c left, isLineBreak c ∧
    c ≠ '\r' ∧
    withLineFeeds (lineBreak.text ++ rest) = c :: withLineFeeds left ∧
      (rest = left ∨ rest = '\n' :: left) := by
  cases lineBreak with
  | pair => exact ⟨'\n', rest, by decide, by decide, rfl, .inl rfl⟩
  | single c isBreak =>
      by_cases isReturn : c = '\r'
      · subst isReturn
        by_cases joined : ∃ left, rest = '\n' :: left
        · rcases joined with ⟨left, rfl⟩
          exact ⟨'\n', left, by decide, by decide, rfl, .inr rfl⟩
        · refine ⟨'\n', rest, by decide, by decide, ?_, .inl rfl⟩
          rw [LineBreak.text, List.singleton_append, withLineFeeds, if_pos rfl]
          intro left _ same
          exact joined ⟨left, same⟩
      · exact ⟨c, rest, isBreak, isReturn, withLineFeeds_cons isReturn rest, .inl rfl⟩

/-! ## Visible characters -/

/-- Whether a character is a visible one of ASCII or the space. -/
def IsVisible (c : Char) : Prop :=
  0x20 ≤ c.toNat ∧ c.toNat ≤ 0x7E

instance (c : Char) : Decidable (IsVisible c) :=
  inferInstanceAs (Decidable (_ ∧ _))

theorem IsVisible.ne_return {c : Char} (visible : IsVisible c) : c ≠ '\r' := by
  rintro rfl
  exact absurd visible (by decide)

theorem IsVisible.isLineBreak {c : Char} (visible : IsVisible c) : isLineBreak c = false := by
  rcases visible with ⟨low, high⟩
  simp only [Text.isLineBreak, List.contains_eq_mem, List.mem_cons, List.not_mem_nil, or_false,
    decide_eq_false_iff_not]
  omega

end Retouch.Text
