import Mathlib.Data.List.Forall2
import Retouch.Command.Literal
import Retouch.Proofs.Text.Join

/-!
# Reading what was quoted

A written form reads as a value if a reader that meets it, with nothing open, takes the value into
the current argument and has nothing open afterwards. Plain text reads as itself and a quoted value
reads as the value, so written forms with single spaces between them are read as the list of their
values.
-/

namespace Retouch

theorem exists_forall₂ {α β : Type} {related : α → β → Prop} {items : List α}
    (each : ∀ item ∈ items, ∃ other, related item other) :
    ∃ others, List.Forall₂ related items others := by
  induction items with
  | nil => exact ⟨[], .nil⟩
  | cons item items ih =>
      obtain ⟨other, first⟩ := each item (by simp)
      obtain ⟨others, rest⟩ := ih fun later member => each later (List.mem_cons_of_mem _ member)
      exact ⟨other :: others, .cons first rest⟩

theorem forall_of_forall₂ {α β : Type} {related : α → β → Prop} {property : β → Prop}
    {items : List α} {others : List β} (pairs : List.Forall₂ related items others)
    (each : ∀ item other, related item other → property other) :
    ∀ other ∈ others, property other := by
  induction pairs with
  | nil => simp
  | cons first _ ih =>
      rw [List.forall_mem_cons]
      exact ⟨each _ _ first, ih⟩

theorem exists_mem_of_forall₂ {α β : Type} {related : α → β → Prop} {items : List α}
    {others : List β}
    (pairs : List.Forall₂ related items others) :
    ∀ item ∈ items, ∃ other ∈ others, related item other := by
  induction pairs with
  | nil => simp
  | cons first _ ih =>
      rw [List.forall_mem_cons]
      refine ⟨⟨_, List.mem_cons_self, first⟩, fun item member => ?_⟩
      rcases ih item member with ⟨other, otherMem, isRelated⟩
      exact ⟨other, List.mem_cons_of_mem _ otherMem, isRelated⟩

theorem exists_concat_of_forall₂ {α β : Type} {related : α → β → Prop} {front : List α}
    {last : α} {others : List β} (pairs : List.Forall₂ related (front ++ [last]) others) :
    ∃ otherFront otherLast, others = otherFront ++ [otherLast] ∧
      List.Forall₂ related front otherFront ∧ related last otherLast := by
  rw [← List.forall₂_reverse_iff, List.reverse_append, List.reverse_singleton,
    List.singleton_append, List.forall₂_cons_left_iff] at pairs
  rcases pairs with ⟨otherLast, rest, isLast, restPairs, parts⟩
  refine ⟨rest.reverse, otherLast, ?_, ?_, isLast⟩
  · rw [← List.reverse_cons, ← parts, List.reverse_reverse]
  · rwa [← List.forall₂_reverse_iff, List.reverse_reverse]

namespace Literal

/-- Whether a reader takes a written form as a value, whatever it has read and whatever follows. -/
def Reads (written value : Text) : Prop :=
  ∀ current rest : Text,
    splitFrom ⟨current, none, false⟩ (written ++ rest) =
      splitFrom ⟨value.reverse ++ current, none, false⟩ rest

/-- Whether nothing in a text has a meaning to a reader that has nothing open. -/
def IsBare (text : Text) : Prop :=
  ∀ c ∈ text, c ≠ '\\' ∧ Token.isQuote c = false ∧ Token.isSeparator c = false

instance (text : Text) : Decidable (IsBare text) :=
  inferInstanceAs (Decidable (∀ c ∈ text, _))

theorem IsBare.append {front back : Text} (bareFront : IsBare front) (bareBack : IsBare back) :
    IsBare (front ++ back) := by
  intro c member
  rcases List.mem_append.mp member with inFront | inBack
  · exact bareFront c inFront
  · exact bareBack c inBack

/-- A written form reads as one value only. -/
theorem Reads.unique {written value other : Text} (reads : Reads written value)
    (readsOther : Reads written other) :
    value = other := by
  have same := (reads [] []).symm.trans (readsOther [] [])
  simp only [List.append_nil, splitFrom, State.flush] at same
  cases value <;> cases other <;> simp_all

theorem Reads.eq_nil {value : Text} (reads : Reads [] value) : value = [] :=
  reads.unique fun _ _ => rfl

/-- With nothing open, a reader takes a character without a meaning. -/
theorem splitFrom_bare {c : Char} (noBackslash : c ≠ '\\') (noQuote : Token.isQuote c = false)
    (noSeparator : Token.isSeparator c = false) (current rest : Text) :
    splitFrom ⟨current, none, false⟩ (c :: rest) =
      splitFrom ⟨c :: current, none, false⟩ rest := by
  simp [splitFrom, step, noBackslash, noQuote, noSeparator]

/-- Within a literal, a reader takes all but a backslash and the quote that closes it. -/
theorem splitFrom_within {quote c : Char} (noBackslash : c ≠ '\\') (other : c ≠ quote)
    (current rest : Text) :
    splitFrom ⟨current, some quote, false⟩ (c :: rest) =
      splitFrom ⟨c :: current, some quote, false⟩ rest := by
  simp [splitFrom, step, noBackslash, other]

theorem IsBare.reads {text : Text} (bare : IsBare text) : Reads text text := by
  intro current rest
  induction text generalizing current with
  | nil => rfl
  | cons c text ih =>
      obtain ⟨noBackslash, noQuote, noSeparator⟩ := bare c (by simp)
      have bareText : IsBare text := fun d member => bare d (List.mem_cons_of_mem _ member)
      rw [List.cons_append, splitFrom_bare noBackslash noQuote noSeparator, ih bareText]
      simp

/-- Within single quotes, the escaped characters of a value read as the value. -/
theorem splitFrom_escaped (value current rest : Text) :
    splitFrom ⟨current, some '\x27', false⟩ (value.flatMap escapeChar ++ rest) =
      splitFrom ⟨value.reverse ++ current, some '\x27', false⟩ rest := by
  induction value generalizing current with
  | nil => rfl
  | cons c value ih =>
      have first (following : Text) :
          splitFrom ⟨current, some '\x27', false⟩ (escapeChar c ++ following) =
            splitFrom ⟨c :: current, some '\x27', false⟩ following := by
        unfold escapeChar
        split
        · rfl
        · next plain =>
            simp only [not_or] at plain
            exact splitFrom_within plain.1 plain.2 current following
      rw [List.flatMap_cons, List.append_assoc, first, ih]
      simp

theorem quote_eq_self {value : Text} (unspecial : value.any isSpecial = false) :
    quote value = value := by
  simp [quote, unspecial]

/-- A value that needs quotes begins with one when it is written. -/
theorem exists_quote_eq_cons {value : Text} (special : value.any isSpecial) :
    ∃ rest, quote value = '\x27' :: rest :=
  ⟨value.flatMap escapeChar ++ ['\x27'], by simp [quote, special]⟩

theorem isBare_of_any_isSpecial {value : Text} (unspecial : value.any isSpecial = false) :
    IsBare value := by
  intro c member
  have notSpecial : isSpecial c = false := by
    simp only [List.any_eq_false, Bool.not_eq_true] at unspecial
    exact unspecial c member
  simp only [isSpecial, Bool.or_eq_false_iff, beq_eq_false_iff_ne] at notSpecial
  exact ⟨notSpecial.2, notSpecial.1.2, notSpecial.1.1.1⟩

/-- A quoted value reads as the value. -/
theorem reads_quote (value : Text) : Reads (quote value) value := by
  unfold quote
  split
  · intro current rest
    have opened (following : Text) :
        splitFrom ⟨current, none, false⟩ ('\x27' :: following) =
          splitFrom ⟨current, some '\x27', false⟩ following := rfl
    have closed (before : Text) :
        splitFrom ⟨before, some '\x27', false⟩ ('\x27' :: rest) =
          splitFrom ⟨before, none, false⟩ rest := rfl
    rw [List.append_assoc, List.cons_append, opened, splitFrom_escaped,
      List.singleton_append, closed]
  · next plain => exact (isBare_of_any_isSpecial (by simpa using plain)).reads

theorem quote_ne_nil {value : Text} (nonempty : value ≠ []) : quote value ≠ [] := by
  unfold quote
  split
  · simp
  · exact nonempty

/-- Written forms with single spaces between them are read as their values, of which empty ones are
lost. -/
theorem split_unwords_filter {written values : List Text}
    (reads : List.Forall₂ Reads written values) :
    split (Text.unwords written) = values.filter (!·.isEmpty) := by
  induction reads with
  | nil => rfl
  | @cons form value others otherValues readsFirst readsOthers ih =>
      have flushed : State.flush ⟨value.reverse, none, false⟩ =
          [value].filter (!·.isEmpty) := by
        cases value <;> simp [State.flush]
      have alone : splitFrom ⟨value.reverse, none, false⟩ [] = [value].filter (!·.isEmpty) :=
        flushed
      have spaced (rest : Text) :
          splitFrom ⟨value.reverse, none, false⟩ (' ' :: rest) =
              [value].filter (!·.isEmpty) ++ split rest := by
        have last : step ⟨value.reverse, none, false⟩ ' ' =
            ({}, [value].filter (!·.isEmpty)) := by
          rw [← flushed]
          rfl
        rw [splitFrom, last]
        rfl
      cases readsOthers with
      | nil =>
          have read := readsFirst [] []
          rw [List.append_nil, List.append_nil] at read
          rw [Text.unwords_singleton, split, read, alone]
      | @cons next nextValue forms formValues readsNext readsForms =>
          rw [Text.unwords_cons_cons, split, readsFirst, List.append_nil, spaced, ih,
            ← List.filter_append, List.singleton_append]

/-- Written forms of non-empty values with single spaces between them are read as their values. -/
theorem split_unwords {written values : List Text} (reads : List.Forall₂ Reads written values)
    (nonempty : ∀ value ∈ values, value ≠ []) : split (Text.unwords written) = values := by
  rw [split_unwords_filter reads, List.filter_eq_self]
  simpa using nonempty

/-- Whether a text is made of written forms, with single spaces between them, whose values that are
not empty are certain words. -/
def Carries (text : Text) (words : List Text) : Prop :=
  ∃ written values, text = Text.unwords written ∧ List.Forall₂ Reads written values ∧
    values.filter (!·.isEmpty) = words

theorem carries_unwords {written words : List Text} (reads : List.Forall₂ Reads written words)
    (nonempty : ∀ word ∈ words, word ≠ []) : Carries (Text.unwords written) words := by
  refine ⟨written, words, rfl, reads, ?_⟩
  rw [List.filter_eq_self]
  simpa using nonempty

/-- A text is read as the words that it carries. -/
theorem Carries.split_eq {text : Text} {words : List Text} (carries : Carries text words) :
    split text = words := by
  obtain ⟨written, values, rfl, reads, rfl⟩ := carries
  exact split_unwords_filter reads

/-- Texts with single spaces between them carry the words of all of them. -/
theorem Carries.unwords {texts : List Text} {groups : List (List Text)}
    (carries : List.Forall₂ Carries texts groups)
    (nonempty : ∀ group ∈ groups, group ≠ []) :
    Carries (Text.unwords texts) groups.flatten := by
  have all : ∃ (forms : List (List Text)) (values : List Text), texts = forms.map Text.unwords ∧
      (∀ form ∈ forms, form ≠ []) ∧ List.Forall₂ Reads forms.flatten values ∧
      values.filter (!·.isEmpty) = groups.flatten := by
    induction carries with
    | nil => exact ⟨[], [], rfl, by simp, .nil, rfl⟩
    | @cons text group texts groups first _ ih =>
        obtain ⟨forms, values, rfl, forms_ne, reads, words⟩ := ih fun other member =>
          nonempty other (List.mem_cons_of_mem _ member)
        obtain ⟨written, firstValues, rfl, readsFirst, rfl⟩ := first
        have written_ne : written ≠ [] := by
          rintro rfl
          obtain rfl := List.forall₂_nil_left_iff.mp readsFirst
          exact nonempty [] (by simp) rfl
        refine ⟨written :: forms, firstValues ++ values, rfl,
          by simpa using ⟨written_ne, forms_ne⟩, List.rel_append readsFirst reads, ?_⟩
        rw [List.filter_append, words, List.flatten_cons]
  obtain ⟨forms, values, rfl, forms_ne, reads, words⟩ := all
  exact ⟨forms.flatten, values, Text.unwords_map_unwords _ forms_ne, reads, words⟩

theorem ne_nil_of_mem_splitFrom {state : State} {text argument : Text}
    (member : argument ∈ splitFrom state text) : argument ≠ [] := by
  have flushed (state : State) (member : argument ∈ state.flush) : argument ≠ [] := by
    unfold State.flush at member
    split at member
    · simp at member
    · next some =>
        obtain rfl := List.mem_singleton.mp member
        simpa using some
  induction text generalizing state with
  | nil => exact flushed state member
  | cons c rest ih =>
      rw [splitFrom] at member
      rcases List.mem_append.mp member with ended | later
      · refine flushed state ?_
        unfold step at ended
        grind
      · exact ih later

/-- A list of values, each quoted and with single spaces between them, is read back exactly if none
of them is empty. -/
theorem split_unwords_map_quote_eq_iff {values : List Text} :
    split (Text.unwords (values.map quote)) = values ↔ ∀ value ∈ values, value ≠ [] := by
  constructor
  · intro same value member
    rw [← same] at member
    exact ne_nil_of_mem_splitFrom member
  · intro nonempty
    refine split_unwords ?_ nonempty
    rw [List.forall₂_map_left_iff, List.forall₂_same]
    exact fun value _ => reads_quote value

end Literal

end Retouch
