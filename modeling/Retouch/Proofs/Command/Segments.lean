import Retouch.Command.Segment
import Retouch.Proofs.Command.Unit

/-!
# Segments of whole units

A command of whole units is cut between units only: a segment is a single unit, or a run of units up
to the delimiter or the end of selection that closes it. Every entry of a command is therefore made
of whole units.
-/

namespace Retouch

/-- Whether a token closes what was opened before, and so ends a unit. -/
def Token.IsCloser (token : Text) : Prop :=
  Token.isGroup token ∨ token = Flag.regionClose

namespace IsUnit

/-- A flag stands in a unit with as many arguments as its rule asks for. -/
theorem count {token : Text} {arguments : List Text} (isUnit : IsUnit (token :: arguments))
    (isFlag : Token.isFlag token) : Flag.isAllowed token ∧
      arguments.length = Flag.arity token := by
  cases isUnit with
  | group delimiter => simp [Token.isFlag_eq_false_of_isGroup delimiter] at isFlag
  | bare _ isAllowed unruled =>
      refine ⟨List.contains_iff_mem.mpr isAllowed, ?_⟩
      rw [Flag.arity, Flag.rule?_eq_none_iff.mpr unruled]
      rfl
  | ruled _ isAllowed isRule arity _ _ _ =>
      refine ⟨List.contains_iff_mem.mpr isAllowed, ?_⟩
      rw [Flag.arity, Flag.rule?_flag isRule, arity]
      rfl

theorem eq_singleton {unit : List Text} (isUnit : IsUnit unit) (token : Text)
    (member : token ∈ unit) (closes : Token.IsCloser token) : unit = [token] := by
  obtain ⟨head, arguments, rfl, -, plain⟩ := isUnit.exists_cons
  have notArgument : Token.isArgument token = false := by
    rcases closes with isGroup | rfl
    · simp [Token.isArgument, isGroup]
    · decide
  rcases List.mem_cons.mp member with rfl | inArguments
  · rcases closes with isGroup | rfl
    · cases isUnit with
      | group delimiter => rfl
      | bare isFlag _ _ => rfl
      | ruled isFlag _ _ _ _ _ _ => simp [Token.isFlag_eq_false_of_isGroup isGroup] at isFlag
    · have none := (isUnit.count (by decide)).2
      rw [show Flag.arity Flag.regionClose = 0 by decide +kernel, List.length_eq_zero_iff] at none
      rw [none]
  · simp [plain token inArguments] at notArgument

end IsUnit

namespace Segment

/-- A closing token ends a run of whole units. -/
theorem exists_units_of_closer {units : List (List Text)}
    (areUnits : ∀ unit ∈ units, IsUnit unit)
    {front back : List Text} {token : Text} (closes : Token.IsCloser token)
    (tokens : units.flatten = front ++ token :: back) :
    ∃ before after, units = before ++ after ∧ before.flatten = front ++ [token] := by
  induction units generalizing front with
  | nil => simp at tokens
  | cons unit units ih =>
      rw [List.flatten_cons] at tokens
      rcases List.append_eq_append_iff.mp tokens with
        ⟨rest, rfl, following⟩ | ⟨rest, inUnit, following⟩
      · obtain ⟨before, after, rfl, run⟩ := ih
          (fun other member => areUnits other (List.mem_cons_of_mem _ member)) following
        exact ⟨unit :: before, after, rfl, by rw [List.flatten_cons, run, List.append_assoc]⟩
      · cases rest with
        | nil =>
            rw [List.append_nil] at inUnit
            rw [List.nil_append] at following
            have following : units.flatten = [] ++ token :: back := following.symm
            obtain ⟨before, after, rfl, run⟩ :=
              ih (fun other member => areUnits other (List.mem_cons_of_mem _ member)) following
            exact ⟨unit :: before, after, rfl,
              by rw [List.flatten_cons, run, inUnit, List.nil_append]⟩
        | cons next rest =>
            obtain ⟨rfl, -⟩ := List.cons.inj following
            have alone := (areUnits unit (by simp)).eq_singleton token (by simp [inUnit]) closes
            refine ⟨[unit], units, rfl, ?_⟩
            have noFront : front = [] := by
              have length := congrArg List.length (inUnit.symm.trans alone)
              simp only [List.length_append, List.length_cons, List.length_nil] at length
              exact List.length_eq_zero_iff.mp (by omega)
            rw [List.flatten_singleton, alone, noFront, List.nil_append]

/-- The token that closes a level ends the tokens that are counted. -/
theorem exists_of_lengthToClose? {opener closer : Text} {inner length : Nat} {tokens : List Text}
    (found : lengthToClose? opener closer inner tokens = some length) :
    ∃ front back, tokens = front ++ closer :: back ∧ length = front.length + 1 := by
  induction tokens generalizing inner length with
  | nil => simp [lengthToClose?] at found
  | cons token rest ih =>
      have later {inner : Nat}
          (found : (lengthToClose? opener closer inner rest).map (· + 1) = some length) :
          ∃ front back, token :: rest = front ++ closer :: back ∧
              length = front.length + 1 := by
        obtain ⟨shorter, foundRest, rfl⟩ := Option.map_eq_some_iff.mp found
        obtain ⟨front, back, rfl, rfl⟩ := ih foundRest
        exact ⟨token :: front, back, rfl, rfl⟩
      simp only [lengthToClose?] at found
      split at found
      · exact later found
      · split at found
        · next same =>
            split at found
            · obtain rfl := Option.some.inj found
              exact ⟨[], rest, by rw [same]; rfl, rfl⟩
            · exact later found
        · exact later found

theorem exists_of_mem_split {command : Text} {part : LabelledCommand}
    (member : part ∈ split command) :
    ∃ segment ∈ ofTokens (Token.ofText command), part.command =
      Text.unwords segment.tokens := by
  rcases List.mem_filterMap.mp member with ⟨segment, segmentMem, made⟩
  refine ⟨segment, segmentMem, ?_⟩
  unfold entry? at made
  split at made
  · simp at made
  · rw [← Option.some.inj made]

/-- Tokens that an entry can be made of: whole units that end with a closing token, or one unit with
a flag. -/
inductive IsPiece (tokens : List Text) : Prop where
  | closed {token : Text} (last : token ∈ tokens.getLast?) (closes : Token.IsCloser token)
  | single (isUnit : IsUnit tokens) (isFlag : ∀ token ∈ tokens.head?, Token.isFlag token)

theorem IsPiece.ne_nil {tokens : List Text} (isPiece : IsPiece tokens) : tokens ≠ [] := by
  rintro rfl
  cases isPiece with
  | closed last _ => simp at last
  | single isUnit _ =>
      obtain ⟨_, _, parts, -⟩ := isUnit.exists_cons
      simp at parts

variable {token : Text} {arguments : List Text} {units : List (List Text)}

/-- A token that opens nothing makes a segment of its unit. -/
theorem tokens_single (isUnit : IsUnit (token :: arguments))
    (areUnits : ∀ unit ∈ units, IsUnit unit) :
    (single token (arguments ++ units.flatten)).tokens = token :: arguments ∧
      IsPiece (token :: arguments) := by
  have stop := isArgument_head?_units areUnits
  obtain ⟨head, others, parts, notArgument, plain⟩ := isUnit.exists_cons
  obtain ⟨rfl, rfl⟩ := List.cons.inj parts
  cases isFlag : Token.isFlag token with
  | false =>
      have isGroup : Token.isGroup token := by simpa [Token.isArgument, isFlag] using notArgument
      obtain rfl : arguments = [] := by
        simpa using isUnit.eq_singleton token (by simp) (.inl isGroup)
      exact ⟨by simp [single, isFlag], .closed (by simp) (.inl isGroup)⟩
  | true =>
      have count := (isUnit.count isFlag).2
      refine ⟨?_, .single isUnit (by simpa using isFlag)⟩
      have taken : (Token.argumentRun (arguments ++ units.flatten)).take (Flag.arity token) =
          arguments := by
        rw [Token.argumentRun_append plain stop, ← count, List.take_length]
      by_cases closes : token = Flag.regionClose
      · obtain rfl : arguments = [] := by
          simpa using isUnit.eq_singleton token (by simp) (.inr closes)
        simp [single, closes]
      · rw [single, if_neg (by simp [isFlag, closes])]
        simp only [taken]
        split <;> rfl

/-- A segment that is closed consists of whole units. -/
theorem exists_units_of_lengthToClose?
    (areUnits : ∀ unit ∈ (token :: arguments) :: units, IsUnit unit)
    {opener closer : Text} (closes : Token.IsCloser closer) {length : Nat}
    (found : lengthToClose? opener closer 0 (arguments ++ units.flatten) = some length) :
    ∃ before after, (token :: arguments) :: units = before ++ after ∧
      token :: (arguments ++ units.flatten).take length = before.flatten ∧
        IsPiece before.flatten := by
  obtain ⟨front, back, parts, rfl⟩ := exists_of_lengthToClose? found
  have tokens : ((token :: arguments) :: units).flatten = (token :: front) ++ closer :: back := by
    rw [List.flatten_cons, List.cons_append, parts, List.cons_append]
  obtain ⟨before, after, run, flat⟩ := exists_units_of_closer areUnits closes tokens
  refine ⟨before, after, run, ?_, ?_⟩
  · have cut : front.length + 1 = (front ++ [closer]).length := by simp
    rw [flat, parts, List.append_cons, cut, List.take_left, List.cons_append]
  · rw [flat]
    exact .closed List.getLast?_concat closes

/-- The first segment of whole units consists of whole units. -/
theorem exists_units_of_first (areUnits : ∀ unit ∈ (token :: arguments) :: units, IsUnit unit) :
    ∃ before after, (token :: arguments) :: units = before ++ after ∧
      (first token (arguments ++ units.flatten)).tokens = before.flatten ∧
        IsPiece before.flatten := by
  have isUnit := areUnits (token :: arguments) (by simp)
  have alone : ∃ before after, (token :: arguments) :: units = before ++ after ∧
      (single token (arguments ++ units.flatten)).tokens = before.flatten ∧
          IsPiece before.flatten := by
    obtain ⟨tokens, isPiece⟩ := tokens_single isUnit fun other member =>
      areUnits other (List.mem_cons_of_mem _ member)
    exact ⟨[token :: arguments], units, rfl, by simpa using tokens, by simpa using isPiece⟩
  unfold first
  split
  · split
    · next found => exact exists_units_of_lengthToClose? areUnits (.inr rfl) found
    · exact alone
  · split
    · split
      · next found => exact exists_units_of_lengthToClose? areUnits (.inl (by decide)) found
      · exact alone
    · exact alone

/-- Every segment of whole units consists of whole units. -/
theorem exists_units_of_mem_ofTokens (areUnits : ∀ unit ∈ units, IsUnit unit)
    {segment : Segment} (member : segment ∈ ofTokens units.flatten) :
    ∃ run, run <:+: units ∧ segment.tokens = run.flatten ∧ IsPiece segment.tokens := by
  induction length : units.length using Nat.strong_induction_on generalizing units with
  | _ count ih =>
      cases units with
      | nil => simp [ofTokens] at member
      | cons unit units =>
          obtain ⟨token, arguments, rfl, -, -⟩ := (areUnits unit (by simp)).exists_cons
          obtain ⟨before, after, run, tokens, isPiece⟩ := exists_units_of_first areUnits
          have areAfter : ∀ other ∈ after, IsUnit other := fun other otherMem =>
            areUnits other (run ▸ List.mem_append_right _ otherMem)
          have before_ne : before ≠ [] := by
            rintro rfl
            exact isPiece.ne_nil rfl
          have rest : (arguments ++ units.flatten).drop (before.flatten.length - 1) =
              after.flatten := by
            have all := congrArg List.flatten run
            rw [List.flatten_cons, List.flatten_append] at all
            obtain ⟨head, others, parts⟩ := List.exists_cons_of_ne_nil isPiece.ne_nil
            rw [parts] at all ⊢
            simp only [List.cons_append, List.cons.injEq] at all
            rw [all.2, List.length_cons, Nat.add_sub_cancel, List.drop_left]
          rw [List.flatten_cons, List.cons_append, ofTokens] at member
          rw [tokens, rest] at member
          rcases List.mem_cons.mp member with rfl | later
          · exact ⟨before, ⟨[], after, by rw [List.nil_append, run]⟩, tokens,
              tokens ▸ isPiece⟩
          · obtain ⟨inner, isInfix, same, isInner⟩ := ih after.length (by
              have shorter := congrArg List.length run
              have positive := List.length_pos_of_ne_nil before_ne
              rw [List.length_append] at shorter
              omega) areAfter later rfl
            exact ⟨inner, isInfix.trans ⟨before, [], by rw [List.append_nil, run]⟩,
              same, isInner⟩

end Segment

end Retouch
