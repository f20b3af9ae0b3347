import Retouch.Proofs.Command.Cutting
import Retouch.Proofs.Command.Idle

/-!
# What splitting keeps

Splitting takes every token of a command into exactly one segment. A segment is described here by
what it is and what stands behind it: a channel selection or a group ends where as much is closed as
was opened, a flag stands with as many arguments as it takes or with all that there are, and what is
skipped is a token that is no flag, an end of a selection or the safety pair. No other flag is lost.
-/

namespace Retouch

namespace Segment

/-- Whether tokens begin with an opening one and end with the first closing one at which as many are
closed as are opened. -/
structure IsEnclosed (opener closer : Text) (span : List Text) : Prop where
  begins : span.head? = some opener
  ends : span.getLast? = some closer
  balances : span.count closer = span.count opener
  isFirst : ∀ front, front <+: span → front ≠ [] → front ≠ span →
    front.count closer < front.count opener

/-- Whether the tokens from an opening one on are closed nowhere. -/
def StaysOpen (opener closer : Text) (tokens : List Text) : Prop :=
  ∀ span, span <+: tokens → ¬IsEnclosed opener closer span

/-- Whether a flag has as many arguments as it takes, or else all that there are. -/
structure IsWindow (flag : Text) (arguments following : List Text) : Prop where
  plain : ∀ argument ∈ arguments, Token.isArgument argument
  atMost : arguments.length ≤ Flag.arity flag
  stop : arguments.length < Flag.arity flag →
    ∀ token ∈ following.head?, Token.isArgument token = false

/-- The segments of each kind, given the tokens behind the segment. -/
inductive IsSegment (following : List Text) : Kind → List Text → Prop where
  | region {span : List Text} (enclosed : IsEnclosed Flag.regionOpen Flag.regionClose span) :
      IsSegment following .region span
  | group {span : List Text} (enclosed : IsEnclosed Token.groupOpen Token.groupClose span) :
      IsSegment following .group span
  /-- A flag with its arguments. Only a selection that is closed nowhere stands alone like this. -/
  | atom {flag : Text} {arguments : List Text} (isFlag : Token.isFlag flag)
      (notEnd : flag ≠ Flag.regionClose)
      (window : IsWindow flag arguments following)
        (notSafety : flag :: arguments ≠ [safetyFlag, safetyArgument])
      (unclosed : flag = Flag.regionOpen →
        StaysOpen Flag.regionOpen Flag.regionClose (flag :: (arguments ++ following))) :
      IsSegment following .atom (flag :: arguments)
  /-- A token that is no flag. Only a group that is closed nowhere leaves its delimiter alone. -/
  | stray {token : Text} (notFlag : ¬Token.isFlag token)
      (unclosed : token = Token.groupOpen →
        StaysOpen Token.groupOpen Token.groupClose (token :: following)) :
      IsSegment following .skipped [token]
  | regionClose : IsSegment following .skipped [Flag.regionClose]
  | safety : IsSegment following .skipped [safetyFlag, safetyArgument]

/-! ## Closing -/

/-- Whether tokens go up to the one that closes the level around them, given how many levels are
open inside of it. -/
structure ClosesAt (opener closer : Text) (inner : Nat) (span : List Text) : Prop where
  balances : span.count closer = span.count opener + inner + 1
  isFirst : ∀ front, front <+: span → front ≠ span →
    front.count closer ≤ front.count opener + inner

variable {opener closer token : Text} {inner length : Nat} {span tokens : List Text}

theorem not_closesAt_nil : ¬ClosesAt opener closer inner [] := fun closes => by
  simpa using closes.balances

theorem closesAt_cons_iff : ClosesAt opener closer inner (token :: span) ↔
    (token :: span).count closer = (token :: span).count opener + inner + 1 ∧
      ∀ front, front <+: span → front ≠ span →
        (token :: front).count closer ≤ (token :: front).count opener + inner := by
  constructor
  · intro closes
    refine ⟨closes.balances, fun front isPrefix notAll => ?_⟩
    exact closes.isFirst _ (List.cons_prefix_cons.mpr ⟨rfl, isPrefix⟩) (by simpa using notAll)
  · rintro ⟨balances, isFirst⟩
    refine ⟨balances, fun front isPrefix notAll => ?_⟩
    rcases List.prefix_cons_iff.mp isPrefix with rfl | ⟨rest, rfl, isRest⟩
    · simp
    · exact isFirst rest isRest (by simpa using notAll)

theorem closesAt_opener (distinct : opener ≠ closer) :
    ClosesAt opener closer inner (opener :: span) ↔ ClosesAt opener closer (inner + 1) span := by
  rw [closesAt_cons_iff]
  simp only [List.count_cons_self, List.count_cons_of_ne distinct, Nat.add_right_comm _ 1 inner]
  exact ⟨fun closes => ⟨closes.1, closes.2⟩, fun closes => ⟨closes.1, closes.2⟩⟩

theorem closesAt_closer (distinct : opener ≠ closer) :
    ClosesAt opener closer (inner + 1) (closer :: span) ↔ ClosesAt opener closer inner span := by
  rw [closesAt_cons_iff]
  simp only [List.count_cons_self, List.count_cons_of_ne distinct.symm, ← Nat.add_assoc,
    Nat.add_right_cancel_iff, Nat.add_le_add_iff_right]
  exact ⟨fun closes => ⟨closes.1, closes.2⟩, fun closes => ⟨closes.1, closes.2⟩⟩

theorem closesAt_zero_closer (distinct : opener ≠ closer) :
    ClosesAt opener closer 0 (closer :: span) ↔ span = [] := by
  rw [closesAt_cons_iff]
  constructor
  · rintro ⟨-, isFirst⟩
    by_contra nonempty
    have closed := isFirst [] (List.nil_prefix) (Ne.symm nonempty)
    simp [List.count_cons_of_ne distinct.symm] at closed
  · rintro rfl
    simp [List.count_cons_of_ne distinct.symm]

theorem closesAt_other (notOpener : token ≠ opener) (notCloser : token ≠ closer) :
    ClosesAt opener closer inner (token :: span) ↔ ClosesAt opener closer inner span := by
  rw [closesAt_cons_iff]
  simp only [List.count_cons_of_ne notOpener, List.count_cons_of_ne notCloser]
  exact ⟨fun closes => ⟨closes.1, closes.2⟩, fun closes => ⟨closes.1, closes.2⟩⟩

theorem lengthToClose?_opener : lengthToClose? opener closer inner (opener :: tokens) =
    (lengthToClose? opener closer (inner + 1) tokens).map (· + 1) := by
  cases inner <;> simp [lengthToClose?]

theorem lengthToClose?_closer (distinct : opener ≠ closer) :
    lengthToClose? opener closer (inner + 1) (closer :: tokens) =
      (lengthToClose? opener closer inner tokens).map (· + 1) := by
  simp [lengthToClose?, distinct.symm]

theorem lengthToClose?_zero_closer (distinct : opener ≠ closer) :
    lengthToClose? opener closer 0 (closer :: tokens) = some 1 := by
  simp [lengthToClose?, distinct.symm]

/-- The tokens up to the closing one are counted exactly if they close the level around them. -/
theorem lengthToClose?_eq_some_iff (distinct : opener ≠ closer) :
    lengthToClose? opener closer inner tokens = some length ↔
      length ≤ tokens.length ∧ ClosesAt opener closer inner (tokens.take length) := by
  induction tokens generalizing inner length with
  | nil => simp [lengthToClose?, not_closesAt_nil]
  | cons token rest ih =>
      cases length with
      | zero =>
          simp only [List.take_zero, not_closesAt_nil, and_false, iff_false]
          intro found
          rcases exists_of_lengthToClose? found with ⟨front, back, -, impossible⟩
          omega
      | succ length =>
          have map_succ (found : Option Nat) : found.map (· + 1) = some (length + 1) ↔
              found = some length := by
            cases found <;> simp
          rw [List.take_succ_cons, List.length_cons, Nat.add_le_add_iff_right]
          by_cases opens : token = opener
          · rw [opens, lengthToClose?_opener, map_succ, ih, closesAt_opener distinct]
          by_cases closes : token = closer
          · rw [closes]
            cases inner with
            | zero =>
                rw [lengthToClose?_zero_closer distinct, closesAt_zero_closer distinct]
                cases rest <;> cases length <;> simp
            | succ inner =>
                rw [lengthToClose?_closer distinct, closesAt_closer distinct, map_succ, ih]
          · rw [lengthToClose?_of_ne opens closes, map_succ, ih, closesAt_other opens closes]

theorem ClosesAt.exists_concat (distinct : opener ≠ closer)
    (closes : ClosesAt opener closer inner span) :
    ∃ front, span = front ++ [closer] := by
  have found : lengthToClose? opener closer inner span = some span.length :=
    (lengthToClose?_eq_some_iff distinct).mpr ⟨Nat.le_refl _, by rwa [List.take_length]⟩
  rcases exists_of_lengthToClose? found with ⟨front, back, rfl, length⟩
  cases back with
  | nil => exact ⟨front, rfl⟩
  | cons next back => simp at length

theorem isEnclosed_cons_iff (distinct : opener ≠ closer) :
    IsEnclosed opener closer (opener :: span) ↔ ClosesAt opener closer 0 span := by
  constructor
  · intro enclosed
    constructor
    · simpa [List.count_cons_of_ne distinct] using enclosed.balances
    · intro front isPrefix notAll
      have stillOpen :=
        enclosed.isFirst (opener :: front) (List.cons_prefix_cons.mpr ⟨rfl, isPrefix⟩) (by simp)
        (by simpa using notAll)
      simp only [List.count_cons_self, List.count_cons_of_ne distinct] at stillOpen
      omega
  · intro closes
    constructor
    · rfl
    · rcases closes.exists_concat distinct with ⟨front, rfl⟩
      rw [← List.cons_append, List.getLast?_concat]
    · simpa [List.count_cons_of_ne distinct] using closes.balances
    · intro front isPrefix nonempty notAll
      rcases List.prefix_cons_iff.mp isPrefix with rfl | ⟨rest, rfl, isRest⟩
      · exact absurd rfl nonempty
      · have within := closes.isFirst rest isRest (by simpa using notAll)
        simp only [List.count_cons_self, List.count_cons_of_ne distinct]
        omega

/-- What is enclosed from an opening token on is what is counted up to the closing one. -/
theorem lengthToClose?_append_iff (distinct : opener ≠ closer) :
    lengthToClose? opener closer 0 (span ++ tokens) = some span.length ↔
      IsEnclosed opener closer (opener :: span) := by
  rw [lengthToClose?_eq_some_iff distinct, List.take_left, isEnclosed_cons_iff distinct,
    and_iff_right]
  simp

theorem isEnclosed_of_lengthToClose? (distinct : opener ≠ closer)
    (found : lengthToClose? opener closer 0 tokens = some length) :
    IsEnclosed opener closer (opener :: tokens.take length) :=
  (isEnclosed_cons_iff distinct).mpr ((lengthToClose?_eq_some_iff distinct).mp found).2

theorem lengthToClose?_eq_none_iff (distinct : opener ≠ closer) :
    lengthToClose? opener closer 0 tokens = none ↔
      StaysOpen opener closer (opener :: tokens) := by
  constructor
  · intro unclosed front isPrefix enclosed
    rcases List.prefix_cons_iff.mp isPrefix with rfl | ⟨span, rfl, ⟨back, rfl⟩⟩
    · simpa using enclosed.begins
    · simp [(lengthToClose?_append_iff distinct).mpr enclosed] at unclosed
  · intro staysOpen
    by_contra closed
    rcases Option.ne_none_iff_exists'.mp closed with ⟨length, found⟩
    exact staysOpen _ (List.cons_prefix_cons.mpr ⟨rfl, List.take_prefix _ _⟩)
      (isEnclosed_of_lengthToClose? distinct found)

/-! ## One segment -/

variable {flag : Text} {arguments following front : List Text} {kind : Kind}

theorem take_argumentRun_eq_iff :
    (Token.argumentRun (arguments ++ following)).take (Flag.arity flag) = arguments ↔
      IsWindow flag arguments following := by
  constructor
  · intro taken
    constructor
    · intro argument member
      rw [← taken] at member
      exact List.mem_takeWhile_imp (List.mem_of_mem_take member)
    · rw [← taken, List.length_take]
      exact Nat.min_le_left _ _
    · intro few
      have all : (Token.argumentRun (arguments ++ following)).length ≤ Flag.arity flag := by
        rw [← taken, List.length_take] at few
        omega
      rw [List.take_of_length_le all] at taken
      exact (Token.argumentRun_append_eq_iff.mp taken).stop
  · intro window
    by_cases few : arguments.length < Flag.arity flag
    · rw [Token.argumentRun_append window.plain (window.stop few),
        List.take_of_length_le window.atMost]
    · have enough : arguments.length = Flag.arity flag :=
        Nat.le_antisymm window.atMost (Nat.not_lt.mp few)
      rw [Token.argumentRun_append_of_plain window.plain, ← enough, List.take_left]

theorem IsWindow.eq_safety (window : IsWindow safetyFlag arguments following)
    (begins : arguments.head? = some safetyArgument) : arguments = [safetyArgument] := by
  have arity : Flag.arity safetyFlag = 1 := by decide +kernel
  have atMost := window.atMost
  rcases arguments with _ | ⟨argument, _ | ⟨next, rest⟩⟩
  · simp at begins
  · rw [Option.some.inj begins]
  · simp [arity] at atMost

theorem isSegment_of_single (isSingle : single token (front ++ following) =
    ⟨kind, token :: front⟩) (region : token = Flag.regionOpen →
      StaysOpen Flag.regionOpen Flag.regionClose (token :: (front ++ following)))
    (group : token = Token.groupOpen →
      StaysOpen Token.groupOpen Token.groupClose (token :: (front ++ following))) :
    IsSegment following kind (token :: front) := by
  unfold single at isSingle
  split at isSingle
  · next stands =>
      cases isSingle
      rcases (Bool.or_eq_true _ _).mp stands with notFlag | closes
      · exact .stray (by simpa using notFlag) group
      · rw [of_decide_eq_true closes]
        exact .regionClose
  · next stands =>
      simp only [Bool.or_eq_true, Bool.not_eq_true', decide_eq_true_eq, not_or, Bool.not_eq_false]
        at stands
      dsimp only at isSingle
      split at isSingle
      · next isPair =>
          simp only [Segment.mk.injEq, List.cons.injEq, true_and] at isSingle
          rcases isSingle with ⟨rfl, taken⟩
          rw [taken] at isPair
          rcases isPair with ⟨rfl, begins⟩
          rw [(take_argumentRun_eq_iff.mp taken).eq_safety begins]
          exact .safety
      · next notPair =>
          simp only [Segment.mk.injEq, List.cons.injEq, true_and] at isSingle
          rcases isSingle with ⟨rfl, taken⟩
          rw [taken] at notPair
          refine .atom stands.1 stands.2 (take_argumentRun_eq_iff.mp taken) ?_ region
          intro isSafety
          rcases List.cons.inj isSafety with ⟨isFlag, isArgument⟩
          exact notPair ⟨isFlag, by rw [isArgument]; rfl⟩

theorem single_of_isWindow (isFlag : Token.isFlag flag) (notEnd : flag ≠ Flag.regionClose)
    (window : IsWindow flag arguments following)
    (notSafety : flag :: arguments ≠ [safetyFlag, safetyArgument]) :
    single flag (arguments ++ following) = ⟨.atom, flag :: arguments⟩ := by
  rw [single, if_neg (by simp [isFlag, notEnd])]
  simp only [take_argumentRun_eq_iff.mpr window]
  rw [if_neg]
  rintro ⟨rfl, begins⟩
  exact notSafety (by rw [window.eq_safety begins])

/-- The first token makes a segment with the tokens behind it exactly if they are a segment of its
kind. -/
theorem first_eq_iff : first token (front ++ following) = ⟨kind, token :: front⟩ ↔
    IsSegment following kind (token :: front) := by
  have region : Flag.regionOpen ≠ Flag.regionClose := by decide
  have group : Token.groupOpen ≠ Token.groupClose := by decide
  constructor
  · intro isFirst
    -- Only an opening token looks ahead for its end; one that is never closed is taken like any
    -- other token.
    by_cases opensRegion : token = Flag.regionOpen
    · rw [opensRegion, first, if_pos rfl] at isFirst
      rw [opensRegion]
      cases found : lengthToClose? Flag.regionOpen Flag.regionClose 0 (front ++ following) with
      | none =>
          rw [found] at isFirst
          exact isSegment_of_single isFirst (fun _ => (lengthToClose?_eq_none_iff region).mp found)
            fun opensGroup => absurd opensGroup (by decide)
      | some length =>
          simp only [found, Segment.mk.injEq, List.cons.injEq, true_and] at isFirst
          rcases isFirst with ⟨rfl, taken⟩
          rw [← taken]
          exact .region (isEnclosed_of_lengthToClose? region found)
    by_cases opensGroup : token = Token.groupOpen
    · rw [opensGroup, first, if_neg (by decide), if_pos rfl] at isFirst
      rw [opensGroup]
      cases found : lengthToClose? Token.groupOpen Token.groupClose 0 (front ++ following) with
      | none =>
          rw [found] at isFirst
          exact isSegment_of_single isFirst (fun opensRegion => absurd opensRegion (by decide))
            fun _ => (lengthToClose?_eq_none_iff group).mp found
      | some length =>
          simp only [found, Segment.mk.injEq, List.cons.injEq, true_and] at isFirst
          rcases isFirst with ⟨rfl, taken⟩
          rw [← taken]
          exact .group (isEnclosed_of_lengthToClose? group found)
    · rw [first_of_ne opensRegion opensGroup] at isFirst
      exact isSegment_of_single isFirst (fun same => absurd same opensRegion) fun same =>
        absurd same opensGroup
  · intro isSegment
    cases isSegment with
    | region enclosed =>
        rcases Option.some.inj enclosed.begins with rfl
        rw [first, if_pos rfl, (lengthToClose?_append_iff region).mpr enclosed]
        simp only [List.take_left]
    | group enclosed =>
        rcases Option.some.inj enclosed.begins with rfl
        rw [first, if_neg (by decide), if_pos rfl, (lengthToClose?_append_iff group).mpr enclosed]
        simp only [List.take_left]
    | atom isFlag notEnd window notSafety unclosed =>
        have isAtom := single_of_isWindow isFlag notEnd window notSafety
        by_cases opensRegion : token = Flag.regionOpen
        · subst opensRegion
          rw [first, if_pos rfl, (lengthToClose?_eq_none_iff region).mpr (unclosed rfl)]
          exact isAtom
        · have notGroup : token ≠ Token.groupOpen := by
            rintro rfl
            exact absurd isFlag (by decide)
          rw [first_of_ne opensRegion notGroup, isAtom]
    | stray notFlag unclosed =>
        replace notFlag : Token.isFlag token = false := by simpa using notFlag
        by_cases opensGroup : token = Token.groupOpen
        · subst opensGroup
          rw [List.nil_append, first, if_neg (by decide), if_pos rfl,
            (lengthToClose?_eq_none_iff group).mpr (unclosed rfl)]
          exact single_of_not_isFlag notFlag following
        · have notRegion : token ≠ Flag.regionOpen := by
            rintro rfl
            exact absurd notFlag (by decide)
          rw [first_of_ne notRegion opensGroup, single_of_not_isFlag notFlag]
    | regionClose => exact first_of_isAlone (.inr (.inl rfl))
    | safety => exact first_safety following

/-! ## All segments -/

theorem exists_tokens_first (token : Text) (rest : List Text) :
    ∃ front, (first token rest).tokens = token :: front ∧ front <+: rest := by
  have alone : ∃ front, (single token rest).tokens = token :: front ∧ front <+: rest := by
    have prefix_run : (Token.argumentRun rest).take (Flag.arity token) <+: rest :=
      (List.take_prefix _ _).trans (List.takeWhile_prefix _)
    unfold single
    split
    · exact ⟨[], rfl, List.nil_prefix⟩
    · dsimp only
      split <;> exact ⟨_, rfl, prefix_run⟩
  unfold first
  split
  · split
    · exact ⟨_, rfl, List.take_prefix _ _⟩
    · exact alone
  · split
    · split
      · exact ⟨_, rfl, List.take_prefix _ _⟩
      · exact alone
    · exact alone

theorem cuts_ofTokens : Cuts ofTokens first Segment.tokens where
  nil := by rw [ofTokens]
  cons token rest := by rw [ofTokens]
  starts := exists_tokens_first

theorem flatMap_tokens_ofTokens (tokens : List Text) :
    (ofTokens tokens).flatMap Segment.tokens = tokens :=
  cuts_ofTokens.flatMap_tokens tokens

/-- A segment is of a kind exactly if its tokens are, given those behind them. -/
theorem kind_iff {before after : List Segment} {segment : Segment}
    (parts : ofTokens tokens = before ++ segment :: after) (kind : Kind) :
    segment.kind = kind ↔ IsSegment (after.flatMap Segment.tokens) kind segment.tokens := by
  rcases cuts_ofTokens.exists_piece parts with ⟨token, front, made, isPiece⟩
  rw [made, ← first_eq_iff, ← isPiece]
  cases segment
  simpa using fun _ => made

/-- Whether a token is a flag that is never skipped. -/
def isLasting (token : Text) : Bool :=
  Token.isFlag token && token != Flag.regionClose && token != safetyFlag

theorem filter_isLasting_of_isSkipped {following : List Text}
    (isSkipped : IsSegment following .skipped span) :
    span.filter isLasting = [] := by
  cases isSkipped with
  | stray notFlag _ => simp [isLasting, notFlag]
  | regionClose => decide
  | safety => decide

theorem map_command_entries (segments : List Segment) :
    (segments.filterMap entry?).map LabelledCommand.command =
      (segments.filter (·.kind ≠ .skipped)).map
        (fun segment => Text.unwords segment.tokens) := by
  induction segments with
  | nil => rfl
  | cons segment segments ih =>
      by_cases isSkipped : segment.kind = .skipped
      · simp [ entry?, isSkipped, ih]
      · simp [ entry?, isSkipped, ih]

/-- No segment that is skipped has a flag that is never skipped, so leaving such segments out loses
none. -/
theorem filter_isLasting_flatMap {segments : List Segment}
    (lost : ∀ segment ∈ segments, segment.kind = .skipped →
        segment.tokens.filter isLasting = []) :
    ((segments.filter (·.kind ≠ .skipped)).flatMap Segment.tokens).filter isLasting =
      (segments.flatMap Segment.tokens).filter isLasting := by
  induction segments with
  | nil => rfl
  | cons segment segments ih =>
      have later := ih fun other member => lost other (List.mem_cons_of_mem _ member)
      by_cases isSkipped : segment.kind = .skipped
      · have none := lost segment List.mem_cons_self isSkipped
        rw [List.filter_cons_of_neg (by simpa using isSkipped), later, List.flatMap_cons,
          List.filter_append, none, List.nil_append]
      · rw [List.filter_cons_of_pos (by simpa using isSkipped), List.flatMap_cons,
          List.flatMap_cons, List.filter_append, List.filter_append, later]

/-- Splitting accounts for every token of a command: the tokens are consecutive segments, and the
entries are the joins of those that are not skipped, in their order. A segment is of a kind exactly
if it has the form of this kind, so that of all flags only ends of selections and safety pairs are
skipped. -/
theorem split_accounts (command : Text) :
    ∃ segments : List Segment,
      segments.flatMap Segment.tokens = Token.ofText command ∧
      (split command).map LabelledCommand.command =
        (segments.filter (·.kind ≠ .skipped)).map
          (fun segment => Text.unwords segment.tokens) ∧
      (∀ before segment after, segments = before ++ segment :: after → ∀ kind,
        segment.kind = kind ↔ IsSegment (after.flatMap Segment.tokens) kind segment.tokens) ∧
      ((segments.filter (·.kind ≠ .skipped)).flatMap Segment.tokens).filter isLasting =
        (Token.ofText command).filter isLasting := by
  refine ⟨ofTokens (Token.ofText command), flatMap_tokens_ofTokens _, ?_,
    fun _ _ _ => kind_iff, ?_⟩
  · exact map_command_entries _
  · rw [filter_isLasting_flatMap, flatMap_tokens_ofTokens]
    intro segment member isSkipped
    rcases List.append_of_mem member with ⟨before, after, parts⟩
    exact filter_isLasting_of_isSkipped ((kind_iff parts _).mp isSkipped)

end Segment

end Retouch
