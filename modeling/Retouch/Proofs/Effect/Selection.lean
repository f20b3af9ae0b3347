import Retouch.Command.Segment
import Retouch.Proofs.Effect.Rereading

/-!
# The selection in force

A command is a list of operations, and each of them works on the channels that are selected where it
stands. This file says what is selected where, and what becomes of that when operations are read and
written again: a selection of all channels around a single operation is read as part of the
operation, and written again unless a selection is open. A writer that begins in the middle of a
command does not know what is selected there, so both can move an operation to other channels.
-/

namespace Retouch

namespace Operation

/-- A token list taken apart: the arguments that it begins with, and every other token with the
arguments behind it. -/
def takeApart : List Text → List Text × List Operation
  | [] => ([], [])
  | token :: rest =>
      let (arguments, operations) := takeApart rest
      if Token.isArgument token then (token :: arguments, operations)
      else ([], ⟨token, arguments⟩ :: operations)

/-- The operations of a token list. -/
def ofWords (words : List Text) : List Operation :=
  (takeApart words).2

/-- Whether an operation is taken apart as it was put together. -/
structure IsPlain (operation : Operation) : Prop where
  starts : Token.isArgument operation.flag = false
  plain : ∀ argument ∈ operation.arguments, Token.isArgument argument

/-- Whether an operation gets a selection of its own and is read with all of its arguments. -/
def IsSingle (operation : Operation) : Prop :=
  Token.isFlag operation.flag ∧ operation.isScoped ∧
    (Family.ofFlag (Flag.canonical operation.flag)).read operation.flag operation.arguments =
      some (operation.effect, operation.arguments.length)

instance (operation : Operation) : Decidable operation.IsSingle :=
  inferInstanceAs (Decidable (_ ∧ _ ∧ _))

end Operation

namespace Selection

/-- Whether a token is an operation: a flag, but not one of a channel selection or of the
transparency. -/
def counts (token : Text) : Bool :=
  Token.isFlag token && token != Flag.regionOpen && token != Flag.regionClose && token !=
    Segment.safetyFlag

/-- The channels selected after an operation, given those before it. -/
def after (inForce : Text) (operation : Operation) : Text :=
  if operation.flag = Flag.regionOpen then operation.arguments.headD Family.scopeTarget
  else if operation.flag = Flag.regionClose then Family.scopeTarget
  else inForce

def afterAll (inForce : Text) (operations : List Operation) : Text :=
  operations.foldl after inForce

/-- The operations with the channels that each of them works on. -/
def view (inForce : Text) : List Operation → List (Text × Text)
  | [] => []
  | operation :: operations =>
      (if counts operation.flag then [(operation.flag, inForce)] else []) ++
        view (after inForce operation) operations

/-- The operations of a command with the channels that each of them works on. -/
def ofCommand (command : Text) : List (Text × Text) :=
  view Family.scopeTarget (Operation.ofWords (Literal.split command))

/-- Whether operations begin with a selection of all channels for a single operation that gets one
anyway. -/
def Joins : List Operation → Prop
  | selection :: single :: closing :: _ =>
      selection.flag = Flag.regionOpen ∧ selection.arguments = [Family.scopeTarget] ∧
        single.IsSingle ∧
        closing.flag = Flag.regionClose
  | _ => False

/-- Whether an operation loses the channels that are selected where it stands, given whether a
selection was opened before by the same writer. Where none was, an operation that gets a selection
of its own is given all channels; where one was, a selection of all channels for a single operation
is left out. -/
def Loses (isOpen : Bool) (inForce : Text) : List Operation → Prop
  | [] => False
  | operation :: operations =>
      (inForce ≠ Family.scopeTarget ∧
        if isOpen then Joins (operation :: operations)
        else Token.isFlag operation.flag ∧ operation.isScoped) ∨
      Loses (isOpen || operation.flag == Flag.regionOpen) (after inForce operation) operations

instance decidableJoins : (operations : List Operation) → Decidable (Joins operations)
  | [] | [_] | [_, _] => inferInstanceAs (Decidable False)
  | _ :: _ :: _ :: _ => inferInstanceAs (Decidable (_ ∧ _ ∧ _ ∧ _))

instance decidableLoses (isOpen : Bool) (inForce : Text) :
    (operations : List Operation) → Decidable (Loses isOpen inForce operations)
  | [] => inferInstanceAs (Decidable False)
  | operation :: operations =>
      have : Decidable
          (Loses (isOpen || operation.flag == Flag.regionOpen) (after inForce operation)
          operations) := decidableLoses _ _ operations
      inferInstanceAs (Decidable ((_ ∧ ite _ _ _) ∨ _))

/-- How operations are read: group delimiters are passed over, and a selection of all channels for a
single operation becomes part of this operation. -/
inductive Collapses : List Operation → List Operation → Prop
  | nil : Collapses [] []
  | joined {selection single closing : Operation} {rest read : List Operation}
      (joins : Joins (selection :: single :: closing :: rest)) :
      Collapses rest read → Collapses (selection :: single :: closing :: rest) (single :: read)
  | kept {operation : Operation} {rest read : List Operation} (isFlag : Token.isFlag operation.flag)
      (apart : ¬Joins (operation :: rest)) :
      Collapses rest read → Collapses (operation :: rest) (operation :: read)
  | passed {operation : Operation} {rest read : List Operation}
      (notFlag : Token.isFlag operation.flag = false) :
      Collapses rest read → Collapses (operation :: rest) read

/-- The operations that are written of others, given whether a selection is open before them. -/
def withScopes (scopeOpen : Bool) : List Operation → List Operation
  | [] => []
  | operation :: operations =>
      (if operation.isScoped && !scopeOpen then [.selectAll, operation, .reset] else [operation]) ++
        withScopes (operation.effect.scopeAfter scopeOpen) operations

/-- The channels that an operation with a selection of its own is written for. -/
def writtenFor (scopeOpen : Bool) (inForce : Text) : Text :=
  if scopeOpen then inForce else Family.scopeTarget

variable {inForce : Text} {isOpen scopeOpen : Bool} {selection single closing operation : Operation}
  {operations rest read : List Operation}

/-! ## Views -/

theorem view_append (inForce : Text) (first second : List Operation) :
    view inForce (first ++ second) =
      view inForce first ++ view (afterAll inForce first) second := by
  induction first generalizing inForce with
  | nil => rfl
  | cons operation first ih =>
      rw [List.cons_append, view, view, ih, List.append_assoc]
      rfl

theorem afterAll_cons (inForce : Text) (operation : Operation) (operations : List Operation) :
    afterAll inForce (operation :: operations) =
      afterAll (after inForce operation) operations := rfl

theorem after_of_regionClose (closes : operation.flag = Flag.regionClose) (inForce : Text) :
    after inForce operation = Family.scopeTarget := by
  rw [after, closes, if_neg (by decide), if_pos rfl]

theorem after_of_ne (notOpen : operation.flag ≠ Flag.regionOpen)
    (notClose : operation.flag ≠ Flag.regionClose)
    (inForce : Text) : after inForce operation = inForce := by
  rw [after, if_neg notOpen, if_neg notClose]

theorem flag_ne_of_isScoped (isScoped : operation.isScoped) :
    operation.flag ≠ Flag.regionOpen ∧ operation.flag ≠ Flag.regionClose ∧
      operation.flag ≠ Segment.safetyFlag := by
  have notScoped : ∀ flag ∈ [Flag.regionOpen, Flag.regionClose, Segment.safetyFlag],
      (Family.ofFlag (Flag.canonical flag)).isScoped = false := by decide
  refine ⟨?_, ?_, ?_⟩ <;>
  · intro same
    have other := notScoped operation.flag (by simp [same])
    rw [Operation.isScoped, other] at isScoped
    simp at isScoped

theorem after_of_isScoped (isScoped : operation.isScoped) (inForce : Text) :
    after inForce operation = inForce :=
  after_of_ne (flag_ne_of_isScoped isScoped).1 (flag_ne_of_isScoped isScoped).2.1 inForce

theorem view_of_isScoped (isScoped : operation.isScoped) (isFlag : Token.isFlag operation.flag)
    (inForce : Text) (operations : List Operation) :
    view inForce (operation :: operations) =
      (operation.flag, inForce) :: view inForce operations := by
  have isCounted : counts operation.flag := by
    have other := flag_ne_of_isScoped isScoped
    simp [counts, isFlag, other]
  rw [view, after_of_isScoped isScoped, if_pos isCounted, List.singleton_append]

theorem view_of_not_isFlag (notFlag : Token.isFlag operation.flag = false) (inForce : Text) :
    after inForce operation = inForce ∧
      view inForce (operation :: operations) = view inForce operations := by
  have same : after inForce operation = inForce := by
    refine after_of_ne ?_ ?_ inForce <;>
    · intro isFlag
      rw [isFlag] at notFlag
      exact absurd notFlag (by decide)
  refine ⟨same, ?_⟩
  rw [view, same, if_neg (by simp [counts, notFlag]), List.nil_append]

/-! ## Selections for single operations -/

theorem view_around (opens : selection.flag = Flag.regionOpen)
    (target : selection.arguments = [Family.scopeTarget]) (isFlag : Token.isFlag single.flag)
    (isScoped : single.isScoped) (closes : closing.flag = Flag.regionClose) (inForce : Text) :
    view inForce (selection :: single :: closing :: rest) =
        (single.flag, Family.scopeTarget) :: view Family.scopeTarget rest ∧
      afterAll inForce (selection :: single :: closing :: rest) =
        afterAll Family.scopeTarget rest := by
  have opened : after inForce selection = Family.scopeTarget := by
    rw [after, if_pos opens, target]
    rfl
  constructor
  · rw [view, opened, view_of_isScoped isScoped isFlag, view, after_of_regionClose closes,
      opens, closes]
    rfl
  · rw [afterAll_cons, opened, afterAll_cons, after_of_isScoped isScoped, afterAll_cons,
      after_of_regionClose closes]

theorem view_of_joins (joins : Joins (selection :: single :: closing :: rest)) (inForce : Text) :
    view inForce (selection :: single :: closing :: rest) =
        (single.flag, Family.scopeTarget) :: view Family.scopeTarget rest ∧
      afterAll inForce (selection :: single :: closing :: rest) =
        afterAll Family.scopeTarget rest := by
  obtain ⟨opens, target, ⟨isFlag, isScoped, -⟩, closes⟩ := joins
  exact view_around opens target isFlag isScoped closes inForce

theorem view_selectAll (isFlag : Token.isFlag single.flag) (isScoped : single.isScoped)
    (inForce : Text) :
    view inForce (.selectAll :: single :: .reset :: rest) =
        (single.flag, Family.scopeTarget) :: view Family.scopeTarget rest ∧
      afterAll inForce (.selectAll :: single :: .reset :: rest) =
        afterAll Family.scopeTarget rest :=
  view_around rfl rfl isFlag isScoped rfl inForce

theorem Joins.exists_cons (joins : Joins (selection :: operations)) :
    ∃ single closing rest, operations = single :: closing :: rest := by
  unfold Joins at joins
  split at joins
  · next single closing rest parts => exact ⟨single, closing, rest, (List.cons.inj parts).2⟩
  · exact joins.elim

theorem not_joins_of_ne (notOpen : operation.flag ≠ Flag.regionOpen) :
    ¬Joins (operation :: operations) := by
  intro joins
  obtain ⟨single, closing, rest, rfl⟩ := joins.exists_cons
  exact notOpen joins.1

theorem loses_of_joins (joins : Joins (selection :: single :: closing :: rest)) :
    Loses isOpen inForce (selection :: single :: closing :: rest) ↔
      (inForce ≠ Family.scopeTarget ∧ isOpen = true) ∨
        Loses true Family.scopeTarget rest := by
  have parts := joins
  obtain ⟨opens, target, ⟨-, isScoped, -⟩, closes⟩ := parts
  have notScoped : selection.isScoped = false := by
    by_contra hasScope
    exact (flag_ne_of_isScoped (by simpa using hasScope)).1 opens
  have opened : after inForce selection = Family.scopeTarget := by
    rw [after, if_pos opens, target]
    rfl
  rw [Loses, Loses, Loses, opened, after_of_isScoped isScoped, after_of_regionClose closes, opens]
  cases isOpen <;> simp [joins, notScoped]

theorem loses_of_not_joins (apart : ¬Joins (operation :: rest)) :
    Loses isOpen inForce (operation :: rest) ↔
      (inForce ≠ Family.scopeTarget ∧ isOpen = false ∧ Token.isFlag operation.flag ∧
          operation.isScoped) ∨
        Loses (isOpen || operation.flag == Flag.regionOpen) (after inForce operation) rest := by
  rw [Loses]
  cases isOpen <;> simp [apart]

/-! ## Selections that are written -/

theorem withScopes_cons (scopeOpen : Bool) (operation : Operation) (operations : List Operation) :
    withScopes scopeOpen (operation :: operations) =
      (if operation.isScoped && !scopeOpen then [.selectAll, operation, .reset] else [operation]) ++
        withScopes (operation.effect.scopeAfter scopeOpen) operations := rfl

theorem scopeAfter_effect (named : Flag.ofCanonical (Flag.canonical operation.flag) =
    operation.flag) (scopeOpen : Bool) :
    operation.effect.scopeAfter scopeOpen =
      if operation.flag = Flag.regionClose then false
      else if operation.flag = Flag.regionOpen then true
      else scopeOpen := by
  have closes : operation.effect.flag = Flag.regionClose ↔ operation.flag = Flag.regionClose := by
    rw [Operation.flag_effect]
    refine ⟨fun same => ?_, fun same => by rw [same]; rfl⟩
    rw [← named, same]
    rfl
  have opens : operation.effect.flag = "channel".toList ↔ operation.flag = Flag.regionOpen := by
    rw [Operation.flag_effect]
    refine ⟨fun same => ?_, fun same => by rw [same]; rfl⟩
    rw [← named, same]
    rfl
  simp only [Effect.scopeAfter, closes, opens]

theorem view_withScopes_of_isScoped (isFlag : Token.isFlag single.flag) (isScoped : single.isScoped)
    (scopeOpen : Bool) (inForce : Text) (operations : List Operation) :
    view inForce (withScopes scopeOpen (single :: operations)) =
        (single.flag, writtenFor scopeOpen inForce) ::
          view (writtenFor scopeOpen inForce) (withScopes scopeOpen operations) ∧
      afterAll inForce (withScopes scopeOpen (single :: operations)) =
        afterAll (writtenFor scopeOpen inForce) (withScopes scopeOpen operations) := by
  rw [withScopes_cons, isScoped, Bool.true_and, Operation.scopeAfter_of_isScoped isScoped]
  cases scopeOpen with
  | false => exact view_selectAll isFlag isScoped inForce
  | true =>
      rw [if_neg (by decide), List.singleton_append, view_of_isScoped isScoped isFlag,
        afterAll_cons, after_of_isScoped isScoped]
      exact ⟨rfl, rfl⟩

theorem length_view_withScopes (collapses : Collapses operations read) (scopeOpen : Bool)
    (inForce other : Text) :
    (view inForce (withScopes scopeOpen read)).length = (view other operations).length := by
  induction collapses generalizing scopeOpen inForce other with
  | nil => rfl
  | @joined selection single closing rest read joins _ ih =>
      obtain ⟨-, -, ⟨isFlag, isScoped, -⟩, -⟩ := id joins
      rw [(view_of_joins joins other).1, (view_withScopes_of_isScoped isFlag isScoped _ _ _).1,
        List.length_cons, List.length_cons, ih scopeOpen _ Family.scopeTarget]
  | @kept operation rest read isFlag apart _ ih =>
      cases isScoped : operation.isScoped with
      | true =>
          rw [view_of_isScoped isScoped isFlag,
            (view_withScopes_of_isScoped isFlag isScoped _ _ _).1, List.length_cons,
            List.length_cons, ih scopeOpen _ other]
      | false =>
          rw [withScopes_cons, isScoped, Bool.false_and, if_neg (by decide), List.singleton_append,
            view, view, List.length_append, List.length_append, ih _ _ (after other operation)]
          split <;> rfl
  | passed notFlag _ ih =>
      rw [(view_of_not_isFlag notFlag other).2, ih]

/-! ## Operations that keep their channels -/

theorem writtenFor_eq_scopeTarget (known : inForce ≠ Family.scopeTarget → scopeOpen = isOpen) :
    writtenFor scopeOpen inForce = Family.scopeTarget ↔
      ¬(inForce ≠ Family.scopeTarget ∧ isOpen = true) := by
  by_cases all : inForce = Family.scopeTarget
  · simp [writtenFor, all]
  · rw [known all]
    cases isOpen <;> simp [writtenFor, all]

theorem writtenFor_eq_self (known : inForce ≠ Family.scopeTarget → scopeOpen = isOpen) :
    writtenFor scopeOpen inForce = inForce ↔
      ¬(inForce ≠ Family.scopeTarget ∧ isOpen = false) := by
  by_cases all : inForce = Family.scopeTarget
  · simp [writtenFor, all]
  · rw [known all]
    cases isOpen <;> simp [writtenFor, all, Ne.symm all]

/-- A writer that knows of every selection of other channels does so after the next operation. -/
theorem known_after (named : Flag.ofCanonical (Flag.canonical operation.flag) = operation.flag)
    (known : inForce ≠ Family.scopeTarget → scopeOpen = isOpen) :
    after inForce operation ≠ Family.scopeTarget →
      operation.effect.scopeAfter scopeOpen = (isOpen || operation.flag == Flag.regionOpen) := by
  intro other
  rw [scopeAfter_effect named]
  have notClose : operation.flag ≠ Flag.regionClose := fun closes =>
    other (after_of_regionClose closes inForce)
  rw [if_neg notClose]
  by_cases opens : operation.flag = Flag.regionOpen
  · simp [opens]
  · rw [after_of_ne opens notClose] at other
    simp [opens, known other]

/-- What is written leaves every operation the channels that it works on exactly if none loses them,
as long as the writer knows of every selection of other channels. -/
theorem view_withScopes (collapses : Collapses operations read)
    (named : ∀ operation ∈ operations, Token.isFlag operation.flag →
      Flag.ofCanonical (Flag.canonical operation.flag) = operation.flag)
    (known : inForce ≠ Family.scopeTarget → scopeOpen = isOpen) :
    (view inForce (withScopes scopeOpen read) = view inForce operations ↔
        ¬Loses isOpen inForce operations) ∧
      (¬Loses isOpen inForce operations →
        afterAll inForce (withScopes scopeOpen read) = afterAll inForce operations) := by
  induction collapses generalizing inForce scopeOpen isOpen with
  | nil => simp [withScopes, Loses]
  | @joined selection single closing rest read joins _ ih =>
      obtain ⟨-, -, ⟨isFlag, isScoped, -⟩, -⟩ := id joins
      obtain ⟨viewed, left⟩ := view_of_joins joins inForce
      obtain ⟨written, leftWritten⟩ :=
        view_withScopes_of_isScoped isFlag isScoped scopeOpen inForce read
      rw [viewed, left, written, leftWritten, loses_of_joins joins]
      -- The operation was for all channels, and is written for those of a selection that is open.
      by_cases keeps : writtenFor scopeOpen inForce = Family.scopeTarget
      · have stays := (writtenFor_eq_scopeTarget known).mp keeps
        have later := @ih Family.scopeTarget true scopeOpen
          (fun other member => named other (by simp [member])) (by simp)
        rw [keeps]
        simpa [stays] using later
      · have moves := not_not.mp (mt (writtenFor_eq_scopeTarget known).mpr keeps)
        simp [keeps, moves]
  | @kept operation rest read isFlag apart _ ih =>
      have namedRest : ∀ operation ∈ rest, Token.isFlag operation.flag →
          Flag.ofCanonical (Flag.canonical operation.flag) = operation.flag := fun other member =>
        named other (List.mem_cons_of_mem _ member)
      rw [loses_of_not_joins apart]
      cases isScoped : operation.isScoped with
      | true =>
          obtain ⟨written, leftWritten⟩ :=
            view_withScopes_of_isScoped isFlag isScoped scopeOpen inForce read
          rw [view_of_isScoped isScoped isFlag, afterAll_cons, after_of_isScoped isScoped, written,
            leftWritten]
          -- The operation was for the channels in force, and is written for all if no selection is
          -- open.
          by_cases keeps : writtenFor scopeOpen inForce = inForce
          · have stays := (writtenFor_eq_self known).mp keeps
            have later := ih namedRest (known_after (named operation (by simp) isFlag) known)
            rw [after_of_isScoped isScoped, Operation.scopeAfter_of_isScoped isScoped] at later
            rw [keeps]
            simpa [stays, isFlag] using later
          · have moves := not_not.mp (mt (writtenFor_eq_self known).mpr keeps)
            simp [keeps, moves, isFlag]
      | false =>
          have later := ih namedRest (known_after (named operation (by simp) isFlag) known)
          rw [withScopes_cons, isScoped, Bool.false_and, if_neg (by decide), List.singleton_append,
            view, view, afterAll_cons, afterAll_cons, List.append_cancel_left_eq]
          simpa using later
  | @passed operation rest read notFlag _ ih =>
      have notOpen : operation.flag ≠ Flag.regionOpen := by
        intro opens
        rw [opens] at notFlag
        exact absurd notFlag (by decide)
      obtain ⟨same, passes⟩ := view_of_not_isFlag notFlag inForce
      have isOpen_eq : (isOpen || operation.flag == Flag.regionOpen) = isOpen := by
        rw [beq_eq_false_iff_ne.mpr notOpen, Bool.or_false]
      have later := ih (fun other member => named other (List.mem_cons_of_mem _ member)) known
      rw [passes, afterAll_cons, same, loses_of_not_joins (not_joins_of_ne notOpen),
        same, isOpen_eq]
      simpa [notFlag] using later

end Selection

end Retouch
