import Retouch.Proofs.Effect.Collapse
import Retouch.Proofs.Effect.RoundTrip

/-!
# Channels of scoped operations

Two operations are written with a selection of all channels around them unless a selection is open.
What they work on is the argument of the nearest selection before them that has one, or all channels
where none is open. Reading and writing a command leaves them their channels, with one exception: a
selection of all channels for a single operation is read as part of the operation, and inside of
another selection it is not written again. The operation then works on the channels of the outer
selection, and so does what follows its end.
-/

namespace Retouch

namespace Selection

/-- The flags of the operations that get a selection of their own. -/
def scopedFlags : List Text := ["-negate", "-edge"]

/-- The scoped flags among some tokens with the channels selected at each of them, given those
selected before: the argument of the nearest selection that has one, and all channels behind an end
of selection. -/
def scopedFrom (inForce : Text) : List Text → List (Text × Text)
  | [] => []
  | token :: rest =>
      if token = Flag.regionOpen then
        scopedFrom ((rest.head?.filter Token.isArgument).getD inForce) rest
      else if token = Flag.regionClose then scopedFrom Family.scopeTarget rest
      else if token ∈ scopedFlags then (token, inForce) :: scopedFrom inForce rest
      else scopedFrom inForce rest

def scopedOf (command : Text) : List (Text × Text) :=
  scopedFrom Family.scopeTarget (Literal.split command)

/-- The channels selected after an operation; a selection without an argument changes nothing. -/
def chosenAfter (inForce : Text) (operation : Operation) : Text :=
  if operation.flag = Flag.regionOpen then operation.arguments.headD inForce
  else if operation.flag = Flag.regionClose then Family.scopeTarget
  else inForce

/-- The channels selected after some operations. -/
def chosenAfterAll (inForce : Text) (operations : List Operation) : Text :=
  operations.foldl chosenAfter inForce

def shown (inForce : Text) (operation : Operation) : List (Text × Text) :=
  if operation.flag ∈ scopedFlags then [(operation.flag, inForce)] else []

/-- The scoped operations with their channels. -/
def scopedView (inForce : Text) : List Operation → List (Text × Text)
  | [] => []
  | operation :: operations =>
      shown inForce operation ++ scopedView (chosenAfter inForce operation) operations

/-- Whether a selection of all channels for a single operation stands where other channels are
selected. -/
def Nests (inForce : Text) (operations : List Operation) : Prop :=
  ∃ before inner, operations = before ++ inner ∧ Joins inner ∧
    chosenAfterAll inForce before ≠ Family.scopeTarget

variable {inForce : Text} {scopeOpen : Bool} {operation selection single closing : Operation}
  {operations rest read : List Operation}

/-! ## Tokens and operations -/

theorem scopedFrom_arguments {arguments : List Text}
    (plain : ∀ argument ∈ arguments, Token.isArgument argument)
    (inForce : Text) (tokens : List Text) :
    scopedFrom inForce (arguments ++ tokens) = scopedFrom inForce tokens := by
  induction arguments with
  | nil => rfl
  | cons argument arguments ih =>
      have isArgument := plain argument (by simp)
      have ne (flag : Text) (isFlag : Token.isArgument flag = false) : argument ≠ flag := by
        rintro rfl
        simp [isFlag] at isArgument
      have notScoped : argument ∉ scopedFlags := by
        intro member
        have flags : ∀ flag ∈ scopedFlags, Token.isArgument flag = false := by decide
        exact ne argument (flags argument member) rfl
      rw [List.cons_append, scopedFrom, if_neg (ne _ (by decide)), if_neg (ne _ (by decide)),
        if_neg notScoped]
      exact ih fun other member => plain other (List.mem_cons_of_mem _ member)

theorem scopedFrom_words (arePlain : ∀ operation ∈ operations, operation.IsPlain)
    (inForce : Text) :
    scopedFrom inForce (operations.flatMap (Operation.words id)) =
      scopedView inForce operations := by
  induction operations generalizing inForce with
  | nil => rfl
  | cons operation operations ih =>
      have plain := (arePlain operation (by simp)).plain
      have others : ∀ other ∈ operations, other.IsPlain := fun other member =>
        arePlain other (List.mem_cons_of_mem _ member)
      have stop := Operation.isArgument_head?_words others
      rw [List.flatMap_cons, Operation.words, List.map_id, List.cons_append, scopedFrom,
        scopedView, shown, chosenAfter]
      split
      · next opens =>
          have notScoped : operation.flag ∉ scopedFlags := by
            rw [opens]
            decide
          have first :
              ((operation.arguments ++ operations.flatMap (Operation.words id)).head?.filter
              Token.isArgument).getD inForce = operation.arguments.headD inForce := by
            rcases isEmpty : operation.arguments with _ | ⟨argument, arguments⟩
            · rw [List.nil_append]
              cases head : (operations.flatMap (Operation.words id)).head? with
              | none => rfl
              | some token => simp [Option.filter_some, stop token head]
            · simp [Option.filter_some, plain argument (by simp [isEmpty])]
          rw [first, scopedFrom_arguments plain, ih others, if_neg notScoped, List.nil_append]
      · split
        · next closes =>
            have notScoped : operation.flag ∉ scopedFlags := by
              rw [closes]
              decide
            rw [scopedFrom_arguments plain, ih others, if_neg notScoped, List.nil_append]
        · split
          · rw [scopedFrom_arguments plain, ih others, List.singleton_append]
          · rw [scopedFrom_arguments plain, ih others, List.nil_append]

theorem scopedFrom_eq (inForce : Text) (tokens : List Text) :
    scopedFrom inForce tokens = scopedView inForce (Operation.ofWords tokens) := by
  rw [← scopedFrom_words fun _ => Operation.isPlain_of_mem_ofWords]
  nth_rewrite 1 [← Operation.takeApart_append tokens]
  exact scopedFrom_arguments (fun _ => Operation.isArgument_of_mem_takeApart) inForce _

/-! ## Single operations -/

theorem chosenAfter_of_ne (notOpen : operation.flag ≠ Flag.regionOpen)
    (notClose : operation.flag ≠ Flag.regionClose)
    (inForce : Text) : chosenAfter inForce operation = inForce := by
  rw [chosenAfter, if_neg notOpen, if_neg notClose]

theorem chosenAfter_of_isScoped (isScoped : operation.isScoped) (inForce : Text) :
    chosenAfter inForce operation = inForce :=
  chosenAfter_of_ne (flag_ne_of_isScoped isScoped).1 (flag_ne_of_isScoped isScoped).2.1 inForce

/-- The operations that get a selection of their own are those of the scoped flags. -/
theorem mem_scopedFlags_of_isScoped (named : Flag.ofCanonical (Flag.canonical operation.flag) =
    operation.flag) (isScoped : operation.isScoped) : operation.flag ∈ scopedFlags := by
  have areScoped : ∀ entry ∈ Family.table, entry.2.isScoped →
      Flag.ofCanonical entry.1 ∈ scopedFlags := by
    decide +kernel
  unfold Operation.isScoped at isScoped
  rcases Family.generic_or_mem_table (Flag.canonical operation.flag) with generic | member
  · simp [generic, Family.isScoped] at isScoped
  · have inFlags := areScoped _ member isScoped
    rwa [named] at inFlags

theorem shown_of_isScoped (named : Flag.ofCanonical (Flag.canonical operation.flag) =
    operation.flag)
    (isScoped : operation.isScoped) (inForce : Text) :
    shown inForce operation = [(operation.flag, inForce)] := by
  rw [shown, if_pos (mem_scopedFlags_of_isScoped named isScoped)]

/-! ## Nested selections -/

theorem not_nests_nil : ¬Nests inForce [] := by
  rintro ⟨before, inner, parts, joins, -⟩
  rw [(List.append_eq_nil_iff.mp parts.symm).2] at joins
  exact joins

theorem nests_cons : Nests inForce (operation :: operations) ↔
    Joins (operation :: operations) ∧ inForce ≠ Family.scopeTarget ∨
      Nests (chosenAfter inForce operation) operations := by
  constructor
  · rintro ⟨before, inner, parts, joins, others⟩
    cases before with
    | nil =>
        left
        rw [List.nil_append] at parts
        exact ⟨parts ▸ joins, others⟩
    | cons first before =>
        right
        rcases List.cons.inj parts with ⟨rfl, rfl⟩
        exact ⟨before, inner, rfl, joins, others⟩
  · rintro (⟨joins, others⟩ | ⟨before, inner, rfl, joins, others⟩)
    · exact ⟨[], operation :: operations, rfl, joins, others⟩
    · exact ⟨operation :: before, inner, rfl, joins, others⟩

instance decidableNests (inForce : Text) : (operations : List Operation) →
    Decidable (Nests inForce operations)
  | [] => isFalse not_nests_nil
  | operation :: operations =>
      have : Decidable (Nests (chosenAfter inForce operation) operations) :=
        decidableNests _ operations
      decidable_of_iff _ nests_cons.symm

theorem nests_of_not_joins (apart : ¬Joins (operation :: operations)) :
    Nests inForce (operation :: operations) ↔
      Nests (chosenAfter inForce operation) operations := by
  rw [nests_cons]
  simp [apart]

/-- Behind a selection of all channels for a single operation all channels are selected. -/
theorem nests_of_joins (joins : Joins (selection :: single :: closing :: rest)) :
    Nests inForce (selection :: single :: closing :: rest) ↔
      inForce ≠ Family.scopeTarget ∨ Nests Family.scopeTarget rest := by
  rcases id joins with ⟨opens, target, ⟨-, isScoped, -⟩, closes⟩
  have opened : chosenAfter inForce selection = Family.scopeTarget := by
    rw [chosenAfter, if_pos opens, target]
    rfl
  have closed : chosenAfter Family.scopeTarget closing = Family.scopeTarget := by
    rw [chosenAfter, closes, if_neg (by decide), if_pos rfl]
  have notClosing : closing.flag ≠ Flag.regionOpen := by
    rw [closes]
    decide
  rw [nests_cons, opened, nests_of_not_joins (not_joins_of_ne (flag_ne_of_isScoped isScoped).1),
    chosenAfter_of_isScoped isScoped, nests_of_not_joins (not_joins_of_ne notClosing), closed]
  simp [joins]

/-! ## Selections that are written -/

/-- A scoped operation with a selection of all channels around it works on all channels. -/
theorem scopedView_around (opens : selection.flag = Flag.regionOpen)
    (target : selection.arguments = [Family.scopeTarget]) (isScoped : single.isScoped)
    (named : Flag.ofCanonical (Flag.canonical single.flag) = single.flag)
    (closes : closing.flag = Flag.regionClose)
    (inForce : Text) : scopedView inForce (selection :: single :: closing :: rest) =
      (single.flag, Family.scopeTarget) :: scopedView Family.scopeTarget rest := by
  have opened : chosenAfter inForce selection = Family.scopeTarget := by
    rw [chosenAfter, if_pos opens, target]
    rfl
  have closed : chosenAfter Family.scopeTarget closing = Family.scopeTarget := by
    rw [chosenAfter, closes, if_neg (by decide), if_pos rfl]
  have silent {other : Operation} (isOther : other.flag ∉ scopedFlags) (channels : Text) :
      shown channels other = [] := by
    rw [shown, if_neg isOther]
  rw [scopedView, scopedView, scopedView, opened, chosenAfter_of_isScoped isScoped, closed,
    shown_of_isScoped named isScoped, silent (by rw [opens]; decide),
      silent (by rw [closes]; decide)]
  rfl

/-- A scoped operation is written for the channels in force, if all channels are in force where no
selection is open. -/
theorem scopedView_withScopes_of_isScoped (isScoped : single.isScoped)
    (named : Flag.ofCanonical (Flag.canonical single.flag) = single.flag)
    (closed : scopeOpen = false → inForce = Family.scopeTarget) (operations : List Operation) :
    scopedView inForce (withScopes scopeOpen (single :: operations)) =
      (single.flag, inForce) :: scopedView inForce (withScopes scopeOpen operations) := by
  rw [withScopes_cons, isScoped, Bool.true_and, Operation.scopeAfter_of_isScoped isScoped]
  cases scopeOpen with
  | false =>
      rw [closed rfl]
      exact scopedView_around rfl rfl isScoped named rfl Family.scopeTarget
  | true =>
      rw [if_neg (by decide), List.singleton_append, scopedView, shown_of_isScoped named isScoped,
        chosenAfter_of_isScoped isScoped, List.singleton_append]

/-- A writer for which no selection is open knows that all channels are selected, also after the
next operation. -/
theorem closed_after (named : Flag.ofCanonical (Flag.canonical operation.flag) = operation.flag)
    (closed : scopeOpen = false → inForce = Family.scopeTarget) :
    operation.effect.scopeAfter scopeOpen = false →
      chosenAfter inForce operation = Family.scopeTarget := by
  rw [scopeAfter_effect named, chosenAfter]
  by_cases closes : operation.flag = Flag.regionClose
  · simp [closes, show Flag.regionClose ≠ Flag.regionOpen by decide]
  · by_cases opens : operation.flag = Flag.regionOpen
    · simp [opens, show Flag.regionOpen ≠ Flag.regionClose by decide]
    · simpa [closes, opens] using closed

/-- What is written shows the scoped operations with the same channels exactly if no selection for a
single operation stands where other channels are selected. -/
theorem scopedView_withScopes (collapses : Collapses operations read)
    (named : ∀ operation ∈ operations, Token.isFlag operation.flag →
      Flag.ofCanonical (Flag.canonical operation.flag) = operation.flag)
    (closed : scopeOpen = false → inForce = Family.scopeTarget) :
    scopedView inForce (withScopes scopeOpen read) = scopedView inForce operations ↔
      ¬Nests inForce operations := by
  induction collapses generalizing inForce scopeOpen with
  | nil => simp [withScopes, not_nests_nil]
  | @joined selection single closing rest read joins _ ih =>
      rcases id joins with ⟨opens, target, ⟨isFlag, isScoped, -⟩, closes⟩
      have namedSingle := named single (by simp) isFlag
      rw [scopedView_withScopes_of_isScoped isScoped namedSingle closed,
        scopedView_around opens target isScoped namedSingle closes, nests_of_joins joins]
      -- The operation was for all channels, and is written for those in force.
      by_cases all : inForce = Family.scopeTarget
      · have later :=
          @ih Family.scopeTarget scopeOpen (fun other member => named other (by simp [member]))
          fun _ => rfl
        simpa [all] using later
      · simp [all]
  | @kept operation rest read isFlag apart _ ih =>
      have namedFirst := named operation (by simp) isFlag
      have later := ih (fun other member => named other (List.mem_cons_of_mem _ member))
        (closed_after namedFirst closed)
      rw [nests_of_not_joins apart]
      cases isScoped : operation.isScoped with
      | true =>
          rw [chosenAfter_of_isScoped isScoped, Operation.scopeAfter_of_isScoped isScoped] at later
          rw [scopedView_withScopes_of_isScoped isScoped namedFirst closed, scopedView,
            shown_of_isScoped namedFirst isScoped, chosenAfter_of_isScoped isScoped]
          simpa using later
      | false =>
          rw [withScopes_cons, isScoped, Bool.false_and, if_neg (by decide), List.singleton_append,
            scopedView, scopedView, List.append_cancel_left_eq]
          exact later
  | @passed operation rest read notFlag _ ih =>
      have ne {flag : Text} (isFlag : Token.isFlag flag) : operation.flag ≠ flag := by
        intro same
        rw [same, isFlag] at notFlag
        simp at notFlag
      have stays := chosenAfter_of_ne (ne (by decide)) (ne (by decide)) inForce
      have later := ih (fun other member => named other (List.mem_cons_of_mem _ member)) closed
      have silent : shown inForce operation = [] := by
        rw [shown, if_neg]
        intro member
        have areFlags : ∀ flag ∈ scopedFlags, Token.isFlag flag := by decide
        exact ne (areFlags operation.flag member) rfl
      rw [scopedView, silent, List.nil_append,
        nests_of_not_joins (not_joins_of_ne (ne (by decide))), stays]
      exact later

/-! ## Operations that are written differently -/

/-- Whether two operations are the same for a reader of selections. -/
structure Agrees (first second : Operation) : Prop where
  isScoped : first.isScoped = second.isScoped
  scopeAfter : ∀ scopeOpen, first.effect.scopeAfter scopeOpen = second.effect.scopeAfter scopeOpen
  chosenAfter : ∀ inForce, Selection.chosenAfter inForce first =
    Selection.chosenAfter inForce second
  shown : ∀ inForce, Selection.shown inForce first = Selection.shown inForce second

theorem Agrees.refl (operation : Operation) : Agrees operation operation :=
  ⟨rfl, fun _ => rfl, fun _ => rfl, fun _ => rfl⟩

variable {first second : List Operation}

theorem scopedView_congr (agree : List.Forall₂ Agrees first second) (inForce : Text) :
    scopedView inForce first = scopedView inForce second := by
  induction agree generalizing inForce with
  | nil => rfl
  | cons agrees _ ih => rw [scopedView, scopedView, agrees.shown, agrees.chosenAfter, ih]

theorem withScopes_agree (agree : List.Forall₂ Agrees first second) (scopeOpen : Bool) :
    List.Forall₂ Agrees (withScopes scopeOpen first) (withScopes scopeOpen second) := by
  induction agree generalizing scopeOpen with
  | nil => exact .nil
  | @cons operation other first second agrees _ ih =>
      rw [withScopes_cons, withScopes_cons, agrees.isScoped, agrees.scopeAfter]
      refine List.rel_append ?_ (ih _)
      split
      · exact .cons (.refl _) (.cons agrees (.cons (.refl _) .nil))
      · exact .cons agrees .nil

end Selection

/-- Whether a flag is read as it is written. -/
structure Flag.ReadsBack (flag : Text) : Prop where
  writable : IsWritable flag
  named : ofCanonical (canonical flag) = flag

namespace Effect

open Operation Selection

variable {operation : Operation}

theorem SettlesAs.agrees {settled : Operation} (settles : operation.effect.SettlesAs settled)
    (chosenAfter : ∀ inForce, Selection.chosenAfter inForce operation =
        Selection.chosenAfter inForce settled)
    (shown : ∀ inForce, Selection.shown inForce operation = Selection.shown inForce settled) :
    Agrees operation settled where
  isScoped := by
    have same := settles.alike.isScoped
    rwa [flag_effect, flag_effect] at same
  scopeAfter := settles.alike.scopeAfter
  chosenAfter := chosenAfter
  shown := shown

/-- An operation that was read is written as one that selects the same channels. -/
theorem exists_settlesAs_agreeing (readsBack : Flag.ReadsBack operation.flag)
    (plain : ArePlain operation.arguments) :
    ∃ settled, operation.effect.SettlesAs settled ∧ Agrees operation settled := by
  by_cases grayscale : Flag.canonical operation.flag = "grayscale".toList
  · have settles : operation.effect.SettlesAs ⟨"-colorspace", ["Gray"]⟩ :=
      settlesAs_grayscale grayscale operation.arguments
    have flag : operation.flag = "-grayscale".toList := by
      rw [← readsBack.named, grayscale]
      rfl
    refine ⟨_, settles, settles.agrees (fun inForce => ?_) fun inForce => ?_⟩
    · rw [chosenAfter_of_ne, chosenAfter_of_ne] <;> simp only [flag, ne_eq] <;> decide
    · rw [Selection.shown, Selection.shown, if_neg, if_neg] <;> simp only [flag] <;> decide
  · have faithful : Flag.IsFaithful operation.flag :=
      ⟨readsBack.writable, readsBack.named, grayscale⟩
    rcases exists_settlesAs_matching faithful plain with ⟨settled, settles, isMatch⟩
    refine ⟨settled, settles, settles.agrees (fun inForce => ?_) fun inForce => ?_⟩
    · rw [Selection.chosenAfter, Selection.chosenAfter, ← isMatch.flag]
      split
      · next opens =>
          rw [List.headD_eq_head?_getD, isMatch.selects opens, ← List.headD_eq_head?_getD]
      · rfl
    · rw [Selection.shown, Selection.shown, isMatch.flag]

end Effect

namespace Selection

open Operation

/-- Every command can be read and written again. If its flags are read as they are written, then
each scoped operation keeps the channels that are selected at it exactly if no selection of all
channels for a single operation stands where other channels are selected. -/
theorem scopedOf_toCommand_iff (text : Text) :
    ∃ written, Effect.toCommand (Effect.ofCommand text) = .ok written ∧
      ((∀ token ∈ Literal.split text, Token.isFlag token → Flag.ReadsBack token) →
        (scopedOf written = scopedOf text ↔
            ¬Nests Family.scopeTarget (ofWords (Literal.split text)))) := by
  rcases Effect.exists_toCommand fun effect =>
    Effect.exists_readRun_of_mem_ofCommand with ⟨written, rendered⟩
  refine ⟨written, rendered, fun readBack => ?_⟩
  have arePlain : ∀ operation ∈ ofWords (Literal.split text), operation.IsPlain := fun _ =>
    isPlain_of_mem_ofWords
  have flagsReadBack : ∀ operation ∈ ofWords (Literal.split text),
      Token.isFlag operation.flag →
      Flag.ReadsBack operation.flag := fun operation member =>
    readBack _ (mem_of_mem_ofWords member (by simp [words]))
  rcases Effect.exists_collapses arePlain with ⟨read, collapses, fromText, effects⟩
  rw [Effect.ofTokens_ofWords] at effects
  have exists_settled : ∃ settled, List.Forall₂
      (fun operation other => operation.effect.SettlesAs other ∧ Agrees operation other)
      read settled := by
    refine exists_forall₂ fun operation member => ?_
    rcases fromText operation member with ⟨inText, isFlag⟩
    refine Effect.exists_settlesAs_agreeing (flagsReadBack operation inText isFlag)
      fun argument argumentMem => ?_
    exact ⟨Literal.ne_nil_of_mem_splitFrom
      (mem_of_mem_ofWords inText (by simp [words, argumentMem])),
      (arePlain operation inText).plain argument argumentMem⟩
  rcases exists_settled with ⟨settled, both⟩
  have settle : List.Forall₂ Effect.SettlesAs (Effect.ofCommand text) settled := by
    rw [Effect.ofCommand, effects, List.forall₂_map_left_iff]
    exact both.imp fun _ _ pair => pair.1
  have agree : List.Forall₂ Agrees read settled := both.imp fun _ _ pair => pair.2
  have areSettled := Effect.areSettled settle
  obtain rfl := Except.ok.inj (rendered.symm.trans (toCommand_eq settle))
  have shows : scopedOf (Text.unwords (allWords Literal.quote false settled)) =
      scopedView Family.scopeTarget (withScopes false read) := by
    rw [scopedOf, split_allWords areSettled, scopedFrom_eq, allWords_eq,
      ofWords_words fun _ => isPlain_of_mem_withScopes areSettled,
      scopedView_congr (withScopes_agree agree false)]
  have keeps := @scopedView_withScopes Family.scopeTarget false _ _ collapses
    (fun operation member isFlag => (flagsReadBack operation member isFlag).named) fun _ => rfl
  rw [shows, scopedOf, scopedFrom_eq, keeps]

/-- Selections that are closed, one for a single operation, and an operation that is written as
another one. -/
theorem scopedOf_toCommand_regions :
    let text : Text :=
      "-channel Red -negate +channel ( -channel RGB -edge 2 +channel ) -grayscale -negate"
    scopedOf text =
      [("-negate".toList, "Red".toList), ("-edge".toList, "RGB".toList),
      ("-negate".toList, "RGB".toList)] ∧
      ∃ written, Effect.toCommand (Effect.ofCommand text) = .ok written ∧
          scopedOf written = scopedOf text := by
  intro text
  have flags : (Literal.split text).filter Token.isFlag =
      ["-channel".toList, "-negate".toList, "+channel".toList, "-channel".toList, "-edge".toList,
        "+channel".toList, "-grayscale".toList, "-negate".toList] := by
    decide +kernel
  rcases scopedOf_toCommand_iff text with ⟨written, rendered, keeps⟩
  refine ⟨by decide +kernel, written, rendered,
    (keeps fun token member isFlag => ?_).mpr (by decide +kernel)⟩
  have inFlags := List.mem_filter.mpr ⟨member, isFlag⟩
  rw [flags] at inFlags
  simp only [List.mem_cons, List.not_mem_nil, or_false] at inFlags
  rcases inFlags with rfl | rfl | rfl | rfl | rfl | rfl | rfl | rfl <;>
    exact ⟨⟨by decide, by decide⟩, by decide⟩

/-- Inside of another selection, one for a single operation is lost with its end. A flag that was
quoted is taken apart, and an end of selection with another sign before it becomes one. -/
theorem scopedOf_toCommand_nested :
    (Effect.toCommand (Effect.ofCommand "-channel Red -channel RGB -negate +channel -edge 1") =
        .ok "-channel Red -negate -edge 1".toList ∧
      scopedOf "-channel Red -channel RGB -negate +channel -edge 1" =
        [("-negate".toList, "RGB".toList), ("-edge".toList, "RGB".toList)] ∧
      scopedOf "-channel Red -negate -edge 1" =
        [("-negate".toList, "Red".toList), ("-edge".toList, "Red".toList)]) ∧
    (Effect.toCommand (Effect.ofCommand "'-x -negate'") = .ok "-x -negate".toList ∧
      scopedOf "'-x -negate'" ≠ scopedOf "-x -negate") ∧
    (Effect.toCommand (Effect.ofCommand "-channel Red -+channel -negate") =
        .ok "-channel Red +channel -channel RGB -negate +channel".toList ∧
      scopedOf "-channel Red -+channel -negate" ≠
        scopedOf "-channel Red +channel -channel RGB -negate +channel") := by
  decide +kernel

end Selection

end Retouch
