import Retouch.Proofs.Effect.Exposure
import Retouch.Proofs.Effect.Selection

/-!
# Reading operations

A token list is taken apart into operations, and read into the effects of these operations, with a
selection for a single operation collapsed into the operation. What was read is written as the same
operations again, with selections around those that get one.
-/

namespace Retouch

namespace Operation

variable {operation : Operation} {operations : List Operation} {rest : List Text}

/-! ## Token lists taken apart -/

theorem takeApart_append (tokens : List Text) :
    (takeApart tokens).1 ++ (takeApart tokens).2.flatMap (words id) = tokens := by
  induction tokens with
  | nil => rfl
  | cons token tokens ih =>
      rw [takeApart]
      dsimp only
      split
      · rw [List.cons_append, ih]
      · rw [List.flatMap_cons, words, List.map_id, List.nil_append, List.cons_append, ih]

theorem isArgument_of_mem_takeApart {tokens : List Text} {argument : Text}
    (member : argument ∈ (takeApart tokens).1) : Token.isArgument argument := by
  induction tokens with
  | nil => simp [takeApart] at member
  | cons token tokens ih =>
      rw [takeApart] at member
      dsimp only at member
      split at member
      · next isArgument =>
          rcases List.mem_cons.mp member with rfl | later
          · exact isArgument
          · exact ih later
      · simp at member

theorem isPlain_of_mem_ofWords {tokens : List Text} (member : operation ∈ ofWords tokens) :
    operation.IsPlain := by
  induction tokens with
  | nil => simp [ofWords, takeApart] at member
  | cons token tokens ih =>
      rw [ofWords, takeApart] at member
      dsimp only at member
      split at member
      · exact ih member
      · next notArgument =>
          rcases List.mem_cons.mp member with rfl | later
          · exact ⟨by simpa using notArgument, fun _ => isArgument_of_mem_takeApart⟩
          · exact ih later

theorem takeApart_arguments {arguments : List Text}
    (plain : ∀ argument ∈ arguments, Token.isArgument argument) (rest : List Text) :
    takeApart (arguments ++ rest) = (arguments ++ (takeApart rest).1, (takeApart rest).2) := by
  induction arguments with
  | nil => rfl
  | cons argument arguments ih =>
      rw [List.cons_append, takeApart, ih fun other member =>
        plain other (List.mem_cons_of_mem _ member)]
      simp [plain argument (by simp)]

theorem takeApart_words (arePlain : ∀ operation ∈ operations, operation.IsPlain) :
    takeApart (operations.flatMap (words id)) = ([], operations) := by
  induction operations with
  | nil => rfl
  | cons operation operations ih =>
      have isPlain := arePlain operation (by simp)
      rw [List.flatMap_cons, words, List.map_id, List.cons_append, takeApart,
        takeApart_arguments isPlain.plain, ih fun other member =>
          arePlain other (List.mem_cons_of_mem _ member)]
      simp [isPlain.starts]

theorem ofWords_words (arePlain : ∀ operation ∈ operations, operation.IsPlain) :
    ofWords (operations.flatMap (words id)) = operations := by
  rw [ofWords, takeApart_words arePlain]

theorem takeApart_append_of_stop (tokens : List Text)
    (stop : ∀ token ∈ rest.head?, Token.isArgument token = false) :
    takeApart (tokens ++ rest) = ((takeApart tokens).1, (takeApart tokens).2 ++ ofWords rest) := by
  induction tokens with
  | nil =>
      rcases rest with _ | ⟨token, rest⟩
      · rfl
      · simp [takeApart, ofWords, stop token (by simp)]
  | cons token tokens ih =>
      rw [List.cons_append, takeApart, takeApart, ih]
      dsimp only
      split <;> rfl

theorem ofWords_append (tokens : List Text)
    (stop : ∀ token ∈ rest.head?, Token.isArgument token = false) :
    ofWords (tokens ++ rest) = ofWords tokens ++ ofWords rest := by
  rw [ofWords, takeApart_append_of_stop tokens stop]
  rfl

theorem isArgument_head?_words (arePlain : ∀ operation ∈ operations, operation.IsPlain) :
    ∀ token ∈ (operations.flatMap (words id)).head?, Token.isArgument token = false := by
  intro token member
  rcases operations with _ | ⟨operation, operations⟩
  · simp at member
  · obtain rfl : operation.flag = token := by simpa [words] using member
    exact (arePlain operation (by simp)).starts

end Operation

namespace Effect

open Operation Selection

variable {selection single closing operation : Operation} {operations rest : List Operation}

/-! ## Token lists that are read -/

theorem ofTokens_arguments {arguments : List Text}
    (plain : ∀ argument ∈ arguments, Token.isArgument argument)
    (tokens : List Text) : ofTokens (arguments ++ tokens) = ofTokens tokens := by
  induction arguments with
  | nil => rfl
  | cons argument arguments ih =>
      have notFlag : Token.isFlag argument = false := by
        have isArgument := plain argument (by simp)
        simp only [Token.isArgument, Bool.and_eq_true, Bool.not_eq_true'] at isArgument
        exact isArgument.2
      rw [List.cons_append, ofTokens, if_neg (by simp [notFlag])]
      exact ih fun other member => plain other (List.mem_cons_of_mem _ member)

theorem ofTokens_ofWords (tokens : List Text) :
    ofTokens ((ofWords tokens).flatMap (words id)) = ofTokens tokens := by
  nth_rewrite 2 [← takeApart_append tokens]
  rw [ofTokens_arguments fun _ => isArgument_of_mem_takeApart]
  rfl

theorem taken_readRun_le (flag : Text) (run : List Text) : (readRun flag run).2 ≤ run.length := by
  unfold readRun
  cases family : Family.ofFlag (Flag.canonical flag) with
  | toggle | channelReset => simp [Family.read]
  | generic => simp [Family.read, Family.readGeneric]
  | _ =>
      rcases run with _ | ⟨first, others⟩
      · simp [Family.read, Family.readGeneric]
      · simp [Family.read]
        try omega

theorem argumentRun_words (arePlain : ∀ other ∈ operation :: operations, other.IsPlain) :
    Token.argumentRun (operation.arguments ++ operations.flatMap (words id)) =
      operation.arguments :=
  Token.argumentRun_append (arePlain operation (by simp)).plain
    (isArgument_head?_words fun other member => arePlain other (List.mem_cons_of_mem _ member))

theorem readScoped?_of_joins (joins : Joins (selection :: single :: closing :: rest))
    (arePlain : ∀ other ∈ single :: closing :: rest, other.IsPlain) :
    readScoped? (selection.arguments ++ (single :: closing :: rest).flatMap (words id)) =
      some (single.effect, single.arguments.length + 3) := by
  obtain ⟨-, target, ⟨isFlag, isScoped, read⟩, closes⟩ := joins
  rw [target, List.flatMap_cons, words, List.map_id, List.cons_append, List.cons_append,
    List.nil_append, readScoped?, if_pos ⟨rfl, isFlag, isScoped⟩,
    argumentRun_words arePlain, read]
  simp [words, closes]

/-- A selection that is read together with an operation is one for this operation. -/
theorem joins_of_readScoped? (opens : selection.flag = Flag.regionOpen)
    (arePlain : ∀ other ∈ selection :: operations, other.IsPlain)
    (found : (readScoped? (selection.arguments ++ operations.flatMap (words id))).isSome) :
    Joins (selection :: operations) := by
  have areOthers : ∀ other ∈ operations, other.IsPlain := fun other member =>
    arePlain other (List.mem_cons_of_mem _ member)
  obtain ⟨reading, found⟩ := Option.isSome_iff_exists.mp found
  obtain ⟨flag, following, effect, count, tokens, isFlag, isScoped, read, closes, -⟩ :=
    exists_of_readScoped? found
  have target : selection.arguments = [Family.scopeTarget] := by
    have isArgument : Token.isArgument Family.scopeTarget := by decide
    rw [← argumentRun_words arePlain, tokens]
    simp [Token.argumentRun, isArgument, isArgument_of_isFlag isFlag]
  rw [target, List.singleton_append] at tokens
  obtain ⟨-, tokens⟩ := List.cons.inj tokens
  rcases operations with _ | ⟨single, operations⟩
  · simp at tokens
  rw [List.flatMap_cons, words, List.map_id, List.cons_append] at tokens
  obtain ⟨rfl, rfl⟩ := List.cons.inj tokens
  rw [argumentRun_words areOthers] at read
  have same : readRun single.flag single.arguments = (effect, count) := by
    rw [readRun, read]
    rfl
  have few := taken_readRun_le single.flag single.arguments
  rw [same] at few
  rw [List.drop_append_of_le_length few] at closes
  -- The end of the selection stands behind the arguments that are taken, so none of them is left
  -- over.
  have left : single.arguments.drop count = [] := by
    obtain ⟨others, parts⟩ := List.head?_eq_some_iff.mp closes
    have plain : ∀ argument ∈ single.arguments.drop count, Token.isArgument argument :=
        fun argument member =>
      (areOthers single (by simp)).plain argument (List.mem_of_mem_drop member)
    have stop := isArgument_head?_words fun other member =>
      areOthers other (List.mem_cons_of_mem _ member)
    rw [← Token.argumentRun_append plain stop, parts]
    rfl
  obtain rfl : count = single.arguments.length := le_antisymm few (List.drop_eq_nil_iff.mp left)
  rw [left, List.nil_append] at closes
  rcases operations with _ | ⟨closing, rest⟩
  · simp at closes
  · refine ⟨opens, target, ⟨isFlag, isScoped, ?_⟩, by simpa [words] using closes⟩
    rw [read, Operation.effect, same]

theorem ofTokens_of_not_isFlag (notFlag : Token.isFlag operation.flag = false)
    (arePlain : ∀ other ∈ operation :: operations, other.IsPlain) :
    ofTokens ((operation :: operations).flatMap (words id)) =
      ofTokens (operations.flatMap (words id)) := by
  rw [List.flatMap_cons, words, List.map_id, List.cons_append, ofTokens, if_neg (by simp [notFlag])]
  exact ofTokens_arguments (arePlain operation (by simp)).plain _

theorem ofTokens_of_joins (joins : Joins (selection :: single :: closing :: rest))
    (arePlain : ∀ other ∈ single :: closing :: rest, other.IsPlain) :
    ofTokens ((selection :: single :: closing :: rest).flatMap (words id)) =
      single.effect :: ofTokens (rest.flatMap (words id)) := by
  obtain ⟨opens, target, -⟩ := id joins
  have isFlag : Token.isFlag selection.flag := opens ▸ isFlag_regionOpen
  have left : (selection.arguments ++ (single :: closing :: rest).flatMap (words id)).drop
      (single.arguments.length + 3) = closing.arguments ++ rest.flatMap (words id) := by
    have front : selection.arguments ++ (single :: closing :: rest).flatMap (words id) =
        (selection.arguments ++ single.words id ++ [closing.flag]) ++
          (closing.arguments ++ rest.flatMap (words id)) := by
      simp [words]
    have length : single.arguments.length + 3 =
        (selection.arguments ++ single.words id ++ [closing.flag]).length := by
      simp [words, target]
    rw [front, length, List.drop_left]
  rw [List.flatMap_cons, words, List.map_id, List.cons_append, ofTokens, if_pos isFlag, readFirst,
    if_pos opens, readScoped?_of_joins joins arePlain, Option.getD_some, left,
    ofTokens_arguments (arePlain closing (by simp)).plain]

theorem ofTokens_of_not_joins (isFlag : Token.isFlag operation.flag)
    (apart : ¬Joins (operation :: operations))
    (arePlain : ∀ other ∈ operation :: operations, other.IsPlain) :
    ofTokens ((operation :: operations).flatMap (words id)) =
      operation.effect :: ofTokens (operations.flatMap (words id)) := by
  have alone : readFlag operation.flag (operation.arguments ++ operations.flatMap (words id)) =
      readRun operation.flag operation.arguments := by
    rw [readFlag_eq, argumentRun_words arePlain]
  have first : readFirst operation.flag (operation.arguments ++ operations.flatMap (words id)) =
      readRun operation.flag operation.arguments := by
    unfold readFirst
    split
    · next opens =>
        have single := mt (joins_of_readScoped? opens arePlain) apart
        rw [Bool.not_eq_true, Option.isSome_eq_false_iff, Option.isNone_iff_eq_none] at single
        rw [single, Option.getD_none, alone]
    · exact alone
  have few := taken_readRun_le operation.flag operation.arguments
  rw [List.flatMap_cons, words, List.map_id, List.cons_append, ofTokens, if_pos isFlag, first,
    List.drop_append_of_le_length few, ofTokens_arguments, Operation.effect]
  exact fun argument member =>
    (arePlain operation (by simp)).plain argument (List.mem_of_mem_drop member)

/-- Operations are read one after the other, with the selections for single operations collapsed. -/
theorem exists_collapses (arePlain : ∀ operation ∈ operations, operation.IsPlain) :
    ∃ read, Collapses operations read ∧
      (∀ operation ∈ read, operation ∈ operations ∧ Token.isFlag operation.flag) ∧
      ofTokens (operations.flatMap (words id)) = read.map Operation.effect := by
  -- A selection for a single operation takes three operations at once, so the induction is on the
  -- length.
  induction length : operations.length using Nat.strong_induction_on generalizing operations with
  | _ count ih =>
      subst length
      rcases operations with _ | ⟨operation, operations⟩
      · exact ⟨[], .nil, by simp, by rw [List.flatMap_nil, ofTokens, List.map_nil]⟩
      have areOthers : ∀ other ∈ operations, other.IsPlain := fun other member =>
        arePlain other (List.mem_cons_of_mem _ member)
      cases isFlag : Token.isFlag operation.flag with
      | false =>
          obtain ⟨read, collapses, fromOthers, effects⟩ :=
            ih operations.length (by simp) areOthers rfl
          refine ⟨read, .passed isFlag collapses, fun other member => ?_, ?_⟩
          · exact ⟨List.mem_cons_of_mem _ (fromOthers other member).1,
              (fromOthers other member).2⟩
          · rw [ofTokens_of_not_isFlag isFlag arePlain, effects]
      | true =>
          by_cases joins : Joins (operation :: operations)
          · obtain ⟨single, closing, rest, rfl⟩ := joins.exists_cons
            obtain ⟨-, -, isSingle, -⟩ := id joins
            obtain ⟨read, collapses, fromRest, effects⟩ := ih rest.length (by simp; omega)
              (fun other member => areOthers other (by simp [member])) rfl
            refine ⟨single :: read, .joined joins collapses, ?_, ?_⟩
            · simp only [List.forall_mem_cons]
              refine ⟨⟨by simp, isSingle.1⟩,
                fun other member => ⟨?_, (fromRest other member).2⟩⟩
              simp [(fromRest other member).1]
            · rw [ofTokens_of_joins joins areOthers, effects, List.map_cons]
          · obtain ⟨read, collapses, fromOthers, effects⟩ :=
              ih operations.length (by simp) areOthers rfl
            refine ⟨operation :: read, .kept isFlag joins collapses, ?_, ?_⟩
            · simp only [List.forall_mem_cons]
              refine ⟨⟨by simp, isFlag⟩,
                fun other member => ⟨?_, (fromOthers other member).2⟩⟩
              exact List.mem_cons_of_mem _ (fromOthers other member).1
            · rw [ofTokens_of_not_joins isFlag joins arePlain, effects, List.map_cons]

end Effect

/-! ## Operations that are written -/

/-- Whether a flag is written as it stands after it was read. -/
structure Flag.IsFaithful (flag : Text) : Prop where
  writable : IsWritable flag
  named : ofCanonical (canonical flag) = flag
  ownFlag : canonical flag ≠ "grayscale".toList

theorem Flag.IsOrdinary.isFaithful {flag : Text} (isOrdinary : IsOrdinary flag) : IsFaithful flag :=
  ⟨isOrdinary.writable, isOrdinary.named, isOrdinary.ownFlag⟩

/-- Whether two operations have the same flag and, if they are selections, select the same. -/
structure Operation.Matches (first second : Operation) : Prop where
  flag : first.flag = second.flag
  selects : first.flag = Flag.regionOpen → first.arguments.head? = second.arguments.head?

theorem Operation.IsSettled.isPlain {operation : Operation} (settled : operation.IsSettled) :
    operation.IsPlain where
  starts := isArgument_of_isFlag settled.writable.isFlag
  plain := fun argument member => (settled.settles.plain argument member).2

namespace Effect

open Operation Selection

theorem exists_settlesAs_matching {operation : Operation}
    (isFaithful : Flag.IsFaithful operation.flag) (plain : ArePlain operation.arguments) :
    ∃ settled, operation.effect.SettlesAs settled ∧ operation.Matches settled := by
  obtain ⟨writable, named, ownFlag⟩ := isFaithful
  have writable' : Flag.IsWritable (Flag.ofCanonical (Flag.canonical operation.flag)) := by
    rwa [named]
  by_cases opens : operation.flag = Flag.regionOpen
  · have name : Flag.canonical operation.flag = "channel".toList := by
      rw [opens]
      rfl
    have settles := (settlesAs_channel operation.flag name plain writable').1
    rw [named] at settles
    exact ⟨_, settles, rfl, fun _ => by rw [List.head?_take]; rfl⟩
  · obtain ⟨settled, settles, -⟩ :=
      exists_settlesAs_ownFlag operation.flag plain writable' ownFlag
    rw [named] at settles
    exact ⟨_, settles, rfl, fun same => absurd same opens⟩

end Effect

namespace Selection

open Operation

variable {first second : List Operation}

theorem view_congr (matching : List.Forall₂ Matches first second) (inForce : Text) :
    view inForce first = view inForce second ∧
      afterAll inForce first = afterAll inForce second := by
  induction matching generalizing inForce with
  | nil => exact ⟨rfl, rfl⟩
  | @cons operation other first second isMatch _ ih =>
      have same : after inForce operation = after inForce other := by
        rw [after, after, ← isMatch.flag]
        split
        · next opens =>
            rw [List.headD_eq_head?_getD, isMatch.selects opens, ← List.headD_eq_head?_getD]
        · rfl
      rw [view, view, isMatch.flag, same, (ih _).1, afterAll_cons, afterAll_cons, same, (ih _).2]
      exact ⟨rfl, rfl⟩

theorem withScopes_congr (matching : List.Forall₂ Matches first second) (scopeOpen : Bool) :
    List.Forall₂ Matches (withScopes scopeOpen first) (withScopes scopeOpen second) := by
  have refl (operation : Operation) : operation.Matches operation := ⟨rfl, fun _ => rfl⟩
  induction matching generalizing scopeOpen with
  | nil => exact .nil
  | @cons operation other first second isMatch _ ih =>
      have isScoped : operation.isScoped = other.isScoped := by
        rw [Operation.isScoped, Operation.isScoped, isMatch.flag]
      have scopeAfter : operation.effect.scopeAfter scopeOpen =
          other.effect.scopeAfter scopeOpen := by
        rw [Effect.scopeAfter, Effect.scopeAfter, flag_effect, flag_effect, isMatch.flag]
      rw [withScopes_cons, withScopes_cons, isScoped, scopeAfter]
      refine List.rel_append ?_ (ih _)
      split
      · exact .cons (refl _) (.cons isMatch (.cons (refl _) .nil))
      · exact .cons isMatch .nil

theorem allWords_eq (scopeOpen : Bool) (operations : List Operation) :
    allWords id scopeOpen operations = (withScopes scopeOpen operations).flatMap (words id) := by
  induction operations generalizing scopeOpen with
  | nil => rfl
  | cons operation operations ih =>
      rw [allWords_cons, withScopes_cons, List.flatMap_append, ih, scopedWords]
      split <;> simp [words, selectAll, reset]

theorem isPlain_of_mem_withScopes {operations : List Operation}
    (settled : ∀ operation ∈ operations, operation.IsSettled) {scopeOpen : Bool}
    {operation : Operation}
    (member : operation ∈ withScopes scopeOpen operations) : operation.IsPlain := by
  induction operations generalizing scopeOpen with
  | nil => simp [withScopes] at member
  | cons first operations ih =>
      have isPlain := (settled first (by simp)).isPlain
      rw [withScopes_cons] at member
      rcases List.mem_append.mp member with here | later
      · split at here
        · simp only [List.mem_cons, List.not_mem_nil, or_false] at here
          rcases here with rfl | rfl | rfl
          · exact isSettled_selectAll.isPlain
          · exact isPlain
          · exact isSettled_reset.isPlain
        · rw [List.mem_singleton.mp here]
          exact isPlain
      · exact ih (fun other otherMem => settled other (List.mem_cons_of_mem _ otherMem)) later

/-- What happens to the selections in force when the words of a command are written as other
words. -/
structure Rewrites (words written : List Text) : Prop where
  stop : ∀ token ∈ written.head?, Token.isArgument token = false
  length (inForce : Text) :
    (view inForce (ofWords written)).length = (view inForce (ofWords words)).length
  view_iff (inForce : Text) :
    view inForce (ofWords written) = view inForce (ofWords words) ↔
      ¬Loses false inForce (ofWords words)
  afterAll_eq (inForce : Text) (keeps : ¬Loses false inForce (ofWords words)) :
    afterAll inForce (ofWords written) = afterAll inForce (ofWords words)

theorem mem_of_mem_ofWords {tokens : List Text} {operation : Operation}
    (member : operation ∈ ofWords tokens)
    {token : Text} (inWords : token ∈ operation.words id) : token ∈ tokens := by
  rw [← takeApart_append tokens]
  exact List.mem_append_right _ (List.mem_flatMap.mpr ⟨operation, member, inWords⟩)

/-- What was read of words is written as words with the same operations. Each of them keeps the
channels that it works on exactly if none loses them. -/
theorem exists_rewrites {tokens : List Text} (nonempty : ∀ token ∈ tokens, token ≠ [])
    (areFaithful : ∀ token ∈ tokens, Token.isFlag token → Flag.IsFaithful token)
    (some : Effect.ofTokens tokens ≠ []) :
    ∃ text written, Effect.toCommand (Effect.ofTokens tokens) = .ok text ∧
      (∃ c ∈ text.head?, c = '-' ∨ c = '+') ∧ Literal.Carries text written ∧
        written ≠ [] ∧
      Rewrites tokens written := by
  have arePlain : ∀ operation ∈ ofWords tokens, operation.IsPlain := fun _ =>
    isPlain_of_mem_ofWords
  have areFaithful : ∀ operation ∈ ofWords tokens, Token.isFlag operation.flag →
      Flag.IsFaithful operation.flag := fun operation member =>
    areFaithful _ (mem_of_mem_ofWords member (by simp [words]))
  obtain ⟨read, collapses, fromTokens, effects⟩ := Effect.exists_collapses arePlain
  rw [Effect.ofTokens_ofWords] at effects
  obtain ⟨settled, both⟩ : ∃ settled : List Operation, List.Forall₂
      (fun operation other => operation.effect.SettlesAs other ∧ operation.Matches other)
      read settled := by
    refine exists_forall₂ fun operation member => ?_
    obtain ⟨inTokens, isFlag⟩ := fromTokens operation member
    refine Effect.exists_settlesAs_matching (areFaithful operation inTokens isFlag)
      fun argument argumentMem => ?_
    exact ⟨nonempty argument (mem_of_mem_ofWords inTokens (by simp [words, argumentMem])),
      (arePlain operation inTokens).plain argument argumentMem⟩
  have settle : List.Forall₂ Effect.SettlesAs (Effect.ofTokens tokens) settled := by
    rw [effects, List.forall₂_map_left_iff]
    exact both.imp fun _ _ pair => pair.1
  have matching : List.Forall₂ Matches read settled := both.imp fun _ _ pair => pair.2
  obtain ⟨text, written, start, carries, words_ne⟩ :=
    Effect.exists_carries_of_settlesAs settle some
  have areSettled := Effect.areSettled settle
  have operations : ofWords (allWords id false settled) = withScopes false settled := by
    rw [allWords_eq, ofWords_words fun _ => isPlain_of_mem_withScopes areSettled]
  have same (inForce : Text) := view_congr (withScopes_congr matching false) inForce
  have views (inForce : Text) := @view_withScopes inForce false false _ _ collapses
    (fun operation member isFlag => (areFaithful operation member isFlag).named) fun _ => rfl
  refine ⟨text, _, written, start, carries, words_ne, ?_, ?_, ?_, ?_⟩
  · exact isArgument_head?_allWords areSettled false
  · intro inForce
    rw [operations, ← (same inForce).1, length_view_withScopes collapses]
  · intro inForce
    rw [operations, ← (same inForce).1, (views inForce).1]
  · intro inForce keeps
    rw [operations, ← (same inForce).2, (views inForce).2 keeps]

end Selection

end Retouch
