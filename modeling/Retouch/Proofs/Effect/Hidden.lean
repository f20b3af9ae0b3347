import Retouch.Proofs.Effect.Scope

/-!
# Hidden flags

Validation judges an argument as it is written, an effect is read from what the argument stands for,
and a quoted argument can stand for a flag. A call, an allowed flag with the values of its
arguments, is therefore read as a cluster: an operation with the values before the first hidden
flag, and one operation for each hidden flag. The words of a cluster are the values of its call, up
to the form in which the arguments of the first operation settle.
-/

namespace Retouch

namespace Family

/-- The number of arguments that a family reads, unless it reads all of them. -/
def arity? : Family → Option Nat
  | .toggle .. | .channelReset => some 0
  | .generic => none
  | .morphology | .method .. => some 2
  | _ => some 1

end Family

namespace Flag

variable {flag : Text}

/-- What holds of a flag whose operation is read and written under its own name, with as many
arguments as its rule asks for. -/
structure IsOrdinary (flag : Text) : Prop where
  writable : IsWritable flag
  named : ofCanonical (canonical flag) = flag
  ownFlag : canonical flag ≠ "grayscale".toList
  arity : ∀ count ∈ (Family.ofFlag (canonical flag)).arity?, Flag.arity flag = count

theorem isBasicText_of_isAllowed (isAllowed : Flag.isAllowed flag) : Literal.isBasicText flag := by
  have areBasic : ∀ flag ∈ allowed, Literal.isBasicText flag := by decide +kernel
  exact areBasic flag (List.contains_iff_mem.mp isAllowed)

theorem isOrdinary_of_isAllowed (isAllowed : Flag.isAllowed flag) : IsOrdinary flag := by
  have ordinary : ∀ flag ∈ allowed, Token.isFlag flag ∧
      ofCanonical (canonical flag) = flag ∧
      canonical flag ≠ "grayscale".toList ∧
      ∀ count ∈ (Family.ofFlag (canonical flag)).arity?, arity flag = count := by decide +kernel
  rcases ordinary flag (List.contains_iff_mem.mp isAllowed) with ⟨isFlag, named, ownFlag, arity⟩
  exact ⟨⟨isFlag, Literal.isBare_of_isBasicText (isBasicText_of_isAllowed isAllowed)⟩, named,
    ownFlag, arity⟩

/-- A flag that read no more arguments than its rule asks for is written with those that it read, or
with all that its rule asks for. -/
theorem IsOrdinary.writtenCount_cases (isOrdinary : IsOrdinary flag) {run : List Text}
    (few : run.length ≤ Flag.arity flag) :
    ((Family.ofFlag (canonical flag)).writtenCount run = run.length ∨
        (Family.ofFlag (canonical flag)).writtenCount run = Flag.arity flag) ∧
      (Family.ofFlag (canonical flag)).writtenCount run ≤ Flag.arity flag := by
  have arity := isOrdinary.arity
  cases family : Family.ofFlag (canonical flag) with
  | generic =>
      simp only [Family.writtenCount, true_or, true_and]
      omega
  | toggle | channelReset =>
      rw [family] at arity
      have none := arity 0 rfl
      simp only [Family.writtenCount]
      omega
  | morphology | method =>
      rw [family] at arity
      have two := arity 2 rfl
      simp only [Family.writtenCount]
      split
      · next empty =>
          rw [List.isEmpty_iff] at empty
          simp [empty]
      · omega
  | _ =>
      rw [family] at arity
      have one := arity 1 rfl
      simp only [Family.writtenCount]
      omega

/-- A flag that has the arguments that its rule asks for writes as many as it read. -/
theorem IsOrdinary.writtenCount_eq (isOrdinary : IsOrdinary flag) {run : List Text}
    (count : run.length = Flag.arity flag) :
    (Family.ofFlag (canonical flag)).writtenCount run = run.length := by
  rcases isOrdinary.writtenCount_cases count.le with ⟨asRead | inFull, -⟩
  · exact asRead
  · rw [inFull, count]

end Flag

namespace Operation

/-- Whether an operation is written as another one of the same flag after it was read. -/
structure IsWrittenAs (operation written : Operation) : Prop where
  settles : operation.effect.SettlesAs written
  flag : written.flag = operation.flag
  count : written.arguments.length =
    (Family.ofFlag (Flag.canonical operation.flag)).writtenCount operation.arguments
  writes : (Family.ofFlag (Flag.canonical operation.flag)).Writes operation.arguments
    written.arguments

/-- An operation of an allowed flag is written under its own flag. -/
theorem exists_isWrittenAs {operation : Operation} (isAllowed : Flag.isAllowed operation.flag)
    (plain : Effect.ArePlain operation.arguments) : ∃ written, operation.IsWrittenAs written := by
  have ordinary := Flag.isOrdinary_of_isAllowed isAllowed
  rcases Effect.exists_settlesAs_ownFlag operation.flag plain
    (by rw [ordinary.named]; exact ordinary.writable) ordinary.ownFlag with
      ⟨settled, settles, count, writes⟩
  rw [ordinary.named] at settles
  exact ⟨⟨operation.flag, settled⟩, settles, rfl, count, writes⟩

end Operation

namespace Flag

variable {flag : Text}

/-- Whether a flag is outside the allow-list and written as it stands after it was read. The
grayscale switch is not, since it is written as a choice of a colour space. -/
structure IsHidden (flag : Text) : Prop where
  writable : IsWritable flag
  named : ofCanonical (canonical flag) = flag
  notAllowed : Flag.isAllowed flag = false
  ownFlag : flag ≠ "-grayscale".toList

theorem IsHidden.family (isHidden : IsHidden flag) : Family.ofFlag (canonical flag) = .generic := by
  have known : ∀ entry ∈ Family.table,
      isAllowed (ofCanonical entry.1) ∨ ofCanonical entry.1 = "-grayscale".toList := by
        decide +kernel
  refine (Family.generic_or_mem_table _).resolve_right fun member => ?_
  have entry := known _ member
  simp only [isHidden.named, isHidden.notAllowed, isHidden.ownFlag, Bool.false_eq_true,
    or_self] at entry

end Flag

/-- Whether what an argument stands for is an argument or a hidden flag. -/
def IsValue (value : Text) : Prop :=
  (value ≠ [] ∧ Token.isArgument value) ∨ Flag.IsHidden value

namespace Operation

/-- Whether an operation is an allowed flag with as many values as its rule asks for. -/
structure IsCall (call : Operation) : Prop where
  isAllowed : Flag.isAllowed call.flag
  count : call.arguments.length = Flag.arity call.flag
  areValues : ∀ value ∈ call.arguments, IsValue value

/-- Whether an operation is a hidden flag with arguments. -/
structure IsHidden (operation : Operation) : Prop where
  flag : Flag.IsHidden operation.flag
  plain : Effect.ArePlain operation.arguments

end Operation

/-- An operation with the hidden ones behind it. -/
structure Cluster where
  operation : Operation
  hidden : List Operation

namespace Cluster

/-- Whether a cluster has as many words as its flag and the arguments that the rule asks for. -/
structure IsWhole (cluster : Cluster) : Prop where
  isAllowed : Flag.isAllowed cluster.operation.flag
  plain : Effect.ArePlain cluster.operation.arguments
  areHidden : ∀ operation ∈ cluster.hidden, operation.IsHidden
  count : cluster.operation.arguments.length +
    (cluster.hidden.flatMap (Operation.words id)).length =
    Flag.arity cluster.operation.flag

/-- The effects of a cluster. -/
def effects (cluster : Cluster) : List Effect :=
  cluster.operation.effect :: cluster.hidden.map Operation.effect

end Cluster

namespace Effect

/-- An allowed flag takes the whole run of arguments unless there are too many. -/
theorem taken_readRun {flag : Text} (isAllowed : Flag.isAllowed flag) {run : List Text}
    (short : run.length ≤ Flag.arity flag) : (readRun flag run).2 = run.length := by
  have arity {count : Nat} (reads : (Family.ofFlag (Flag.canonical flag)).arity? = some count) :
      run.length ≤ count := (Flag.isOrdinary_of_isAllowed isAllowed).arity count reads ▸ short
  unfold readRun
  cases family : Family.ofFlag (Flag.canonical flag) with
  | generic => rfl
  | toggle | channelReset =>
      rw [family] at arity
      have none := arity rfl
      simp only [Family.read, Option.getD_some]
      omega
  | morphology | method =>
      rw [family] at arity
      have few := arity rfl
      rcases run with _ | ⟨first, _ | ⟨second, _ | _⟩⟩
      · rfl
      · rfl
      · rfl
      · simp at few
  | _ =>
      rw [family] at arity
      have few := arity rfl
      rcases run with _ | ⟨first, _ | _⟩
      · rfl
      · rfl
      · simp at few

/-- The values before the first hidden flag are arguments. -/
theorem arePlain_argumentRun {values : List Text}
    (areValues : ∀ value ∈ values, IsValue value) :
    ArePlain (Token.argumentRun values) := by
  intro value member
  have isArgument := List.mem_takeWhile_imp member
  rcases areValues value ((List.takeWhile_prefix _).subset member) with plain | isHidden
  · exact plain
  · simp [Token.isArgument, isHidden.writable.isFlag] at isArgument

/-- Values that begin with a hidden flag are read as one operation for each hidden flag. -/
theorem exists_hidden (values : List Text) {rest : List Text}
    (areValues : ∀ value ∈ values, IsValue value)
    (start : ∀ value ∈ values.head?, Token.isArgument value = false)
    (stop : ∀ token ∈ rest.head?, Token.isArgument token = false) :
    ∃ hidden : List Operation, (∀ operation ∈ hidden, operation.IsHidden) ∧
      hidden.flatMap (Operation.words id) = values ∧
      ofTokens (values ++ rest) = hidden.map Operation.effect ++ ofTokens rest := by
  induction length : values.length using Nat.strong_induction_on generalizing values with
  | _ count ih =>
      cases values with
      | nil => exact ⟨[], by simp, rfl, rfl⟩
      | cons flag others =>
          have areOthers : ∀ value ∈ others, IsValue value := fun value member =>
            areValues value (List.mem_cons_of_mem _ member)
          have isHidden : Flag.IsHidden flag := by
            rcases areValues flag (by simp) with ⟨-, isArgument⟩ | isHidden
            · simp [start flag (by simp)] at isArgument
            · exact isHidden
          obtain ⟨hidden, areHidden, words, reads⟩ :=
            ih (others.dropWhile Token.isArgument).length
            (by rw [← length]; exact Nat.lt_succ_of_le (List.length_dropWhile_le _ _)) _
            (fun value member => areOthers value ((List.dropWhile_suffix _).subset member))
            (Token.isArgument_head?_dropWhile others) rfl
          have notOpen : flag ≠ Flag.regionOpen := by
            rintro rfl
            exact absurd isHidden.notAllowed (by decide)
          have first : readFirst flag (others ++ rest) =
              ((readRun flag (Token.argumentRun others)).1, (Token.argumentRun others).length) := by
            rw [readFirst, if_neg notOpen, readFlag_eq,
              Token.argumentRun_append_of_stop stop, readRun, isHidden.family]
            rfl
          refine ⟨⟨flag, Token.argumentRun others⟩ :: hidden, ?_, ?_, ?_⟩
          · simpa using ⟨⟨isHidden, arePlain_argumentRun areOthers⟩, areHidden⟩
          · rw [List.flatMap_cons, words, Operation.words, List.map_id, List.cons_append]
            exact congrArg (flag :: ·) List.takeWhile_append_dropWhile
          · rw [List.cons_append, ofTokens, if_pos isHidden.writable.isFlag, first,
              Token.drop_argumentRun_append, reads]
            rfl

theorem isArgument_head?_calls {calls : List Operation}
    (areCalls : ∀ call ∈ calls, call.IsCall) :
    ∀ token ∈ (calls.flatMap (Operation.words id)).head?, Token.isArgument token = false := by
  intro token member
  cases calls with
  | nil => simp at member
  | cons call calls =>
      have isFlag :=
        (Flag.isOrdinary_of_isAllowed (areCalls call (by simp)).isAllowed).writable.isFlag
      obtain rfl : call.flag = token := by simpa [Operation.words] using member
      simp [Token.isArgument, isFlag]

/-- A call is read by itself as the operation of its flag with the values before the first hidden
flag. -/
theorem readFlag_call {call : Operation} (isCall : call.IsCall) {rest : List Text}
    (stop : ∀ token ∈ rest.head?, Token.isArgument token = false) :
    readFlag call.flag (call.arguments ++ rest) =
      ((readRun call.flag (Token.argumentRun call.arguments)).1,
          (Token.argumentRun call.arguments).length) := by
  have short : (Token.argumentRun call.arguments).length ≤ Flag.arity call.flag :=
    isCall.count ▸ (List.takeWhile_prefix _).length_le
  rw [readFlag_eq, Token.argumentRun_append_of_stop stop, ← taken_readRun isCall.isAllowed short]

/-- A selection of all colour channels is read together with the call behind it if that call hides
nothing and the end of the selection follows. -/
theorem exists_of_readScoped?_calls {selection : Operation} (isSelection : selection.IsCall)
    (opens : selection.flag = Flag.regionOpen) {calls : List Operation}
    (areCalls : ∀ call ∈ calls, call.IsCall) {reading : Effect × Nat}
    (found : readScoped? (selection.arguments ++ calls.flatMap (Operation.words id)) =
        some reading) :
    ∃ call after, calls = call :: Operation.reset :: after ∧ ArePlain call.arguments ∧
      reading = (call.effect, call.arguments.length + 3) ∧ selection.arguments.length = 1 := by
  have single : selection.arguments.length = 1 := by
    rw [isSelection.count, opens]
    decide
  obtain ⟨target, arguments⟩ := List.length_eq_one_iff.mp single
  rw [arguments] at found ⊢
  cases calls with
  | nil => simp [readScoped?] at found
  | cons call others =>
      have isCall := areCalls call (by simp)
      have areOthers : ∀ other ∈ others, other.IsCall := fun other member =>
        areCalls other (List.mem_cons_of_mem _ member)
      have stop := isArgument_head?_calls areOthers
      obtain ⟨flag, following, effect, count, tokens, -, -, read, closes, rfl⟩ :=
        exists_of_readScoped? found
      rw [List.flatMap_cons, Operation.words, List.map_id, List.cons_append, List.nil_append,
        List.cons_append] at tokens
      obtain ⟨-, parts⟩ := List.cons.inj tokens
      obtain ⟨rfl, rfl⟩ := List.cons.inj parts
      have alone := readFlag_call isCall stop
      rw [readFlag, read, Option.getD_some, Prod.mk.injEq] at alone
      obtain ⟨rfl, rfl⟩ := alone
      rw [Token.drop_argumentRun_append] at closes
      -- A hidden flag would stand where the end of the selection stands.
      have noneHidden : call.arguments.dropWhile Token.isArgument = [] := by
        rcases left : call.arguments.dropWhile Token.isArgument with _ | ⟨value, values⟩
        · rfl
        · have member : value ∈ call.arguments :=
            (List.dropWhile_suffix Token.isArgument).subset (left ▸ List.mem_cons_self)
          have same : value = Flag.regionClose := by simpa [left] using closes
          rcases isCall.areValues value member with ⟨-, isArgument⟩ | isHidden
          · rw [same] at isArgument
            exact absurd isArgument (by decide)
          · exact absurd (same ▸ isHidden.notAllowed) (by decide)
      have run : Token.argumentRun call.arguments = call.arguments := by
        have parts := List.takeWhile_append_dropWhile (p := Token.isArgument) (l := call.arguments)
        rwa [noneHidden, List.append_nil] at parts
      rw [noneHidden, List.nil_append] at closes
      rcases others with _ | ⟨close, after⟩
      · simp at closes
      · have isClose := areOthers close (by simp)
        have flag : close.flag = Flag.regionClose := by simpa [Operation.words] using closes
        have noArguments : close.arguments = [] := by
          rw [← List.length_eq_zero_iff, isClose.count, flag]
          decide
        obtain rfl : close = Operation.reset := by
          cases close
          simp_all [Operation.reset]
        have plain := arePlain_argumentRun isCall.areValues
        rw [run] at plain
        exact ⟨call, after, rfl, plain, by rw [run, Operation.effect], rfl⟩

/-- The first call is read as a whole cluster, possibly with the selection around it. -/
theorem exists_cluster {call : Operation} {calls : List Operation}
    (areCalls : ∀ other ∈ call :: calls, other.IsCall) :
    ∃ cluster : Cluster, ∃ after, cluster.IsWhole ∧ after <:+ calls ∧
      ofTokens ((call :: calls).flatMap (Operation.words id)) =
        cluster.effects ++ ofTokens (after.flatMap (Operation.words id)) := by
  have isCall := areCalls call (by simp)
  have areOthers : ∀ other ∈ calls, other.IsCall := fun other member =>
    areCalls other (List.mem_cons_of_mem _ member)
  have isFlag := (Flag.isOrdinary_of_isAllowed isCall.isAllowed).writable.isFlag
  have stop := isArgument_head?_calls areOthers
  rw [List.flatMap_cons, Operation.words, List.map_id, List.cons_append, ofTokens, if_pos isFlag]
  -- A selection is read together with the next call; any other call is read by itself, and what it
  -- hides begins with the first of its values that is a flag.
  by_cases joined : call.flag = Flag.regionOpen ∧
      (readScoped? (call.arguments ++ calls.flatMap (Operation.words id))).isSome
  · obtain ⟨opens, isSome⟩ := joined
    obtain ⟨reading, found⟩ := Option.isSome_iff_exists.mp isSome
    obtain ⟨inner, after, rfl, plain, rfl, single⟩ :=
      exists_of_readScoped?_calls isCall opens areOthers found
    have isInner := areOthers inner (by simp)
    have left :
        (call.arguments ++ (inner :: Operation.reset :: after).flatMap (Operation.words id)).drop
        (inner.arguments.length + 3) = after.flatMap (Operation.words id) := by
      have front : inner.arguments.length + 3 =
          (call.arguments ++ inner.words id ++ Operation.reset.words id).length := by
        simp only [Operation.words, Operation.reset, List.map_id, List.length_append,
          List.length_cons, List.length_nil, single]
        omega
      rw [front, List.flatMap_cons, List.flatMap_cons, ← List.append_assoc, ← List.append_assoc,
        List.drop_left]
    refine ⟨⟨inner, []⟩, after,
      ⟨isInner.isAllowed, plain, by simp, by simpa using isInner.count⟩,
      ⟨[inner, Operation.reset], rfl⟩, ?_⟩
    rw [readFirst, if_pos opens, found, Option.getD_some, left]
    rfl
  · have alone : readFirst call.flag (call.arguments ++ calls.flatMap (Operation.words id)) =
        readFlag call.flag (call.arguments ++ calls.flatMap (Operation.words id)) := by
      unfold readFirst
      split
      · next opens =>
          simp only [opens, true_and, Bool.not_eq_true, Option.isSome_eq_false_iff,
            Option.isNone_iff_eq_none] at joined
          rw [opens, joined, Option.getD_none]
      · rfl
    obtain ⟨hidden, areHidden, words, reads⟩ :=
      exists_hidden (call.arguments.dropWhile Token.isArgument)
      (fun value member => isCall.areValues value ((List.dropWhile_suffix _).subset member))
      (Token.isArgument_head?_dropWhile _) stop
    have whole : (Token.argumentRun call.arguments).length +
        (hidden.flatMap (Operation.words id)).length = Flag.arity call.flag := by
      rw [words, ← List.length_append, Token.argumentRun, List.takeWhile_append_dropWhile,
        isCall.count]
    refine ⟨⟨⟨call.flag, Token.argumentRun call.arguments⟩, hidden⟩, calls,
      ⟨isCall.isAllowed, arePlain_argumentRun isCall.areValues, areHidden, whole⟩,
        List.suffix_rfl, ?_⟩
    rw [alone, readFlag_call isCall stop, Token.drop_argumentRun_append, reads]
    rfl

/-- Calls are read as whole clusters. -/
theorem exists_clusters {calls : List Operation} (areCalls : ∀ call ∈ calls, call.IsCall) :
    ∃ clusters : List Cluster, (∀ cluster ∈ clusters, cluster.IsWhole) ∧
      ofTokens (calls.flatMap (Operation.words id)) = clusters.flatMap Cluster.effects := by
  induction length : calls.length using Nat.strong_induction_on generalizing calls with
  | _ count ih =>
      cases calls with
      | nil => exact ⟨[], by simp, by rw [List.flatMap_nil, ofTokens, List.flatMap_nil]⟩
      | cons call calls =>
          obtain ⟨cluster, after, isWhole, suffix, reads⟩ := exists_cluster areCalls
          obtain ⟨clusters, areWhole, readsAfter⟩ := ih after.length
            (by rw [← length]; exact Nat.lt_succ_of_le suffix.length_le)
            (fun other member => areCalls other (List.mem_cons_of_mem _ (suffix.subset member))) rfl
          refine ⟨cluster :: clusters, by simpa using ⟨isWhole, areWhole⟩, ?_⟩
          rw [reads, readsAfter, List.flatMap_cons]

end Effect

end Retouch
