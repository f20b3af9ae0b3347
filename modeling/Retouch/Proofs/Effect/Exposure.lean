import Retouch.Proofs.Effect.Hidden
import Retouch.Proofs.Invocation.Options

/-!
# Hidden flags that show

What an effect lacks is taken from the effects behind it. So a hidden flag stands as an argument of
the operation in front of it, exactly as it did in the call, unless that operation is written with
all of its arguments: with a default in the place of a missing argument, or with a selection around
it whose end is taken for the argument. Then the hidden flag shows as an option.
-/

namespace Retouch

open Invocation

namespace Effect

/-- Whether an effect of an allowed flag is written with all the arguments that the flag takes,
given whether a selection is open before it. -/
def IsComplete (effect : Effect) (scopeOpen : Bool) : Prop :=
  Flag.isAllowed (Flag.ofCanonical effect.flag) ∧
    ∃ written, effect.render scopeOpen = .ok written ∧
      Flag.arity (Flag.ofCanonical effect.flag) < (Literal.split written).length

/-- Whether a forbidden flag stands directly behind an effect that is complete without it, given
whether a selection is open before the effects. -/
def Exposes (scopeOpen : Bool) : List Effect → Prop
  | [] => False
  | effect :: effects =>
      (effect.IsComplete scopeOpen ∧
        ∃ next ∈ effects.head?, IsForbidden (Flag.ofCanonical next.flag)) ∨
      Exposes (effect.scopeAfter scopeOpen) effects

instance (effect : Effect) (scopeOpen : Bool) : Decidable (effect.IsComplete scopeOpen) :=
  decidable_of_iff
    (Flag.isAllowed (Flag.ofCanonical effect.flag) ∧
      ∃ written ∈ (effect.render scopeOpen).toOption,
      Flag.arity (Flag.ofCanonical effect.flag) < (Literal.split written).length)
    (and_congr_right fun _ => exists_congr fun _ => and_congr_left fun _ => by
      cases effect.render scopeOpen <;> simp [Except.toOption])

instance decidableExposes (scopeOpen : Bool) : (effects : List Effect) →
    Decidable (Exposes scopeOpen effects)
  | [] => inferInstanceAs (Decidable False)
  | effect :: effects =>
      have : Decidable (Exposes (effect.scopeAfter scopeOpen) effects) := decidableExposes _ effects
      inferInstanceAs (Decidable (_ ∨ _))

end Effect

namespace Operation

variable {operation : Operation}

theorem IsHidden.settlesAs (isHidden : operation.IsHidden) :
    operation.effect.SettlesAs operation := by
  have named := isHidden.flag.named
  have writable : Flag.IsWritable (Flag.ofCanonical (Flag.canonical operation.flag)) := by
    rw [named]
    exact isHidden.flag.writable
  have settles := (Effect.settles_generic isHidden.flag.family isHidden.plain).settlesAs
    writable Iff.rfl
  rwa [named] at settles

theorem IsHidden.isForbidden (isHidden : operation.IsHidden) : IsForbidden operation.flag :=
  ⟨isHidden.flag.writable.isFlag, isHidden.flag.notAllowed⟩

theorem ofCanonical_effect_flag (named : Flag.ofCanonical (Flag.canonical operation.flag) =
    operation.flag) :
    Flag.ofCanonical operation.effect.flag = operation.flag := by
  rw [Operation.effect, Effect.flag_readRun, named]

/-- A hidden flag neither opens nor closes a selection. -/
theorem IsHidden.scopeAfter (isHidden : operation.IsHidden) (scopeOpen : Bool) :
    operation.effect.scopeAfter scopeOpen = scopeOpen := by
  have family := isHidden.flag.family
  have notClose : operation.effect.flag ≠ Flag.regionClose := by
    rw [Operation.effect, Effect.flag_readRun]
    intro same
    rw [same, Effect.ofFlag_regionClose] at family
    simp at family
  have notOpen : operation.effect.flag ≠ "channel".toList := by
    rw [Operation.effect, Effect.flag_readRun]
    intro same
    rw [same, Effect.ofFlag_channel] at family
    simp at family
  rw [Effect.scopeAfter, if_neg notClose, if_neg notOpen]

theorem IsHidden.scopedWords (isHidden : operation.IsHidden) (form : Text → Text)
    (scopeOpen : Bool) :
    operation.scopedWords form scopeOpen = operation.words form := by
  simp [Operation.scopedWords, Operation.isScoped, isHidden.flag.family, Family.isScoped]

theorem allWords_hidden {hidden : List Operation}
    (areHidden : ∀ operation ∈ hidden, operation.IsHidden)
    (form : Text → Text) (scopeOpen : Bool) (operations : List Operation) :
    allWords form scopeOpen (hidden ++ operations) =
      hidden.flatMap (words form) ++ allWords form scopeOpen operations := by
  induction hidden with
  | nil => rfl
  | cons operation hidden ih =>
      have isHidden := areHidden operation (by simp)
      rw [List.cons_append, allWords, isHidden.scopedWords, isHidden.scopeAfter,
        ih fun other member => areHidden other (List.mem_cons_of_mem _ member), List.flatMap_cons,
        List.append_assoc]

end Operation

namespace Effect

/-- A settled operation is complete if its words outnumber the arguments that its flag takes. -/
theorem SettlesAs.isComplete_iff {effect : Effect} {operation : Operation}
    (settles : effect.SettlesAs operation)
    (same : Flag.ofCanonical effect.flag = operation.flag)
    (isAllowed : Flag.isAllowed operation.flag) (scopeOpen : Bool) :
    effect.IsComplete scopeOpen ↔
      Flag.arity operation.flag < (operation.scopedWords id scopeOpen).length := by
  have rendered := Operation.render_eq settles.rendersAs scopeOpen
  have split := Operation.split_scopedWords settles.settled.writable
    settles.settled.settles.plain scopeOpen
  rw [IsComplete, same, rendered]
  constructor
  · rintro ⟨-, written, text, complete⟩
    rwa [← Except.ok.inj text, split] at complete
  · intro complete
    exact ⟨isAllowed, _, rfl, by rwa [split]⟩

/-- Hidden flags expose nothing of what is behind them. -/
theorem exposes_hidden_iff {hidden : List Operation}
    (areHidden : ∀ operation ∈ hidden, operation.IsHidden)
    (scopeOpen : Bool) (effects : List Effect) :
    Exposes scopeOpen (hidden.map Operation.effect ++ effects) ↔ Exposes scopeOpen effects := by
  induction hidden with
  | nil => rfl
  | cons operation hidden ih =>
      have isHidden := areHidden operation (by simp)
      have notComplete : ¬operation.effect.IsComplete scopeOpen := by
        rintro ⟨isAllowed, -⟩
        rw [Operation.ofCanonical_effect_flag isHidden.flag.named, isHidden.flag.notAllowed]
          at isAllowed
        simp at isAllowed
      rw [List.map_cons, List.cons_append, Exposes, isHidden.scopeAfter,
        ih fun other member => areHidden other (List.mem_cons_of_mem _ member)]
      simp [notComplete]

end Effect

namespace Cluster

open Effect

variable {cluster : Cluster}

theorem IsWhole.isOrdinary (isWhole : cluster.IsWhole) : Flag.IsOrdinary cluster.operation.flag :=
  Flag.isOrdinary_of_isAllowed isWhole.isAllowed

theorem not_isForbidden_head? {clusters : List Cluster}
    (areWhole : ∀ cluster ∈ clusters, cluster.IsWhole) :
    ∀ next ∈ (clusters.flatMap effects).head?, ¬IsForbidden (Flag.ofCanonical next.flag) := by
  intro next member
  cases clusters with
  | nil => simp at member
  | cons cluster clusters =>
      have isWhole := areWhole cluster (by simp)
      obtain rfl : cluster.operation.effect = next := by simpa [effects] using member
      rw [Operation.ofCanonical_effect_flag isWhole.isOrdinary.named]
      simp [IsForbidden, isWhole.isAllowed]

/-- A cluster exposes a flag if it hides one and its operation is complete. -/
theorem IsWhole.exposes_iff (isWhole : cluster.IsWhole) (scopeOpen : Bool) {rest : List Effect}
    (stop : ∀ next ∈ rest.head?, ¬IsForbidden (Flag.ofCanonical next.flag)) :
    Exposes scopeOpen (cluster.effects ++ rest) ↔
      (cluster.operation.effect.IsComplete scopeOpen ∧ cluster.hidden ≠ []) ∨
        Exposes (cluster.operation.effect.scopeAfter scopeOpen) rest := by
  have next : (∃ next ∈ (cluster.hidden.map Operation.effect ++ rest).head?,
      IsForbidden (Flag.ofCanonical next.flag)) ↔ cluster.hidden ≠ [] := by
    cases hidden : cluster.hidden with
    | nil => simpa using stop
    | cons operation others =>
        have isHidden := isWhole.areHidden operation (by simp [hidden])
        have forbidden : IsForbidden (Flag.ofCanonical operation.effect.flag) := by
          rw [Operation.ofCanonical_effect_flag isHidden.flag.named]
          exact isHidden.isForbidden
        simpa using forbidden
  rw [effects, List.cons_append, Exposes, next, exposes_hidden_iff isWhole.areHidden]

/-- A whole cluster is written with the arguments that it read, or with all that its flag takes. -/
theorem IsWhole.count_cases (isWhole : cluster.IsWhole) {count : Nat}
    (written : count = (Family.ofFlag (Flag.canonical cluster.operation.flag)).writtenCount
      cluster.operation.arguments) :
    (count = cluster.operation.arguments.length ∨ count = Flag.arity cluster.operation.flag) ∧
      count ≤ Flag.arity cluster.operation.flag := by
  rw [written]
  exact isWhole.isOrdinary.writtenCount_cases (by have := isWhole.count; omega)

/-- An operation that gets a selection of its own takes one argument at most. -/
theorem IsWhole.arity_le_one (isWhole : cluster.IsWhole) (isScoped : cluster.operation.isScoped) :
    Flag.arity cluster.operation.flag ≤ 1 := by
  have arity := isWhole.isOrdinary.arity
  unfold Operation.isScoped at isScoped
  cases family : Family.ofFlag (Flag.canonical cluster.operation.flag) with
  | toggle =>
      rw [family] at arity
      exact (arity 0 rfl).le.trans (by omega)
  | amount =>
      rw [family] at arity
      exact (arity 1 rfl).le
  | _ => simp [family, Family.isScoped] at isScoped

/-- The words of the operation of a whole cluster are sound by themselves if there are more of them
than its flag takes. -/
theorem IsWhole.areSound_scopedWords (isWhole : cluster.IsWhole) {settled : List Text}
    (written : settled.length = (Family.ofFlag (Flag.canonical cluster.operation.flag)).writtenCount
      cluster.operation.arguments) {scopeOpen : Bool}
    (complete : Flag.arity cluster.operation.flag <
      (Operation.scopedWords id scopeOpen ⟨cluster.operation.flag, settled⟩).length) :
    AreSound (Operation.scopedWords id scopeOpen ⟨cluster.operation.flag, settled⟩) := by
  have takes : takenBy cluster.operation.flag = Flag.arity cluster.operation.flag := by
    rw [takenBy, if_pos isWhole.isAllowed]
  have harmless : ¬IsForbidden cluster.operation.flag := by simp [IsForbidden, isWhole.isAllowed]
  obtain ⟨-, atMost⟩ := isWhole.count_cases written
  have full (all : settled.length = Flag.arity cluster.operation.flag) :
      AreSound (Operation.words id ⟨cluster.operation.flag, settled⟩) := by
    refine areSound_cons harmless ?_
    rw [List.map_id, takes, all]
  unfold Operation.scopedWords at complete ⊢
  split at complete
  · next wrapped =>
      rw [if_pos wrapped]
      simp only [Bool.and_eq_true] at wrapped
      have opened : AreSound [Flag.regionOpen, Family.scopeTarget] :=
        areSound_cons (by decide) (by decide)
      have closed : AreSound [Flag.regionClose] := areSound_cons (by decide) (by decide)
      rw [List.append_assoc]
      refine opened.append ?_
      by_cases all : settled.length = Flag.arity cluster.operation.flag
      · exact (full all).append closed
      · -- The end of the selection is taken for the missing argument.
        have few := isWhole.arity_le_one wrapped.1
        have none : settled = [] := List.length_eq_zero_iff.mp (by omega)
        subst none
        have one : Flag.arity cluster.operation.flag = 1 := by
          simp only [List.length_nil] at all
          omega
        refine areSound_cons harmless ?_
        rw [takes, one]
        rfl
  · next bare =>
      rw [if_neg bare]
      simp only [Operation.words, List.map_id, List.length_cons] at complete
      exact full (by omega)

/-- The words of a whole cluster, with the form in which its operation settles, leak if the
operation is complete and something is hidden behind it, and are sound otherwise. -/
theorem IsWhole.leak_or_areSound (isWhole : cluster.IsWhole) {settled : List Text}
    (written : settled.length = (Family.ofFlag (Flag.canonical cluster.operation.flag)).writtenCount
      cluster.operation.arguments) (scopeOpen : Bool) :
    (Flag.arity cluster.operation.flag <
        (Operation.scopedWords id scopeOpen ⟨cluster.operation.flag, settled⟩).length ∧
          cluster.hidden ≠ [] ∧
      Leak (Operation.scopedWords id scopeOpen ⟨cluster.operation.flag, settled⟩ ++
        cluster.hidden.flatMap (Operation.words id))) ∨
    (¬(Flag.arity cluster.operation.flag <
        (Operation.scopedWords id scopeOpen ⟨cluster.operation.flag, settled⟩).length ∧
          cluster.hidden ≠ []) ∧
      AreSound (Operation.scopedWords id scopeOpen ⟨cluster.operation.flag, settled⟩ ++
        cluster.hidden.flatMap (Operation.words id))) := by
  by_cases complete : Flag.arity cluster.operation.flag <
      (Operation.scopedWords id scopeOpen ⟨cluster.operation.flag, settled⟩).length
  · have sound := isWhole.areSound_scopedWords written complete
    cases hidden : cluster.hidden with
    | nil => exact .inr ⟨by simp, by simpa using sound⟩
    | cons first others =>
        have isHidden := isWhole.areHidden first (by simp [hidden])
        refine .inl ⟨complete, by simp, sound.append_leak ?_⟩
        rw [List.flatMap_cons]
        exact (leak_cons isHidden.isForbidden _).append _
  · refine .inr ⟨fun both => complete both.1, ?_⟩
    have count := isWhole.count
    obtain ⟨either, -⟩ := isWhole.count_cases written
    unfold Operation.scopedWords at complete ⊢
    split at complete
    · next wrapped =>
        simp only [Bool.and_eq_true] at wrapped
        have few := isWhole.arity_le_one wrapped.1
        simp only [Operation.words, List.map_id, List.length_append, List.length_cons,
          List.length_nil] at complete
        omega
    · next bare =>
        simp only [Operation.words, List.map_id, List.length_cons] at complete
        rw [if_neg bare, Operation.words, List.map_id, List.cons_append]
        refine areSound_cons (by simp [IsForbidden, isWhole.isAllowed]) ?_
        rw [takenBy, if_pos isWhole.isAllowed, List.length_append]
        dsimp only
        omega

theorem IsWhole.exists_settlesAs (isWhole : cluster.IsWhole) :
    ∃ settled, cluster.operation.effect.SettlesAs ⟨cluster.operation.flag, settled⟩ ∧
      settled.length = (Family.ofFlag (Flag.canonical cluster.operation.flag)).writtenCount
        cluster.operation.arguments := by
  obtain ⟨⟨flag, settled⟩, settles, rfl, count, -⟩ :=
    Operation.exists_isWrittenAs isWhole.isAllowed isWhole.plain
  exact ⟨settled, settles, count⟩

/-- The effects of whole clusters settle as operations whose words leak if the effects expose a
flag, and are sound otherwise. -/
theorem exists_operations_of_isWhole {clusters : List Cluster}
    (areWhole : ∀ cluster ∈ clusters, cluster.IsWhole) :
    ∃ operations, List.Forall₂ SettlesAs (clusters.flatMap effects) operations ∧
      ∀ scopeOpen,
        (Exposes scopeOpen (clusters.flatMap effects) ∧
            Leak (Operation.allWords id scopeOpen operations)) ∨
          (¬Exposes scopeOpen (clusters.flatMap effects) ∧
            AreSound (Operation.allWords id scopeOpen operations)) := by
  induction clusters with
  | nil => exact ⟨[], .nil, fun _ => .inr ⟨id, areSound_nil⟩⟩
  | cons cluster clusters ih =>
      have isWhole := areWhole cluster (by simp)
      have others : ∀ other ∈ clusters, other.IsWhole := fun other member =>
        areWhole other (List.mem_cons_of_mem _ member)
      obtain ⟨operations, settle, shows⟩ := ih others
      obtain ⟨settled, settles, written⟩ := isWhole.exists_settlesAs
      have named := Operation.ofCanonical_effect_flag isWhole.isOrdinary.named
      refine ⟨⟨cluster.operation.flag, settled⟩ :: (cluster.hidden ++ operations), ?_,
        fun scopeOpen => ?_⟩
      · rw [List.flatMap_cons, effects, List.cons_append]
        refine .cons settles (List.rel_append ?_ settle)
        rw [List.forall₂_map_left_iff, List.forall₂_same]
        exact fun operation member => (isWhole.areHidden operation member).settlesAs
      · rw [List.flatMap_cons, isWhole.exposes_iff scopeOpen (not_isForbidden_head? others),
          settles.isComplete_iff named isWhole.isAllowed, Operation.allWords,
          Operation.allWords_hidden isWhole.areHidden, ← List.append_assoc,
            settles.alike.scopeAfter]
        rcases isWhole.leak_or_areSound written scopeOpen with
          ⟨complete, some, leak⟩ | ⟨neither, sound⟩
        · exact .inl ⟨.inl ⟨complete, some⟩, leak.append _⟩
        · rcases shows
              (Operation.effect ⟨cluster.operation.flag, settled⟩ |>.scopeAfter scopeOpen) with
            ⟨exposes, leak⟩ | ⟨none, soundRest⟩
          · exact .inl ⟨.inr exposes, sound.append_leak leak⟩
          · exact .inr ⟨fun either => either.elim neither none, sound.append soundRest⟩

end Cluster

namespace Effect

/-- Effects that settle are written as a text that carries the words of their operations. -/
theorem exists_carries_of_settlesAs {effects : List Effect} {operations : List Operation}
    (settle : List.Forall₂ SettlesAs effects operations) (some : effects ≠ []) :
    ∃ text, toCommand effects = .ok text ∧ (∃ c ∈ text.head?, c = '-' ∨ c = '+') ∧
      Literal.Carries text (Operation.allWords id false operations) ∧
      Operation.allWords id false operations ≠ [] := by
  obtain ⟨flag, others, formWords, isFlag⟩ : ∃ flag others,
      Operation.allWords Literal.quote false operations = flag :: others ∧ Token.isFlag flag := by
    cases settle with
    | nil => exact absurd rfl some
    | @cons _ operation _ operations settles _ =>
        obtain ⟨flag, others, words, isFlag⟩ :=
          Operation.exists_cons_scopedWords settles.settled Literal.quote false
        exact ⟨flag, _, by rw [Operation.allWords, words, List.cons_append], isFlag⟩
  have reads := Operation.reads_allWords (areSettled settle) false
  refine ⟨_, Operation.toCommand_eq settle, ?_, Literal.carries_unwords reads.1 reads.2, ?_⟩
  · rw [formWords, Text.head?_unwords_cons (Operation.ne_nil_of_isFlag isFlag)]
    exact Token.exists_head?_of_isFlag isFlag
  · intro none
    have nothing := reads.1
    rw [none, formWords] at nothing
    cases nothing

/-- The effects of calls are written as a text whose words leak if the effects expose a flag, and
are sound otherwise. -/
theorem exists_carries_of_calls {calls : List Operation}
    (areCalls : ∀ call ∈ calls, call.IsCall) (some : calls ≠ []) :
    let effects := ofTokens (calls.flatMap (Operation.words id))
    effects ≠ [] ∧ ∃ text words, toCommand effects = .ok text ∧
      (∃ c ∈ text.head?, c = '-' ∨ c = '+') ∧
      Literal.Carries text words ∧ words ≠ [] ∧
      ((Exposes false effects ∧ Leak words) ∨
          (¬Exposes false effects ∧ AreSound words)) := by
  intro effects
  obtain ⟨clusters, areWhole, reads⟩ := exists_clusters areCalls
  have effects_ne : effects ≠ [] := by
    obtain ⟨call, others, rfl⟩ := List.exists_cons_of_ne_nil some
    have isFlag :=
      (Flag.isOrdinary_of_isAllowed (areCalls call (by simp)).isAllowed).writable.isFlag
    rw [show effects = ofTokens _ from rfl, List.flatMap_cons, Operation.words,
      List.cons_append, ofTokens, if_pos isFlag]
    simp
  obtain ⟨operations, settle, shows⟩ := Cluster.exists_operations_of_isWhole areWhole
  rw [← reads] at settle shows
  obtain ⟨text, written, start, carries, words_ne⟩ :=
    exists_carries_of_settlesAs settle effects_ne
  exact ⟨effects_ne, text, _, written, start, carries, words_ne, shows false⟩

end Effect

end Retouch
