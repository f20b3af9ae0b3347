import Mathlib.Algebra.Group.Nat.Defs
import Mathlib.Data.List.Basic
import Retouch.Proofs.Stack.History

/-!
# Updates that cannot be written

An update gives its entry the new effects first and writes their command then. If a value of an
effect has no command text, the update fails with the new effects in place: all that the entry keeps
is its old command text, which it does not render any more. As long as the entry is on, its stack
has no command, whatever other operations follow. So an update that fails leaves the stack as it was
exactly if it brings the effects that the entry had before.
-/

namespace Retouch

theorem exists_mapM_error_iff {α β ε : Type} (act : α → Except ε β) (list : List α) :
    (∃ error, list.mapM act = .error error) ↔
      ∃ element ∈ list, ∃ error, act element = .error error := by
  induction list with
  | nil => simp [pure, Except.pure]
  | cons first rest ih =>
      rw [List.exists_mem_cons_iff, ← ih, List.mapM_cons]
      rcases done : act first with error | value
      · simp [bind, Except.bind]
      · rcases more : rest.mapM act with error | values <;>
          simp [bind, Except.bind, pure, Except.pure]

namespace EditStack

/-! ## Stacks without a command -/

theorem exists_command_error_iff (stack : EditStack) :
    (∃ error, stack.command = .error error) ↔
      ∃ entry ∈ stack.entries, entry.enabled ∧ ∃ error, entry.render = .error error := by
  have parts : (∃ error, stack.command = .error error) ↔
      ∃ error, (stack.entries.filter (·.enabled)).mapM Entry.render = .error error := by
    rw [command]
    rcases rendered : (stack.entries.filter (·.enabled)).mapM Entry.render with error | texts <;>
      simp [rendered, bind, Except.bind, pure, Except.pure]
  rw [parts, exists_mapM_error_iff]
  simp [and_assoc]

/-- Entries that are off have no part in the command. -/
theorem command_congr {stack other : EditStack}
    (same : stack.entries.filter (·.enabled) = other.entries.filter (·.enabled)) :
    stack.command = other.command := by
  rw [command, command, same]

end EditStack

theorem Entry.render_of_unwritten (entry : Entry) {effects : List Effect} {error : RangeError}
    (unwritten : Effect.toCommand effects = .error error) :
    { entry with effects }.render = .error error := by
  cases effects with
  | nil => simp [Effect.toCommand, Effect.renderParts, Except.map] at unwritten
  | cons effect effects => exact unwritten

/-! ## Entries that are spared -/

/-- The operations that leave the entry of an id on its stack and as it is, whatever the stack. -/
def StackOperation.Spares (id : Int) : StackOperation → Prop
  | .push _ _ _ | .move _ _ | .get _ => True
  | .remove other | .toggle other | .update other _ | .setRaw other _ => other ≠ id
  | .edit other _ _ _ _ => other ≠ id
  | .pop | .clear => False

namespace EditStack

variable {stack : EditStack} {entry : Entry}

theorem mem_modify_of_ne {id : Int} (other : id ≠ entry.id) (member : entry ∈ stack.entries)
    (change : Entry → Entry) : entry ∈ (stack.modify id change).entries := by
  rcases stack with ⟨entries⟩
  simp only [modify] at member ⊢
  induction entries with
  | nil => simp at member
  | cons first rest ih =>
      rw [modifyEntry]
      split
      · next here =>
          have inRest : entry ∈ rest := by
            rcases List.mem_cons.mp member with rfl | inRest
            · exact absurd here.symm other
            · exact inRest
          exact List.mem_cons_of_mem _ inRest
      · rcases List.mem_cons.mp member with rfl | inRest
        · exact List.mem_cons_self
        · exact List.mem_cons_of_mem _ (ih inRest)

theorem perm_of_move? {after : EditStack} {id offset : Int}
    (moved : stack.move? id offset = some after) :
    after.entries.Perm stack.entries := by
  unfold move? at moved
  split at moved
  · simp at moved
  · next position _ =>
      dsimp only at moved
      split at moved
      · split at moved
        · next entry neighbour isEntry isNeighbour =>
            rcases List.getElem?_eq_some_iff.mp isEntry with ⟨inside, rfl⟩
            rcases List.getElem?_eq_some_iff.mp isNeighbour with ⟨insideToo, rfl⟩
            rw [← Option.some.inj moved]
            exact List.set_set_perm inside insideToo
        · simp at moved
      · simp at moved

theorem mem_updateEntry {id : Int} (other : id ≠ entry.id) (member : entry ∈ stack.entries)
    (supply : IdSupply) (effects : List Effect) (form : Entry → StackOperation.Outcome) :
    entry ∈ (stack.updateEntry supply id effects form).2.1.entries := by
  unfold updateEntry
  split
  · exact member
  · rcases written : Effect.toCommand effects with error | command <;>
      simp only [update, written] <;>
      exact mem_modify_of_ne other member _

theorem mem_apply {operation : StackOperation} (spared : operation.Spares entry.id)
    (member : entry ∈ stack.entries) (supply : IdSupply) :
    entry ∈ (stack.apply supply operation).2.1.entries := by
  cases operation with
  | push label command provenance =>
      rw [apply]
      rcases Provenance.ofName? provenance with _ | known
      · exact member
      · exact List.mem_append_left _ member
  | remove id =>
      simp only [apply, remove]
      exact (List.mem_eraseP_of_neg (by simpa using Ne.symm spared)).mpr member
  | toggle id => exact mem_modify_of_ne spared member _
  | move id offset =>
      rw [apply]
      rcases moved : stack.move? id offset with _ | after
      · exact member
      · exact (perm_of_move? moved).mem_iff.mpr member
  | get id => exact member
  | pop => exact spared.elim
  | clear => exact spared.elim
  | update id effects => exact mem_updateEntry spared member supply effects _
  | edit id effect slot value commits =>
      rw [apply, editEntry]
      rcases (stack.find? id).bind (·.effectsWithValue? effect slot value) with
        _ | ⟨problem | effects⟩
      · exact member
      · exact member
      · cases commits with
        | true => exact mem_updateEntry spared member supply effects _
        | false => exact mem_modify_of_ne spared member _
  | setRaw id command => exact mem_modify_of_ne spared member _

end EditStack

namespace Workspace

open StackOperation

variable {workspace : Workspace} {name : Text} {entry : Entry}

theorem mem_run (member : entry ∈ (workspace.stack name).entries)
    (steps : List (Text × StackOperation))
    (spared : ∀ step ∈ steps, step.1 = name → step.2.Spares entry.id) :
    entry ∈ ((workspace.run steps).2.stack name).entries := by
  induction steps generalizing workspace with
  | nil => exact member
  | cons step rest ih =>
      rcases step with ⟨place, operation⟩
      have later : ∀ step ∈ rest, step.1 = name → step.2.Spares entry.id := fun step inRest =>
        spared step (List.mem_cons_of_mem _ inRest)
      have stays : entry ∈ ((workspace.apply place operation).2.stack name).entries := by
        by_cases here : name = place
        · subst here
          rw [apply_stack_self]
          exact EditStack.mem_apply (spared (name, operation) (by simp) rfl) member workspace.supply
        · rwa [apply_stack_of_ne workspace place operation here]
      exact ih stays later

/-! ## What a failed update leaves behind -/

/-- What the stack of a name is left with by an update of one of its entries that cannot be
written. -/
structure LeavesUnwritten (before after : Workspace) (name : Text) (entry : Entry)
    (effects : List Effect) :
    Prop where
  /-- Of the first entry with the id only the effects change, and of the others nothing. -/
  entries : ∃ front back, (before.stack name).entries = front ++ entry :: back ∧
    (∀ other ∈ front, other.id ≠ entry.id) ∧
      (after.stack name).entries = front ++ { entry with effects } :: back
  /-- The stack and its command stay as they were exactly if the effects are not new. -/
  unchanged_iff : ((after.stack name).entries = (before.stack name).entries ∧
    (after.stack name).command = (before.stack name).command) ↔ entry.effects = effects
  /-- The command stays if the entry is off. -/
  off : entry.enabled = false → (after.stack name).command = (before.stack name).command
  /-- If the entry is on, there is no command, however many operations follow that spare the
  entry. -/
  on : entry.enabled = true → ∀ steps : List (Text × StackOperation),
    (∀ step ∈ steps, step.1 = name → step.2.Spares entry.id) →
      ∃ error, ((after.run steps).2.stack name).command = .error error

/-- An update that fails has found its entry and cannot be written. -/
theorem exists_of_update_error {id : Int} {effects : List Effect} {problem : Problem}
    (failed : (workspace.apply name (.update id effects)).1 = .error problem) :
    ∃ front entry back error, (workspace.stack name).entries = front ++ entry :: back ∧
      entry.id = id ∧
      (∀ other ∈ front, other.id ≠ entry.id) ∧ Effect.toCommand effects = .error error ∧
        ((workspace.apply name (.update id effects)).2.stack name).entries =
          front ++ { entry with effects } :: back := by
  rw [apply_outcome, EditStack.apply] at failed
  rw [apply_stack_self, EditStack.apply]
  rcases stack : workspace.stack name with ⟨entries⟩
  rw [stack] at failed
  by_cases absent : ∀ entry ∈ entries, entry.id ≠ id
  · have none : EditStack.find? ⟨entries⟩ id = none := EditStack.find?_eq_none_of_absent absent
    simp [EditStack.updateEntry, none] at failed
  rcases EditStack.exists_split absent with ⟨front, entry, back, rfl, rfl, others⟩
  rcases written : Effect.toCommand effects with error | command
  · refine ⟨front, entry, back, error, rfl, rfl, others, rfl, ?_⟩
    simp only [EditStack.updateEntry_split others, written]
  · simp [EditStack.updateEntry, EditStack.find?_split others, EditStack.update, written] at failed

/-- An update that fails has stored the new effects of its entry, so that it leaves its stack as it
was exactly if they are the old ones; an entry that is on then keeps its stack from having a
command. -/
theorem apply_update_of_error {id : Int} {effects : List Effect} {problem : Problem}
    (failed : (workspace.apply name (.update id effects)).1 = .error problem) :
    ∃ entry, entry.id = id ∧
      LeavesUnwritten workspace (workspace.apply name (.update id effects)).2 name entry
        effects := by
  rcases exists_of_update_error failed with
    ⟨front, entry, back, error, was, named, others, unwritten, becomes⟩
  refine ⟨entry, named, ⟨front, back, was, others, becomes⟩, ?_, ?_, ?_⟩
  · rw [becomes, was]
    constructor
    · rintro ⟨same, -⟩
      have sameEntry : { entry with effects } = entry :=
        (List.cons.inj (List.append_cancel_left same)).1
      exact (congrArg Entry.effects sameEntry).symm
    · rintro rfl
      refine ⟨rfl, EditStack.command_congr ?_⟩
      rw [becomes, was]
  · intro isOff
    apply EditStack.command_congr
    rw [becomes, was]
    simp [isOff]
  · intro isOn steps spared
    have member : { entry with effects } ∈
        ((workspace.apply name (.update id effects)).2.stack name).entries := by simp [becomes]
    apply (EditStack.exists_command_error_iff _).mpr
    exact ⟨_, mem_run member steps spared, isOn, error, entry.render_of_unwritten unwritten⟩

/-- The value 10 ^ 309 is beyond all binary64 numbers. -/
theorem apply_update_of_error_blur :
    let workspace := ((starting 1).run [("s", .push "Blur" "-blur 3" "manual")]).2
    let effects : List Effect :=
      [⟨"Blur", "blur", [.number "Blur" (.int (10 ^ 309 : Nat)) 0 20 1 ""]⟩]
    (workspace.apply "s" (.update 1 effects)).1 = .error (.range .integerTooLarge) ∧
      ∃ entry, entry.id = 1 ∧
        LeavesUnwritten workspace (workspace.apply "s" (.update 1 effects)).2 "s" entry
            effects := by
  intro workspace effects
  have failed : (workspace.apply "s" (.update 1 effects)).1 = .error (.range .integerTooLarge) := by
    decide +kernel
  exact ⟨failed, apply_update_of_error failed⟩

/-- The update fails, but the entry is not what it was, and the stack has lost its command. -/
theorem not_unchanged_apply_update :
    let workspace := ((starting 1).run [("s", .push "Blur" "-blur 3" "manual")]).2
    let effects : List Effect :=
      [⟨"Blur", "blur", [.number "Blur" (.int (10 ^ 309 : Nat)) 0 20 1 ""]⟩]
    ¬((workspace.apply "s" (.update 1 effects)).1 = .error (.range .integerTooLarge) →
      ((workspace.apply "s" (.update 1 effects)).2.stack "s").entries =
        (workspace.stack "s").entries ∧
        ((workspace.apply "s" (.update 1 effects)).2.stack "s").command =
            (workspace.stack "s").command) := by
  decide +kernel

end Workspace

end Retouch
