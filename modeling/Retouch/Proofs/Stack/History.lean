import Retouch.Proofs.Stack.Change

/-!
# The history of a workspace

However operations on the stacks of a workspace follow each other, no id is handed out twice: the
ids of the entries that were ever pushed grow with every push, on whichever stack it is, and every
entry of a stack is one that was pushed on this stack, with its id, its label and its provenance.
-/

namespace Retouch

/-- What stays of an entry as long as it lives: its id, its label and its provenance. -/
def Entry.origin (entry : Entry) : Int × Text × Provenance :=
  (entry.id, entry.label, entry.provenance)

namespace StackOperation

/-- The entry that an operation with this outcome has made. -/
def made? : StackOperation → Except Problem Outcome → Option Entry
  | .push _ _ _, .ok (.detailed entry) => some entry
  | _, _ => none

end StackOperation

namespace Workspace

/-- A workspace without stacks whose supply begins with an id. -/
def starting (first : Int) : Workspace :=
  { supply := ⟨first⟩ }

/-- What operations, each addressed to a stack by its name, lead to: the entries that they make,
with the names of the stacks on which they are pushed, and the workspace after them. -/
def run (workspace : Workspace) : List (Text × StackOperation) →
    List (Text × Entry) × Workspace
  | [] => ([], workspace)
  | (name, operation) :: rest =>
      let (outcome, after) := workspace.apply name operation
      let (made, final) := after.run rest
      (((operation.made? outcome).map (name, ·)).toList ++ made, final)

/-- How the entries made so far, in the order in which they were made, account for a workspace. -/
structure History (first : Int) (made : List (Text × Entry)) (workspace : Workspace) : Prop where
  /-- Ids grow from one entry to the next. -/
  increasing : (made.map fun pushed => pushed.2.id).Pairwise (· < ·)
  /-- The supply is past all ids that it has handed out. -/
  bounded : ∀ pushed ∈ made, first ≤ pushed.2.id ∧ pushed.2.id < workspace.supply.next
  /-- The supply has handed out one id for each entry. -/
  counted : workspace.supply.next = first + made.length
  /-- The entries of a stack have different ids. -/
  distinct : ∀ name, ((workspace.stack name).entries.map Entry.id).Nodup
  /-- The entries of a stack were pushed on it. -/
  pushed : ∀ name, ∀ entry ∈ (workspace.stack name).entries,
    ∃ origin, (name, origin) ∈ made ∧ entry.origin = origin.origin

/-- How a workspace responds to an operation on the stack of a name. -/
structure Responds (workspace : Workspace) (name : Text) (operation : StackOperation) : Prop where
  /-- A refusal leaves every stack and the supply as they were. -/
  refused : operation.IsRefused (workspace.stack name).entries →
    (workspace.apply name operation).1 ∈ operation.refusals ∧
      (workspace.apply name operation).2.supply = workspace.supply ∧
        ∀ other, (workspace.apply name operation).2.stack other = workspace.stack other
  /-- Otherwise the stack changes as the operation says. -/
  changed : ¬operation.IsRefused (workspace.stack name).entries →
    operation.Change workspace.supply.next (workspace.stack name).entries
        ((workspace.apply name operation).2.stack name).entries ∧
      (workspace.apply name operation).2.supply.next = workspace.supply.next + operation.idsTaken
  /-- All other stacks stay as they were. -/
  others : ∀ other ≠ name, (workspace.apply name operation).2.stack other =
    workspace.stack other

section Apply

variable (workspace : Workspace) (name : Text) (operation : StackOperation)

theorem apply_outcome : (workspace.apply name operation).1 =
    ((workspace.stack name).apply workspace.supply operation).1 := rfl

theorem apply_supply : (workspace.apply name operation).2.supply =
    ((workspace.stack name).apply workspace.supply operation).2.2 := rfl

theorem apply_stack_self : (workspace.apply name operation).2.stack name =
    ((workspace.stack name).apply workspace.supply operation).2.1 := by
  simp [apply, stack]

theorem apply_stack_of_ne {other : Text} (different : other ≠ name) :
    (workspace.apply name operation).2.stack other = workspace.stack other := by
  simp [apply, stack, Record.get?_set_of_ne different]

/-- A workspace whose stacks have entries with different ids responds to every operation. -/
theorem responds (distinct : ((workspace.stack name).entries.map Entry.id).Nodup) :
    Responds workspace name operation where
  refused isRefused := by
    rcases EditStack.apply_of_isRefused distinct workspace.supply isRefused with ⟨outcome, same⟩
    refine ⟨outcome, ?_, ?_⟩
    · rw [apply_supply, same]
    · intro other
      by_cases here : other = name
      · rw [here, apply_stack_self, same]
      · exact apply_stack_of_ne workspace name operation here
  changed accepted := by
    rw [apply_stack_self, apply_supply]
    exact EditStack.apply_change distinct workspace.supply accepted
  others other different := apply_stack_of_ne workspace name operation different

end Apply

end Workspace

namespace StackOperation

theorem made?_refusal {operation : StackOperation} {outcome : Except Problem Outcome}
    (refusal : outcome ∈ operation.refusals) : operation.made? outcome = none := by
  cases operation <;> simp_all [refusals, made?]

/-- Every operation but a push keeps the origins of the entries that it keeps. -/
theorem Change.origins {next : Int} {operation : StackOperation} {before after : List Entry}
    (change : operation.Change next before after) (takesNone : operation.idsTaken = 0) :
    ∃ gone, ((after ++ gone).map Entry.origin).Perm (before.map Entry.origin) := by
  cases change with
  | push => simp [idsTaken] at takesNone
  | remove front entry back =>
      refine ⟨[entry], List.Perm.map _ ?_⟩
      rw [List.append_assoc]
      exact List.Perm.append_left front (List.perm_append_singleton entry back)
  | pop front entry => exact ⟨[entry], .refl _⟩
  | clear => exact ⟨before, .refl _⟩
  | moveBack front neighbour entry back =>
      refine ⟨[], List.Perm.map _ ?_⟩
      rw [List.append_nil]
      exact List.Perm.append_left front (.swap neighbour entry back)
  | moveOn front entry neighbour back =>
      refine ⟨[], List.Perm.map _ ?_⟩
      rw [List.append_nil]
      exact List.Perm.append_left front (.swap entry neighbour back)
  | _ => exact ⟨[], by simp [Entry.origin]⟩

theorem made?_of_idsTaken {operation : StackOperation} (takesNone : operation.idsTaken = 0)
    (outcome : Except Problem Outcome) : operation.made? outcome = none := by
  cases operation <;> simp_all [idsTaken, made?]

end StackOperation

open StackOperation

/-- An operation makes one entry, with the next id, or it makes none and only keeps or drops
entries. -/
theorem EditStack.made?_apply {stack : EditStack} (distinct : (stack.entries.map Entry.id).Nodup)
    (supply : IdSupply) (operation : StackOperation) :
    (∃ new, operation.made? (stack.apply supply operation).1 = some new ∧
        new.id = supply.next ∧
      (stack.apply supply operation).2 = (⟨stack.entries ++ [new]⟩, ⟨supply.next + 1⟩)) ∨
    operation.made? (stack.apply supply operation).1 = none ∧
      (stack.apply supply operation).2.2 = supply ∧
      ∃ gone, (((stack.apply supply operation).2.1.entries ++ gone).map Entry.origin).Perm
        (stack.entries.map Entry.origin) := by
  by_cases refused : operation.IsRefused stack.entries
  · rcases apply_of_isRefused distinct supply refused with ⟨refusal, same⟩
    refine .inr ⟨made?_refusal refusal, by rw [same], [], by rw [same, List.append_nil]⟩
  rcases apply_change distinct supply refused with ⟨change, taken⟩
  by_cases takesNone : operation.idsTaken = 0
  · refine .inr ⟨made?_of_idsTaken takesNone _, ?_, change.origins takesNone⟩
    rw [takesNone, Int.add_zero] at taken
    exact congrArg IdSupply.mk taken
  · left
    cases operation with
    | push label command provenance =>
        rcases known : Provenance.ofName? provenance with _ | provenance
        · exact (refused (Provenance.ofName?_eq_none_iff.mp known)).elim
        · simp [apply, known, push, made?]
    | _ => simp [idsTaken] at takesNone

namespace Workspace

variable {first : Int} {made : List (Text × Entry)} {workspace : Workspace}

theorem history_starting (first : Int) : History first [] (starting first) where
  increasing := .nil
  bounded := by simp
  counted := (Int.add_zero first).symm
  distinct name := by simp [starting, stack]
  pushed name := by simp [starting, stack]

namespace History

theorem lt_next (history : History first made workspace) {name : Text} {entry : Entry}
    (member : entry ∈ (workspace.stack name).entries) : entry.id < workspace.supply.next := by
  rcases history.pushed name entry member with ⟨origin, inMade, same⟩
  rw [show entry.id = origin.id from congrArg Prod.fst same]
  exact (history.bounded _ inMade).2

/-- An operation that makes an entry extends the history by it. -/
theorem push (history : History first made workspace) {name : Text} {new : Entry}
    {after : Workspace} (fresh : new.id = workspace.supply.next)
    (supply : after.supply.next = workspace.supply.next + 1)
    (here : after.stack name = ⟨(workspace.stack name).entries ++ [new]⟩)
    (others : ∀ other ≠ name, after.stack other = workspace.stack other) :
    History first (made ++ [(name, new)]) after where
  increasing := by
    rw [List.map_append, List.pairwise_append]
    refine ⟨history.increasing, List.pairwise_singleton _ _, ?_⟩
    intro id member newId isNew
    rcases List.mem_map.mp member with ⟨pushed, inMade, rfl⟩
    simp only [List.map_cons, List.map_nil, List.mem_singleton] at isNew
    rw [isNew, fresh]
    exact (history.bounded pushed inMade).2
  bounded := by
    intro pushed member
    rw [supply]
    rcases List.mem_append.mp member with inMade | isNew
    · have old := history.bounded pushed inMade
      exact ⟨old.1, by omega⟩
    · have counted := history.counted
      rw [List.mem_singleton.mp isNew, fresh]
      exact ⟨by omega, by omega⟩
  counted := by
    rw [supply, history.counted, List.length_append, List.length_singleton]
    omega
  distinct other := by
    by_cases same : other = name
    · rw [same, here, List.map_append, List.nodup_append]
      refine ⟨history.distinct name, by simp, ?_⟩
      intro id member newId isNew
      rcases List.mem_map.mp member with ⟨entry, inStack, rfl⟩
      simp only [List.map_cons, List.map_nil, List.mem_singleton] at isNew
      rw [isNew, fresh]
      exact Int.ne_of_lt (history.lt_next inStack)
    · rw [others other same]
      exact history.distinct other
  pushed other entry member := by
    by_cases same : other = name
    · rw [same, here, List.mem_append, List.mem_singleton] at member
      rcases member with old | rfl
      · rcases history.pushed name entry old with ⟨origin, inMade, stems⟩
        exact ⟨origin, by simp [same, inMade], stems⟩
      · exact ⟨entry, by simp [same], rfl⟩
    · rw [others other same] at member
      rcases history.pushed other entry member with ⟨origin, inMade, stems⟩
      exact ⟨origin, by simp [inMade], stems⟩

theorem keep (history : History first made workspace) {name : Text} {after : Workspace}
    {gone : List Entry} (supply : after.supply = workspace.supply)
    (here : (((after.stack name).entries ++ gone).map Entry.origin).Perm
      ((workspace.stack name).entries.map Entry.origin))
    (others : ∀ other ≠ name, after.stack other = workspace.stack other) :
    History first made after where
  increasing := history.increasing
  bounded := by simpa only [supply] using history.bounded
  counted := by simpa only [supply] using history.counted
  distinct other := by
    by_cases same : other = name
    · have ids : (((after.stack name).entries ++ gone).map Entry.id).Perm
          ((workspace.stack name).entries.map Entry.id) := by
        have firsts := here.map Prod.fst
        rw [List.map_map, List.map_map] at firsts
        exact firsts
      have distinct := ids.nodup_iff.mpr (history.distinct name)
      rw [List.map_append] at distinct
      exact same ▸ (List.nodup_append.mp distinct).1
    · rw [others other same]
      exact history.distinct other
  pushed other entry member := by
    by_cases same : other = name
    · subst same
      have kept : entry.origin ∈ (workspace.stack other).entries.map Entry.origin :=
        here.subset (List.mem_map_of_mem (List.mem_append_left gone member))
      rcases List.mem_map.mp kept with ⟨old, inStack, origin⟩
      rw [← origin]
      exact history.pushed other old inStack
    · rw [others other same] at member
      exact history.pushed other entry member

/-- Every operation keeps the history. -/
theorem apply (history : History first made workspace) (name : Text) (operation : StackOperation) :
    History first
      (made ++ ((operation.made? (workspace.apply name operation).1).map (name, ·)).toList)
      (workspace.apply name operation).2 := by
  have others : ∀ other ≠ name, (workspace.apply name operation).2.stack other =
      workspace.stack other :=
    fun other => apply_stack_of_ne workspace name operation
  rw [apply_outcome]
  rcases EditStack.made?_apply (history.distinct name) workspace.supply operation with
    ⟨new, isMade, fresh, after⟩ | ⟨isNone, supply, gone, kept⟩
  · rw [isMade]
    refine history.push fresh ?_ ?_ others
    · rw [apply_supply, after]
    · rw [apply_stack_self, after]
  · rw [isNone, Option.map_none, Option.toList_none, List.append_nil]
    rw [← apply_stack_self] at kept
    exact history.keep supply kept others

/-- Every run of operations continues the history. -/
theorem run (history : History first made workspace) (steps : List (Text × StackOperation)) :
    History first (made ++ (workspace.run steps).1) (workspace.run steps).2 := by
  induction steps generalizing made workspace with
  | nil => simpa [Workspace.run] using history
  | cons step rest ih =>
      rcases step with ⟨name, operation⟩
      simpa [Workspace.run] using ih (history.apply name operation)

end History

/-- Whatever operations the stacks of a new workspace have gone through: no two entries that were
ever made share an id, ids grow in the order in which the entries were made, every stack has its own
entries only, and every further operation is refused without a trace or changes nothing but what it
names. -/
theorem run_history (first : Int) (steps : List (Text × StackOperation)) :
    History first ((starting first).run steps).1 ((starting first).run steps).2 ∧
      ∀ name operation, Responds ((starting first).run steps).2 name operation := by
  have history := (history_starting first).run steps
  rw [List.nil_append] at history
  refine ⟨history, ?_⟩
  intro name operation
  exact responds _ name operation (history.distinct name)

/-- A refused push takes no id: the stacks `a` and `b` share the ids 7 and 8. -/
example : ((starting 7).run [("a", .push "one" "" "manual"), ("b", .push "two" "" "unknown"),
    ("a", .pop), ("b", .push "three" "" "preset")]).1.map (fun pushed => (pushed.1, pushed.2.id)) =
    [(("a" : Text), 7), (("b" : Text), 8)] := by
  decide +kernel

end Workspace

end Retouch
