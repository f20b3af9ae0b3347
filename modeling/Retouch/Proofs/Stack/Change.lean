import Retouch.Stack.Workspace

/-!
# What an operation changes

An operation on a stack is either refused, and then the stack and the supply of ids stay as they
are, or it changes the one entry that it names: a switch or an edit leaves every other entry as it
was, a move exchanges the entry with its neighbour, a removal closes the gap. Only a push takes an
id.

A refusal is said in terms of the entries alone, so that it can be told apart from an operation that
happens to change nothing.
-/

namespace Retouch

namespace StackOperation

/-- The operations that a stack with these entries refuses. -/
def IsRefused (entries : List Entry) : StackOperation → Prop
  | .push _ _ provenance => ∀ known : Provenance, known.name ≠ provenance
  | .remove id | .toggle id | .get id | .update id _ | .setRaw id _ =>
      ∀ entry ∈ entries, entry.id ≠ id
  | .move id offset =>
      (∀ entry ∈ entries, entry.id ≠ id) ∨ offset ≠ -1 ∧ offset ≠ 1 ∨
        offset = -1 ∧ entries.head?.map Entry.id = some id ∨
        offset = 1 ∧ entries.getLast?.map Entry.id = some id
  | .pop => entries = []
  | .clear => False
  | .edit id effect slot value _ =>
      ∀ entry ∈ entries, entry.id = id →
        ∀ effects, entry.effectsWithValue? effect slot value ≠ some (.ok effects)

/-- What a refused operation may give back. -/
def refusals : StackOperation → List (Except Problem Outcome)
  | .push _ _ provenance => [.error (.unknownProvenance provenance)]
  | .remove _ | .move _ _ => [.ok (.done false)]
  | .edit _ _ _ value _ => [.ok .nothing, .error (.notANumber value)]
  | _ => [.ok .nothing]

/-- How many ids an operation takes that is not refused. -/
def idsTaken : StackOperation → Int
  | .push _ _ _ => 1
  | _ => 0

/-- What an operation that is not refused makes of the entries of its stack, if `next` is the next
id. -/
inductive Change (next : Int) : StackOperation → List Entry → List Entry → Prop
  | push (entries : List Entry) (label command : Text) (known : Provenance) :
      Change next (.push label command known.name) entries
        (entries ++
          [{ id := next, label, command, enabled := true,
             effects := Entry.editableEffects command, provenance := known }])
  | remove (front : List Entry) (entry : Entry) (back : List Entry) :
      Change next (.remove entry.id) (front ++ entry :: back) (front ++ back)
  | toggle (front : List Entry) (entry : Entry) (back : List Entry) :
      Change next (.toggle entry.id) (front ++ entry :: back)
        (front ++ { entry with enabled := !entry.enabled } :: back)
  | moveBack (front : List Entry) (neighbour entry : Entry) (back : List Entry) :
      Change next (.move entry.id (-1)) (front ++ neighbour :: entry :: back)
        (front ++ entry :: neighbour :: back)
  | moveOn (front : List Entry) (entry neighbour : Entry) (back : List Entry) :
      Change next (.move entry.id 1) (front ++ entry :: neighbour :: back)
        (front ++ neighbour :: entry :: back)
  | get (front : List Entry) (entry : Entry) (back : List Entry) :
      Change next (.get entry.id) (front ++ entry :: back) (front ++ entry :: back)
  | pop (front : List Entry) (entry : Entry) : Change next .pop (front ++ [entry]) front
  | clear (entries : List Entry) : Change next .clear entries []
  | update (front : List Entry) (entry : Entry) (back : List Entry) {effects : List Effect}
      {command : Text}
      (written : Effect.toCommand effects = .ok command) :
      Change next (.update entry.id effects) (front ++ entry :: back)
        (front ++ { entry with effects, command } :: back)
  | updateUnwritten (front : List Entry) (entry : Entry) (back : List Entry) {effects : List Effect}
      {error : RangeError} (unwritten : Effect.toCommand effects = .error error) :
      Change next (.update entry.id effects) (front ++ entry :: back)
        (front ++ { entry with effects } :: back)
  | edit (front : List Entry) (entry : Entry) (back : List Entry) {effect slot : Int} {value : Text}
      {commits : Bool} {effects : List Effect}
      (valued : entry.effectsWithValue? effect slot value = some (.ok effects)) {command : Text}
      (follows : commits = true → Effect.toCommand effects = .ok command)
      (stays : commits = false → command = entry.command) :
      Change next (.edit entry.id effect slot value commits) (front ++ entry :: back)
        (front ++ { entry with effects, command } :: back)
  | editUnwritten (front : List Entry) (entry : Entry) (back : List Entry) {effect slot : Int}
      {value : Text}
      {effects : List Effect} (valued : entry.effectsWithValue? effect slot value =
        some (.ok effects))
      {error : RangeError} (unwritten : Effect.toCommand effects = .error error) :
      Change next (.edit entry.id effect slot value true) (front ++ entry :: back)
        (front ++ { entry with effects } :: back)
  | setRaw (front : List Entry) (entry : Entry) (back : List Entry) (command : Text) :
      Change next (.setRaw entry.id command) (front ++ entry :: back)
        (front ++ { entry with effects := [], command } :: back)

end StackOperation

namespace Provenance

theorem ofName?_eq_none_iff {name : Text} : ofName? name = none ↔
    ∀ known : Provenance, known.name ≠ name := by
  rw [ofName?, List.find?_eq_none]
  constructor
  · intro unknown known
    cases known <;> simpa using unknown _ (by simp)
  · intro unknown known _
    simpa using unknown known

theorem name_of_ofName? {name : Text} {known : Provenance} (found : ofName? name = some known) :
    known.name = name := by
  simpa using List.find?_some found

end Provenance

namespace EditStack

theorem exists_split {entries : List Entry} {id : Int}
    (present : ¬∀ entry ∈ entries, entry.id ≠ id) :
    ∃ front entry back, entries = front ++ entry :: back ∧ entry.id = id ∧
      ∀ other ∈ front, other.id ≠ id := by
  rcases found : entries.find? (·.id == id) with _ | entry
  · exact (present (by simpa using List.find?_eq_none.mp found)).elim
  · rcases List.find?_eq_some_iff_append.mp found with ⟨named, front, back, rfl, others⟩
    exact ⟨front, entry, back, rfl, by simpa using named, by simpa using others⟩

section Absent

variable {stack : EditStack} {id : Int} (absent : ∀ entry ∈ stack.entries, entry.id ≠ id)

include absent

theorem find?_eq_none_of_absent : stack.find? id = none := by
  simpa [find?] using absent

theorem position?_eq_none_of_absent : stack.position? id = none := by
  simpa [position?] using absent

theorem remove_of_absent : stack.remove id = stack := by
  rw [remove, List.eraseP_of_forall_not]
  simpa using absent

theorem modify_of_absent (change : Entry → Entry) : stack.modify id change = stack := by
  rcases stack with ⟨entries⟩
  simp only [modify, mk.injEq]
  induction entries with
  | nil => rfl
  | cons entry rest ih =>
      rw [modifyEntry, if_neg (absent entry (by simp))]
      rw [ih fun other member => absent other (List.mem_cons_of_mem _ member)]

end Absent

theorem others_of_nodup {front : List Entry} {entry : Entry} {back : List Entry}
    (distinct : ((front ++ entry :: back).map Entry.id).Nodup) :
    ∀ other ∈ front, other.id ≠ entry.id := by
  intro other member
  rw [List.map_append, List.nodup_append] at distinct
  exact distinct.2.2 other.id (List.mem_map_of_mem member) entry.id (by simp)

section Split

variable {front : List Entry} {entry : Entry} (others : ∀ other ∈ front, other.id ≠ entry.id)
  (back : List Entry)

include others

theorem find?_split : find? ⟨front ++ entry :: back⟩ entry.id = some entry := by
  refine List.find?_eq_some_iff_append.mpr ⟨by simp, front, back, rfl, ?_⟩
  simpa using others

theorem position?_split : position? ⟨front ++ entry :: back⟩ entry.id = some front.length := by
  have passed : front.findIdx? (·.id == entry.id) = none := by simpa using others
  simp [position?, List.findIdx?_append, passed, List.findIdx?_cons]

theorem remove_split : remove ⟨front ++ entry :: back⟩ entry.id = ⟨front ++ back⟩ := by
  rw [remove, List.eraseP_append_right _ (by simpa using others)]
  simp

theorem modify_split (change : Entry → Entry) :
    modify ⟨front ++ entry :: back⟩ entry.id change = ⟨front ++ change entry :: back⟩ := by
  simp only [modify, mk.injEq]
  induction front with
  | nil => simp [modifyEntry]
  | cons first front ih =>
      rw [List.cons_append, modifyEntry, if_neg (others first (by simp)),
        ih fun other member => others other (List.mem_cons_of_mem _ member), List.cons_append]

theorem move?_back {neighbour : Entry} (different : neighbour.id ≠ entry.id) :
    move? ⟨front ++ neighbour :: entry :: back⟩ entry.id (-1) =
      some ⟨front ++ entry :: neighbour :: back⟩ := by
  have passed : ∀ other ∈ front ++ [neighbour], other.id ≠ entry.id := by
    simpa [or_imp, forall_and] using ⟨others, different⟩
  have position : position? ⟨front ++ neighbour :: entry :: back⟩ entry.id =
      some (front.length + 1) := by
    simpa using position?_split passed back
  have target : (front.length : Int) + 1 + -1 = front.length := by omega
  simp [move?, position, target]

theorem move?_on (neighbour : Entry) :
    move? ⟨front ++ entry :: neighbour :: back⟩ entry.id 1 =
      some ⟨front ++ neighbour :: entry :: back⟩ := by
  have target : ((front.length : Int) + 1).toNat = front.length + 1 := by omega
  have inside : 0 ≤ (front.length : Int) + 1 := by omega
  simp [move?, position?_split others, inside]

end Split

end EditStack

theorem Entry.error_of_effectsWithValue? {entry : Entry} {effect slot : Int} {value : Text}
    {problem : StackOperation.Problem}
    (failed : entry.effectsWithValue? effect slot value = some (.error problem)) :
    problem = .notANumber value := by
  simp only [effectsWithValue?, Option.bind_eq_bind, Option.bind_eq_some_iff] at failed
  rcases failed with ⟨effectPosition, -, slotPosition, -, target, -, old, -, failed⟩
  split at failed
  · simpa using failed.symm
  · simp at failed

namespace EditStack

open StackOperation

theorem move?_eq_none {stack : EditStack} (distinct : (stack.entries.map Entry.id).Nodup)
    {id offset : Int}
    (refused : (StackOperation.move id offset).IsRefused stack.entries) :
    stack.move? id offset = none := by
  rcases stack with ⟨entries⟩
  rcases refused with absent | ⟨notBack, notOn⟩ | ⟨rfl, atHead⟩ | ⟨rfl, atLast⟩
  · simp [move?, position?_eq_none_of_absent absent]
  · rw [move?]
    split
    · rfl
    · simp [notBack, notOn]
  · rcases Option.map_eq_some_iff.mp atHead with ⟨entry, isHead, rfl⟩
    rcases List.head?_eq_some_iff.mp isHead with ⟨back, rfl⟩
    simp [move?, position?, List.findIdx?_cons]
  · rcases Option.map_eq_some_iff.mp atLast with ⟨entry, isLast, rfl⟩
    rcases List.getLast?_eq_some_iff.mp isLast with ⟨front, rfl⟩
    simp [move?, position?_split (others_of_nodup distinct)]

theorem exists_move? (next : Int) {entries : List Entry} {id offset : Int}
    (accepted : ¬(StackOperation.move id offset).IsRefused entries) :
    ∃ after, move? ⟨entries⟩ id offset = some after ∧
      (StackOperation.move id offset).Change next entries after.entries := by
  simp only [IsRefused, not_or] at accepted
  rcases accepted with ⟨present, sideways, notHead, notLast⟩
  rcases exists_split present with ⟨front, entry, back, rfl, rfl, others⟩
  rcases show offset = -1 ∨ offset = 1 by omega with rfl | rfl
  · rcases List.eq_nil_or_concat front with rfl | ⟨front, neighbour, rfl⟩
    · simp at notHead
    · have different : neighbour.id ≠ entry.id := others neighbour (by simp)
      have before : ∀ other ∈ front, other.id ≠ entry.id := by
        intro other member
        exact others other (by simp [member])
      refine ⟨⟨front ++ entry :: neighbour :: back⟩, ?_, ?_⟩
      · simpa using move?_back before back different
      · simpa using StackOperation.Change.moveBack front neighbour entry back
  · rcases back with _ | ⟨neighbour, back⟩
    · simp at notLast
    · exact ⟨⟨front ++ neighbour :: entry :: back⟩, move?_on others back neighbour,
        .moveOn front entry neighbour back⟩

/-- A refused operation changes neither the stack nor the supply. -/
theorem apply_of_isRefused {stack : EditStack} (distinct : (stack.entries.map Entry.id).Nodup)
    (supply : IdSupply) {operation : StackOperation} (refused : operation.IsRefused stack.entries) :
    (stack.apply supply operation).1 ∈ operation.refusals ∧
      (stack.apply supply operation).2 = (stack, supply) := by
  cases operation with
  | push label command provenance =>
      simp [apply, Provenance.ofName?_eq_none_iff.mpr refused, refusals]
  | remove id => simp [apply, find?_eq_none_of_absent refused, remove_of_absent refused, refusals]
  | toggle id =>
      simp [apply, find?_eq_none_of_absent refused, toggle, modify_of_absent refused, refusals]
  | move id offset => simp [apply, move?_eq_none distinct refused, refusals]
  | get id => simp [apply, present, find?_eq_none_of_absent refused, refusals]
  | pop =>
      have none : stack.pop? = none := by simp [pop?, show stack.entries = [] from refused]
      simp [apply, none, refusals]
  | clear => exact refused.elim
  | update id effects => simp [apply, updateEntry, find?_eq_none_of_absent refused, refusals]
  | edit id effect slot value commits =>
      rcases found : (stack.find? id).bind (·.effectsWithValue? effect slot value) with
        _ | ⟨problem | effects⟩
      · simp [apply, editEntry, found, refusals]
      · rcases Option.bind_eq_some_iff.mp found with ⟨entry, -, failed⟩
        simp [apply, editEntry, found, refusals, Entry.error_of_effectsWithValue? failed]
      · rcases Option.bind_eq_some_iff.mp found with ⟨entry, isEntry, valued⟩
        have named : entry.id = id := by simpa using List.find?_some isEntry
        exact (refused entry (List.mem_of_find?_eq_some isEntry) named effects valued).elim
  | setRaw id command =>
      simp [apply, present, modify_of_absent refused, find?_eq_none_of_absent refused, refusals]

section Accepted

variable {front : List Entry} {entry : Entry} (others : ∀ other ∈ front, other.id ≠ entry.id)
  (back : List Entry) (supply : IdSupply)

include others

theorem updateEntry_split (effects : List Effect) (form : Entry → Outcome) :
    (updateEntry ⟨front ++ entry :: back⟩ supply entry.id effects form).2 =
      (match Effect.toCommand effects with
        | .ok command => ⟨front ++ { entry with effects, command } :: back⟩
        | .error _ => ⟨front ++ { entry with effects } :: back⟩, supply) := by
  rw [updateEntry, find?_split others]
  rcases written : Effect.toCommand effects with error | command <;>
    simp [update, written, modify_split others]

theorem editEntry_split {effect slot : Int} {value : Text} {effects : List Effect}
    (valued : entry.effectsWithValue? effect slot value = some (.ok effects)) (commits : Bool) :
    (editEntry ⟨front ++ entry :: back⟩ supply entry.id effect slot value commits).2 =
      if commits then (updateEntry ⟨front ++ entry :: back⟩ supply entry.id effects .brief).2
      else (⟨front ++ { entry with effects } :: back⟩, supply) := by
  cases commits <;> simp [editEntry, find?_split others, valued, modify_split others]

end Accepted

/-- An operation that is not refused changes what it names, and takes an id only to push. -/
theorem apply_change {stack : EditStack} (distinct : (stack.entries.map Entry.id).Nodup)
    (supply : IdSupply) {operation : StackOperation}
    (accepted : ¬operation.IsRefused stack.entries) :
    operation.Change supply.next stack.entries (stack.apply supply operation).2.1.entries ∧
      (stack.apply supply operation).2.2.next = supply.next + operation.idsTaken := by
  rcases stack with ⟨entries⟩
  cases operation with
  | push label command provenance =>
      rcases known : Provenance.ofName? provenance with _ | provenance
      · exact (accepted (Provenance.ofName?_eq_none_iff.mp known)).elim
      · have named := Provenance.name_of_ofName? known
        subst named
        simp only [apply, known, EditStack.push, idsTaken, and_true]
        exact .push entries label command _
  | remove id =>
      rcases exists_split accepted with ⟨front, entry, back, rfl, rfl, others⟩
      simp only [apply, remove_split others, idsTaken, Int.add_zero, and_true]
      exact .remove front entry back
  | toggle id =>
      rcases exists_split accepted with ⟨front, entry, back, rfl, rfl, others⟩
      simp only [apply, toggle, modify_split others, idsTaken, Int.add_zero, and_true]
      exact .toggle front entry back
  | move id offset =>
      rcases exists_move? supply.next accepted with ⟨after, moved, change⟩
      simpa only [apply, moved, idsTaken, Int.add_zero, and_true] using change
  | get id =>
      rcases exists_split accepted with ⟨front, entry, back, rfl, rfl, -⟩
      simp only [apply, idsTaken, Int.add_zero, and_true]
      exact .get front entry back
  | pop =>
      rcases List.eq_nil_or_concat entries with rfl | ⟨front, entry, rfl⟩
      · exact (accepted rfl).elim
      · simp only [apply, pop?, List.concat_eq_append, List.getLast?_concat, List.dropLast_concat,
          Option.map_some, idsTaken, Int.add_zero, and_true]
        exact .pop front entry
  | clear =>
      simp only [apply, idsTaken, Int.add_zero, and_true]
      exact .clear entries
  | update id effects =>
      rcases exists_split accepted with ⟨front, entry, back, rfl, rfl, others⟩
      rw [apply, updateEntry_split others]
      simp only [idsTaken, Int.add_zero, and_true]
      rcases written : Effect.toCommand effects with error | command
      · exact .updateUnwritten front entry back written
      · exact .update front entry back written
  | edit id effect slot value commits =>
      simp only [IsRefused, Classical.not_forall, Classical.not_not] at accepted
      rcases accepted with ⟨entry, member, rfl, effects, valued⟩
      rcases List.append_of_mem member with ⟨front, back, rfl⟩
      have others := others_of_nodup distinct
      rw [apply, editEntry_split others back supply valued, updateEntry_split others]
      simp only [idsTaken, Int.add_zero]
      -- Only an edit that commits writes the command anew, which can fail.
      cases commits with
      | false => exact ⟨.edit front entry back valued nofun fun _ => rfl, rfl⟩
      | true =>
          rcases written : Effect.toCommand effects with error | command
          · exact ⟨.editUnwritten front entry back valued written, rfl⟩
          · exact ⟨.edit front entry back valued (fun _ => written) nofun, rfl⟩
  | setRaw id command =>
      rcases exists_split accepted with ⟨front, entry, back, rfl, rfl, others⟩
      simp only [apply, modify_split others, idsTaken, Int.add_zero, and_true]
      exact .setRaw front entry back command

end EditStack

end Retouch
