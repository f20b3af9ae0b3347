import Retouch.Record
import Retouch.Stack
import Retouch.Text.Quoted

/-!
# Workspaces

A workspace holds named stacks that share one supply of ids. Operations are addressed to a stack by
its name; a stack comes into being, empty, when it is first named.
-/

namespace Retouch

/-- An operation on one stack. -/
inductive StackOperation where
  | push (label command provenance : Text)
  | remove (id : Int)
  | toggle (id : Int)
  | move (id offset : Int)
  | get (id : Int)
  | pop
  | clear
  | update (id : Int) (effects : List Effect)
  /-- Sets a value in a slot of an effect; the command follows only if asked for. -/
  | edit (id effect slot : Int) (value : Text) (commits : Bool)
  /-- Gives an entry a raw command instead of its effects. -/
  | setRaw (id : Int) (command : Text)

namespace StackOperation

inductive Outcome where
  | nothing
  | done (isDone : Bool)
  | enabled (isEnabled : Bool)
  /-- An entry, to be shown with its effects. -/
  | detailed (entry : Entry)
  /-- An entry, to be shown without its effects. -/
  | brief (entry : Entry)
  deriving DecidableEq

inductive Problem where
  | unknownProvenance (name : Text)
  | notANumber (value : Text)
  | range (error : RangeError)
  deriving DecidableEq

def Problem.message : Problem → Text
  | .unknownProvenance name => "Unknown provenance: " ++ name
  | .notANumber value => "could not convert string to float: " ++ Text.quoted value
  | .range error => error.message

end StackOperation

namespace Entry

/-- The effects of an entry with a value in a slot set; nothing if there is no such effect or
slot. -/
def effectsWithValue? (entry : Entry) (effect slot : Int) (value : Text) :
    Option (Except StackOperation.Problem (List Effect)) := do
  let effectPosition ← effect.toNat?
  let slotPosition ← slot.toNat?
  let target ← entry.effects[effectPosition]?
  let old ← target.slots[slotPosition]?
  match old.withValue? value with
  | none => return .error (.notANumber value)
  | some new =>
      return .ok (entry.effects.set effectPosition
        { target with slots := target.slots.set slotPosition new })

end Entry

namespace EditStack

open StackOperation

/-- The outcome of an operation and the stack and the supply after it. -/
abbrev Step := Except Problem Outcome × EditStack × IdSupply

/-- Shows the entry of an id as it is on a stack, or nothing if it is not there. -/
def present (stack : EditStack) (id : Int) (form : Entry → Outcome) : Outcome :=
  (stack.find? id).elim .nothing form

/-- Gives an entry other effects and shows it. -/
def updateEntry (stack : EditStack) (supply : IdSupply) (id : Int) (effects : List Effect)
    (form : Entry → Outcome) : Step :=
  match stack.find? id with
  | none => (.ok .nothing, stack, supply)
  | some _ =>
      match stack.update id effects with
      | (after, .ok ()) => (.ok (after.present id form), after, supply)
      | (after, .error error) => (.error (.range error), after, supply)

/-- Sets a value in a slot of an entry and shows the entry. -/
def editEntry (stack : EditStack) (supply : IdSupply) (id effect slot : Int) (value : Text)
    (commits : Bool) : Step :=
  match (stack.find? id).bind (·.effectsWithValue? effect slot value) with
  | none => (.ok .nothing, stack, supply)
  | some (.error problem) => (.error problem, stack, supply)
  | some (.ok effects) =>
      if commits then
        stack.updateEntry supply id effects .brief
      else
        let after := stack.modify id fun entry => { entry with effects }
        (.ok (after.present id .brief), after, supply)

def apply (stack : EditStack) (supply : IdSupply) : StackOperation → Step
  | .push label command provenance =>
      match Provenance.ofName? provenance with
      | none => (.error (.unknownProvenance provenance), stack, supply)
      | some known =>
          let (entry, after, rest) := stack.push supply label command known
          (.ok (.detailed entry), after, rest)
  | .remove id => (.ok (.done (stack.find? id).isSome), stack.remove id, supply)
  | .toggle id =>
      (.ok ((stack.find? id).elim .nothing fun entry => .enabled (!entry.enabled)),
        stack.toggle id, supply)
  | .move id offset =>
      match stack.move? id offset with
      | some after => (.ok (.done true), after, supply)
      | none => (.ok (.done false), stack, supply)
  | .get id => (.ok (stack.present id .detailed), stack, supply)
  | .pop =>
      match stack.pop? with
      | some (entry, after) => (.ok (.detailed entry), after, supply)
      | none => (.ok .nothing, stack, supply)
  | .clear => (.ok .nothing, {}, supply)
  | .update id effects => stack.updateEntry supply id effects .detailed
  | .edit id effect slot value commits => stack.editEntry supply id effect slot value commits
  | .setRaw id command =>
      let after := stack.modify id fun entry => { entry with effects := [], command }
      (.ok (after.present id .brief), after, supply)

end EditStack

structure Workspace where
  supply : IdSupply := {}
  /-- The stacks that have been named. -/
  named : Record EditStack := []

namespace Workspace

def stack (workspace : Workspace) (name : Text) : EditStack :=
  (workspace.named.get? name).getD {}

/-- Applies an operation to the stack under a name. -/
def apply (workspace : Workspace) (name : Text) (operation : StackOperation) :
    Except StackOperation.Problem StackOperation.Outcome × Workspace :=
  let (outcome, after, supply) := (workspace.stack name).apply workspace.supply operation
  (outcome, ⟨supply, workspace.named.set name after⟩)

end Workspace

end Retouch
