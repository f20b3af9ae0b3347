import Retouch.Command.Literal
import Retouch.Command.Segment
import Retouch.Effect.Parse
import Retouch.Effect.Render

/-!
# The edit stack

An edit stack is a list of entries that can be switched, moved, edited and removed on their own; the
command of the stack joins what its enabled entries render. An entry renders its effects, or its raw
command if it has none: a command with groups cannot be rebuilt from effects and stays raw. Entries
get ids from a supply that may be shared by several stacks and never hands out an id twice.
-/

namespace Retouch

inductive Provenance where
  | preset
  | generated
  | manual
  deriving DecidableEq

namespace Provenance

def name : Provenance → Text
  | .preset => "preset"
  | .generated => "generated"
  | .manual => "manual"

def ofName? (name : Text) : Option Provenance :=
  [preset, generated, manual].find? (·.name == name)

end Provenance

/-- A source of ids: the next one that it hands out. -/
structure IdSupply where
  next : Int := 1
  deriving DecidableEq

structure Entry where
  /-- The id, unique among all entries of its supply. -/
  id : Int
  label : Text
  command : Text
  /-- Whether the entry is part of the command of the stack. -/
  enabled : Bool
  /-- The effects of the command, if it can be edited. -/
  effects : List Effect
  provenance : Provenance
  deriving DecidableEq

namespace Entry

/-- The effects of a command that can be edited; a command with groups has none. -/
def editableEffects (command : Text) : List Effect :=
  if (Token.ofText command).any Token.isGroup then [] else Effect.ofCommand command

def render (entry : Entry) : Except RangeError Text :=
  if entry.effects.isEmpty then .ok entry.command else Effect.toCommand entry.effects

end Entry

structure EditStack where
  /-- The entries, in the order in which they are applied. -/
  entries : List Entry := []
  deriving DecidableEq

namespace EditStack

def find? (stack : EditStack) (id : Int) : Option Entry :=
  stack.entries.find? (·.id == id)

def position? (stack : EditStack) (id : Int) : Option Nat :=
  stack.entries.findIdx? (·.id == id)

/-- Puts a new entry on the stack; gives the entry, the stack and the supply after it. -/
def push (stack : EditStack) (supply : IdSupply) (label command : Text) (provenance : Provenance) :
    Entry × EditStack × IdSupply :=
  let entry : Entry :=
    { id := supply.next, label, command, enabled := true,
      effects := Entry.editableEffects command, provenance }
  (entry, ⟨stack.entries ++ [entry]⟩, ⟨supply.next + 1⟩)

/-- Puts a new entry on the stack for each labelled command, in order; gives the entries, the stack
and the supply after them. -/
def pushAll (stack : EditStack) (supply : IdSupply) (provenance : Provenance) :
    List LabelledCommand → List Entry × EditStack × IdSupply
  | [] => ([], stack, supply)
  | part :: parts =>
      let (entry, after, rest) := stack.push supply part.label part.command provenance
      let (entries, final, left) := after.pushAll rest provenance parts
      (entry :: entries, final, left)

def remove (stack : EditStack) (id : Int) : EditStack :=
  ⟨stack.entries.eraseP (·.id == id)⟩

def modifyEntry (id : Int) (change : Entry → Entry) : List Entry → List Entry
  | [] => []
  | entry :: rest =>
      if entry.id = id then change entry :: rest else entry :: modifyEntry id change rest

def modify (stack : EditStack) (id : Int) (change : Entry → Entry) : EditStack :=
  ⟨modifyEntry id change stack.entries⟩

def toggle (stack : EditStack) (id : Int) : EditStack :=
  stack.modify id fun entry => { entry with enabled := !entry.enabled }

/-- The stack with the entry of an id exchanged with its neighbour before or after it, or nothing if
there is no such entry, no such neighbour, or the offset names no neighbour. -/
def move? (stack : EditStack) (id offset : Int) : Option EditStack :=
  match stack.position? id with
  | none => none
  | some position =>
      let target : Int := position + offset
      if (offset = -1 ∨ offset = 1) ∧ 0 ≤ target then
        match stack.entries[position]?, stack.entries[target.toNat]? with
        | some entry, some neighbour =>
            some ⟨(stack.entries.set position neighbour).set target.toNat entry⟩
        | _, _ => none
      else
        none

/-- The stack with other effects in the entry of an id. The command of the entry follows them,
unless one of them cannot be rendered: then the error comes with a stack in which only the effects
are new. -/
def update (stack : EditStack) (id : Int) (effects : List Effect) :
    EditStack × Except RangeError Unit :=
  match Effect.toCommand effects with
  | .ok command =>
      (stack.modify id fun entry => { entry with effects, command }, .ok ())
  | .error error => (stack.modify id fun entry => { entry with effects }, .error error)

def pop? (stack : EditStack) : Option (Entry × EditStack) :=
  stack.entries.getLast?.map fun entry => (entry, ⟨stack.entries.dropLast⟩)

/-- The command of the stack: what its enabled entries render, empty parts left out. -/
def command (stack : EditStack) : Except RangeError Text := do
  let parts ← (stack.entries.filter (·.enabled)).mapM Entry.render
  return Text.unwords (parts.filter fun part => !Text.isAllBlank part)

end EditStack

end Retouch
