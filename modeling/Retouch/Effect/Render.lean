import Retouch.Command.Literal
import Retouch.Effect.Family

/-!
# From effects to commands

Every effect is written as a flag with its values, quoted where they need it. Numbers that stand
alone are joined by commas; as soon as one value is no number, or the flag begins with a plus, all
are separated by spaces. An operation with a channel selection of its own is wrapped in one unless a
selection is open already. A switch that is off is left out.
-/

namespace Retouch

namespace Slot

def commandText : Slot → Except RangeError Text
  | .number _ value _ _ _ unit => value.commandText.map (· ++ unit)
  | .text _ value true => .ok value
  | slot => .ok (Literal.quote slot.valueText)

/-- Whether the value of a slot is a number, or a text that is one. -/
def looksNumeric : Slot → Bool
  | .number .. => true
  | slot => (Numeral.quantity? slot.valueText).isSome

/-- The value of a slot as a number; a text counts by the numeral that it begins with. -/
def amount : Slot → Number
  | .number _ value .. => value
  | slot => .float (Numeral.leadingValue slot.valueText)

end Slot

namespace Effect

/-- The flag with its non-empty values. -/
def renderValues (effect : Effect) : Except RangeError Text := do
  let head := Flag.ofCanonical effect.flag
  let values := (← effect.slots.mapM Slot.commandText).filter (!·.isEmpty)
  if values.isEmpty then
    return head
  else if effect.flag.head? = some '+' ∨ !effect.slots.all Slot.looksNumeric then
    return head ++ " " ++ Text.unwords values
  else
    return head ++ " " ++ Text.join "," values

/-- A command part within a selection of the colour channels. -/
def wrapScope (body : Text) : Text :=
  Text.unwords [Flag.regionOpen, Family.scopeTarget, body, Flag.regionClose]

/-- Whether a switch is on; it is off up to one half. -/
def isActive (effect : Effect) : Bool :=
  match effect.slots.head? with
  | some (.number _ value ..) => !value.isAtMost 1 2
  | _ => true

/-- A kernel with its sizes, where it takes some. -/
def kernelText (kernel : Text) (first second : Number) : Except RangeError Text := do
  let isSized := first.isPositive || second.isPositive ||
    Vocabulary.shapedKernels.contains kernel
  if isSized && Vocabulary.morphologyKernels.contains kernel then
    let width ← first.commandText
    if second.isPositive then
      return kernel ++ ":" ++ width ++ "x" ++ (← second.commandText)
    else
      return kernel ++ ":" ++ width
  else
    return kernel

/-- An effect without any channel selection around it. -/
def renderBody (effect : Effect) : Except RangeError Text :=
  let head := Flag.ofCanonical effect.flag
  match Family.ofFlag effect.flag, effect.slots with
  | .toggle _ _ command, _ => .ok (command.getD head)
  | .morphology, method :: kernel :: first :: second :: _ => do
      let spec ← kernelText kernel.valueText first.amount second.amount
      return Text.unwords [head, Literal.quote method.valueText, Literal.quote spec]
  | .method .., method :: parameter :: _ => do
      return Text.unwords [head, Literal.quote method.valueText, ← parameter.commandText]
  | .channelReset, _ => .ok Flag.regionClose
  | _, _ => effect.renderValues

def isOff (effect : Effect) : Bool :=
  match Family.ofFlag effect.flag with
  | .toggle .. => !effect.isActive
  | _ => false

/-- An effect as command text, given whether a channel selection is open before it. -/
def render (effect : Effect) (scopeOpen : Bool) : Except RangeError Text :=
  if effect.isOff then
    .ok []
  else
    effect.renderBody.map fun body =>
      if (Family.ofFlag effect.flag).isScoped && !scopeOpen then wrapScope body else body

def scopeAfter (effect : Effect) (scopeOpen : Bool) : Bool :=
  if effect.flag = Flag.regionClose then false
  else if effect.flag = "channel".toList then true
  else scopeOpen

def renderParts (scopeOpen : Bool) : List Effect → Except RangeError (List Text)
  | [] => .ok []
  | effect :: effects => do
      let part ← effect.render scopeOpen
      let parts ← renderParts (effect.scopeAfter scopeOpen) effects
      return if part.isEmpty then parts else part :: parts

def toCommand (effects : List Effect) : Except RangeError Text :=
  (renderParts false effects).map Text.unwords

end Effect

end Retouch
