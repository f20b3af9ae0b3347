import Retouch.Number.Numeral

/-!
# Effects

An effect is one operation of a command in editable form: a flag and a list of slots, each with a
label and a value. A number has a range and a step for a slider, a selection has its options, and a
text that is already in command syntax is marked as verbatim.
-/

namespace Retouch

/-- An editable argument. -/
inductive Slot where
  | number (label : Text) (value minimum maximum step : Number) (unit : Text)
  | color (label value : Text)
  /-- One of several words; other words are possible. -/
  | select (label value : Text) (options : List Text)
  /-- Any text; a verbatim one is written as it stands. -/
  | text (label value : Text) (verbatim : Bool)
  deriving DecidableEq

/-- An operation in editable form. -/
structure Effect where
  /-- What an editor shows. -/
  name : Text
  /-- The canonical name of the flag. -/
  flag : Text
  slots : List Slot
  deriving DecidableEq

namespace Slot

def valueText : Slot → Text
  | .number _ value .. => value.text
  | .color _ value => value
  | .select _ value _ => value
  | .text _ value _ => value

/-- The slot with another value; nothing if the slot is a number and the value is not written as
one. -/
def withValue? (value : Text) : Slot → Option Slot
  | .number label _ minimum maximum step unit =>
      (Number.ofText? value).map fun number => .number label number minimum maximum step unit
  | .color label _ => some (.color label value)
  | .select label _ options => some (.select label value options)
  | .text label _ verbatim => some (.text label value verbatim)

end Slot

end Retouch
