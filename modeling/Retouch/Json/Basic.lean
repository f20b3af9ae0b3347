import Retouch.Number.Basic
import Retouch.Record

/-!
# JSON values

A JSON value keeps integers and floats apart and the fields of an object in order.
-/

namespace Retouch

/-- A JSON value. -/
inductive Json where
  | null
  | bool (value : Bool)
  | number (value : Number)
  | string (value : Text)
  | list (items : List Json)
  /-- An object: named values in order. -/
  | object (fields : List (Text × Json))

namespace Json

instance : Inhabited Json := ⟨.null⟩

def int (value : Int) : Json :=
  .number (.int value)

/-- The value under a name of an object. -/
def field? (name : Text) : Json → Option Json
  | .object fields => Record.get? name fields
  | _ => none

end Json

end Retouch
