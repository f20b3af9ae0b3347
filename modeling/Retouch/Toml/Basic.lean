import Retouch.Number.Integer
import Retouch.Record

/-!
# TOML values

A TOML document is a table of named values. Numbers and moments are checked for their form and
otherwise kept as they are written.
-/

namespace Retouch

inductive Toml where
  | string (value : Text)
  | bool (value : Bool)
  /-- An integer as it is written. -/
  | integer (literal : Text)
  /-- A number with a fraction or an exponent, an infinity or an undefined number, as it is
  written. -/
  | float (literal : Text)
  | date
  | time
  | dateTime
  | list (items : List Toml)
  /-- A table: named values in order. -/
  | table (fields : List (Text × Toml))

namespace Toml

instance : Inhabited Toml := ⟨.bool false⟩

/-- The kind of a value, as messages name it. -/
def kind : Toml → Text
  | .string _ => "str"
  | .bool _ => "bool"
  | .integer _ => "int"
  | .float _ => "float"
  | .date => "datetime.date"
  | .time => "datetime.time"
  | .dateTime => "datetime.datetime"
  | .list _ => "list"
  | .table _ => "dict"

/-- Whether a value has parts of its own, a list or a table. -/
def isCompound : Toml → Bool
  | .list _ => true
  | .table _ => true
  | _ => false

inductive ReadError where
  /-- It is not of the form of a document, or it contradicts itself. -/
  | malformed
  | integer (error : IntegerError)
  deriving DecidableEq

/-- Changes the table to which a key leads, the tables on the way being made if they are not there;
where `entersLists` is set, a list leads on to the last of its tables. -/
def modifyAt (entersLists : Bool)
    (change : Record Toml → Except ReadError (Record Toml)) :
    List Text → Record Toml → Except ReadError (Record Toml)
  | [], fields => change fields
  | name :: key, fields =>
      match fields.get? name with
      | none => do
          let inner ← modifyAt entersLists change key []
          return fields.set name (.table inner)
      | some (.table old) => do
          let inner ← modifyAt entersLists change key old
          return fields.set name (.table inner)
      | some (.list items) =>
          match items.getLast? with
          | some (.table old) =>
              if entersLists then do
                let inner ← modifyAt entersLists change key old
                return fields.set name (.list (items.dropLast ++ [.table inner]))
              else
                .error .malformed
          | _ => .error .malformed
      | some _ => .error .malformed

def addNew (name : Text) (value : Toml) (fields : Record Toml) : Except ReadError (Record Toml) :=
  match fields.get? name with
  | none => .ok (fields.set name value)
  | some _ => .error .malformed

/-- The table with one more empty table in the list under a name. -/
def addTable (name : Text) (fields : Record Toml) : Except ReadError (Record Toml) :=
  match fields.get? name with
  | none => .ok (fields.set name (.list [.table []]))
  | some (.list items) => .ok (fields.set name (.list (items ++ [.table []])))
  | some _ => .error .malformed

end Toml

end Retouch
