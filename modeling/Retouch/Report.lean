import Retouch.Files.Path
import Retouch.Json.Basic
import Retouch.Stack
import Retouch.Text.Quoted
import Retouch.Text.Utf8

/-!
# Reports

A report shows values of the program as JSON: effects and entries as objects of their fields, bytes
by their number, paths as they are written. The keys of a map may be of several kinds; two keys that
are equal as values are one key, and so are two keys that are written alike.
-/

namespace Retouch.Report

/-- A key of a map. -/
inductive Key where
  | nothing
  | bool (value : Bool)
  | number (value : Number)
  | string (value : Text)
  | bytes (value : Bytes)
  | path (value : Path)
  | tuple (items : List Key)

instance : Inhabited Key := ⟨.nothing⟩

/-- A value that can be reported. -/
inductive Value where
  | nothing
  | bool (value : Bool)
  | number (value : Number)
  | string (value : Text)
  | bytes (value : Bytes)
  | path (value : Path)
  /-- A set with one member. -/
  | singleton (member : Key)
  | list (items : List Value)
  | map (fields : List (Key × Value))
  | effect (value : Effect)
  | entry (value : Entry)

instance : Inhabited Value := ⟨.nothing⟩

/-! ## Keys -/

/-- Bytes as messages show them. -/
def bytesText (bytes : Bytes) : Text :=
  let content := bytes.map fun byte => Char.ofNat byte.toNat
  let quote := Text.quoteFor content
  let shown (c : Char) : Text :=
    if c.toNat < 0x80 then Text.quotedChar quote c else Text.codePointEscape c
  'b' :: quote :: content.flatMap shown ++ [quote]

namespace Key

mutual

/-- A key as it is shown within another value. -/
def shown : Key → Text
  | .nothing => "None"
  | .bool value => if value then "True" else "False"
  | .number value => value.text
  | .string value => Text.quoted value
  | .bytes value => bytesText value
  | .path value => "PosixPath(" ++ Text.quoted value.text ++ ")"
  | .tuple [item] => '(' :: item.shown ++ ",)"
  | .tuple items => '(' :: shownItems items ++ ")"

def shownItems : List Key → Text
  | [] => []
  | [item] => item.shown
  | item :: next :: items => item.shown ++ ", " ++ shownItems (next :: items)

end

/-- A key as it is written on its own. -/
def text : Key → Text
  | .string value => value
  | .path value => value.text
  | key => key.shown

/-- A truth value or a number as a number. -/
def number? : Key → Option Number
  | .bool value => some (if value then 1 else 0)
  | .number value => some value
  | _ => none

/-- Whether two numbers are equal as values, whatever they are held as. -/
def sameNumber : Number → Number → Bool
  | .int left, .int right => left == right
  | .float left, .float right => left != .nan && (left == right || left.isZero && right.isZero)
  | .int left, .float right => right.toInt? == some left
  | .float left, .int right => left.toInt? == some right

mutual

def same : Key → Key → Bool
  | .nothing, .nothing => true
  | .string left, .string right => left == right
  | .bytes left, .bytes right => left == right
  | .path left, .path right => left == right
  | .tuple left, .tuple right => sameItems left right
  | left, right =>
      match left.number?, right.number? with
      | some first, some second => sameNumber first second
      | _, _ => false

def sameItems : List Key → List Key → Bool
  | [], [] => true
  | left :: lefts, right :: rights => same left right && sameItems lefts rights
  | _, _ => false

end

/-- Puts a value under a key: in the place of an equal key, which stays, or at the end. -/
def put {Content : Type} (key : Key) (content : Content) :
    List (Key × Content) → List (Key × Content)
  | [] => [(key, content)]
  | (other, old) :: rest =>
      if key.same other then (other, content) :: rest else (other, old) :: put key content rest

/-- The values under different keys. -/
def merge {Content : Type} (fields : List (Key × Content)) : List (Key × Content) :=
  fields.foldl (fun merged (key, content) => put key content merged) []

end Key

/-! ## Effects and entries -/

def ofSlot : Slot → Json
  | .number label value minimum maximum step unit =>
      .object [("label", .string label), ("value", .number value), ("minimum", .number minimum),
        ("maximum", .number maximum), ("step", .number step), ("unit", .string unit),
        ("kind", .string "number")]
  | .color label value =>
      .object [("label", .string label), ("value", .string value), ("kind", .string "color")]
  | .select label value options =>
      .object [("label", .string label), ("value", .string value),
        ("options", .list (options.map .string)), ("kind", .string "select")]
  | .text label value verbatim =>
      .object [("label", .string label), ("value", .string value), ("verbatim", .bool verbatim),
        ("kind", .string "text")]

def ofEffect (effect : Effect) : Json :=
  .object [("name", .string effect.name), ("flag", .string effect.flag),
    ("args", .list (effect.slots.map ofSlot))]

def ofEntry (entry : Entry) : Json :=
  .object [("id", .int entry.id), ("label", .string entry.label),
    ("command", .string entry.command), ("enabled", .bool entry.enabled),
    ("effects", .list (entry.effects.map ofEffect)),
    ("provenance", .string entry.provenance.name)]

/-! ## Values -/

mutual

def ofValue : Value → Json
  | .nothing => .null
  | .bool value => .bool value
  | .number value => .number value
  | .string value => .string value
  | .bytes value => .string ("<bytes:" ++ Decimal.naturalText value.length ++ ">")
  | .path value => .string value.text
  | .singleton member => .string ('\x7b' :: member.shown ++ ['\x7d'])
  | .list items => .list (ofItems items)
  | .map fields =>
      .object (Record.ofPairs ((Key.merge (ofFields fields)).map fun (key, value) =>
        (key.text, value)))
  | .effect value => ofEffect value
  | .entry value => ofEntry value

def ofItems : List Value → List Json
  | [] => []
  | item :: items => ofValue item :: ofItems items

def ofFields : List (Key × Value) → List (Key × Json)
  | [] => []
  | (key, value) :: fields => (key, ofValue value) :: ofFields fields

end

def ofEffects (effects : List Effect) : Json :=
  .list (effects.map ofEffect)

end Retouch.Report
