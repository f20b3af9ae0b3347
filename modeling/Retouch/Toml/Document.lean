import Retouch.Toml.Scalar

/-!
# TOML documents

A document is a sequence of lines: a header that opens a table, a header that opens a further table
of a list, or a key with a value that goes into the open table. A table is opened only once; what a
value in braces or brackets holds is never added to; and a key with dots neither enters a table that
was opened by a header nor has its tables opened by a later one.
-/

namespace Retouch.Toml

/-- A key: the names that lead to a value. -/
abbrev Key := List Text

inductive Prohibition where
  | opening
  | adding
  deriving DecidableEq

/-- A prohibition for a key, which may hold for all longer keys as well. -/
structure Mark where
  key : Key
  prohibition : Prohibition
  isDeep : Bool
  deriving DecidableEq

/-- Whether something is forbidden for a key; nothing is for the empty one. -/
def isForbidden (marks : List Mark) (prohibition : Prohibition) (key : Key) : Bool :=
  !key.isEmpty && marks.any fun mark =>
    mark.prohibition == prohibition &&
      (mark.key == key || (mark.isDeep && mark.key.isPrefixOf key))

def skipComment (text : Text) : Except ReadError Text :=
  match text with
  | '#' :: rest =>
      if (rest.takeWhile (· != '\n')).any isControl then .error .malformed
      else .ok (rest.dropWhile (· != '\n'))
  | _ => .ok text

def skipFiller (inComment : Bool) : Text → Except ReadError Text
  | [] => .ok []
  | c :: rest =>
      if c = '\n' then skipFiller false rest
      else if inComment then if isControl c then .error .malformed else skipFiller true rest
      else if isSpace c then skipFiller false rest
      else if c = '#' then skipFiller true rest
      else .ok (c :: rest)

/-- The key of a value and what follows its equals sign. -/
def readAssignedKey (text : Text) : Except ReadError (Key × Text) := do
  let (key, rest) ← readKey (text.length + 1) text
  match rest with
  | '=' :: after => return (key, skipSpace after)
  | _ => .error .malformed

/-- A table in braces under construction: its fields and the keys that must not be added to. -/
structure Inline where
  fields : Record Toml := []
  marks : List Mark := []

def Inline.add (inline : Inline) (key : Key) (value : Toml) : Except ReadError Inline := do
  if isForbidden inline.marks .adding key then
    .error .malformed
  else
    let fields ← modifyAt false (addNew (key.getLast?.getD []) value) key.dropLast inline.fields
    return ⟨fields, if value.isCompound then ⟨key, .adding, true⟩ :: inline.marks
      else inline.marks⟩

mutual

/-- The value at the beginning of a text. A level costs two of the budget and at least one
character, so a budget above twice the length of the text is never used up. -/
def readValue : Nat → Text → Except ReadError (Toml × Text)
  | 0, _ => .error .malformed
  | budget + 1, text =>
      match text with
      | '[' :: rest => do
          match ← skipFiller false rest with
          | ']' :: after => return (.list [], after)
          | body =>
              let (items, after) ← readItems budget body
              return (.list items, after)
      | '\x7b' :: rest =>
          match skipSpace rest with
          | '\x7d' :: after => .ok (.table [], after)
          | body => do
              let (fields, after) ← readFields budget {} body
              return (.table fields, after)
      | _ => readScalar text

def readItems : Nat → Text → Except ReadError (List Toml × Text)
  | 0, _ => .error .malformed
  | budget + 1, text => do
      let (item, rest) ← readValue budget text
      match ← skipFiller false rest with
      | ']' :: after => return ([item], after)
      | ',' :: more =>
          match ← skipFiller false more with
          | ']' :: after => return ([item], after)
          | body =>
              let (items, after) ← readItems budget body
              return (item :: items, after)
      | _ => .error .malformed

def readFields : Nat → Inline → Text → Except ReadError (Record Toml × Text)
  | 0, _, _ => .error .malformed
  | budget + 1, inline, text => do
      let (key, body) ← readAssignedKey text
      let (value, rest) ← readValue budget body
      let filled ← inline.add key value
      match skipSpace rest with
      | '\x7d' :: after => return (filled.fields, after)
      | ',' :: more => readFields budget filled (skipSpace more)
      | _ => .error .malformed

end

structure Document where
  fields : Record Toml := []
  marks : List Mark := []
  /-- The keys that must not be opened after the next header. -/
  pending : List Key := []
  /-- The key of the open table. -/
  header : Key := []

namespace Document

/-- What is forbidden once a new header comes. -/
def settledMarks (document : Document) : List Mark :=
  document.pending.map (⟨·, .opening, false⟩) ++ document.marks

def openTable (document : Document) (key : Key) : Except ReadError Document := do
  let marks := document.settledMarks
  if isForbidden marks .opening key || isForbidden marks .adding key then
    .error .malformed
  else
    let fields ← modifyAt true (fun fields => .ok fields) key document.fields
    return { fields, marks := ⟨key, .opening, false⟩ :: marks, header := key }

/-- Opens a further table of a list, for which nothing is forbidden yet. -/
def openItem (document : Document) (key : Key) : Except ReadError Document := do
  let marks := document.settledMarks
  if isForbidden marks .adding key then
    .error .malformed
  else
    let others := marks.filter fun mark => !key.isPrefixOf mark.key
    let fields ← modifyAt true (addTable (key.getLast?.getD [])) key.dropLast document.fields
    return { fields, marks := ⟨key, .opening, false⟩ :: others, header := key }

/-- The keys that the dots of a key lead through, below the open table. -/
def keysThrough (document : Document) (key : Key) : List Key :=
  (List.range (key.length - 1)).map fun count => document.header ++ key.take (count + 1)

def add (document : Document) (key : Key) (value : Toml) : Except ReadError Document := do
  let through := document.keysThrough key
  let target := document.header ++ key.dropLast
  if through.any (isForbidden document.marks .opening) ||
      isForbidden document.marks .adding target then
    .error .malformed
  else
    let fields ← modifyAt true (addNew (key.getLast?.getD []) value) target document.fields
    let marks :=
      if value.isCompound then ⟨document.header ++ key, .adding, true⟩ :: document.marks
      else document.marks
    return { document with fields, marks, pending := through ++ document.pending }

/-- Reads what a line says, and gives what follows it. -/
def readLine (document : Document) (text : Text) : Except ReadError (Document × Text) :=
  match text with
  | '[' :: '[' :: rest => do
      let (key, after) ← readKey (text.length + 1) (skipSpace rest)
      let next ← document.openItem key
      match after with
      | ']' :: ']' :: more => return (next, skipSpace more)
      | _ => .error .malformed
  | '[' :: rest => do
      let (key, after) ← readKey (text.length + 1) (skipSpace rest)
      let next ← document.openTable key
      match after with
      | ']' :: more => return (next, skipSpace more)
      | _ => .error .malformed
  | c :: _ =>
      if isKeyChar c || c == '\x22' || c == '\x27' then do
        let (key, body) ← readAssignedKey text
        let (value, rest) ← readValue (2 * body.length + 1) body
        return (← document.add key value, skipSpace rest)
      else if c = '#' ∨ c = '\n' then
        .ok (document, text)
      else
        .error .malformed
  | [] => .ok (document, [])

/-- Reads the lines of a text; every line takes at least one character. -/
def readLines : Nat → Document → Text → Except ReadError Document
  | 0, _, _ => .error .malformed
  | budget + 1, document, text => do
      let (next, rest) ← document.readLine (skipSpace text)
      match ← skipComment rest with
      | [] => return next
      | '\n' :: more => readLines budget next more
      | _ => .error .malformed

end Document

def read (text : Text) : Except ReadError (Record Toml) :=
  (Document.readLines (text.length + 1) {} text).map (·.fields)

end Retouch.Toml
