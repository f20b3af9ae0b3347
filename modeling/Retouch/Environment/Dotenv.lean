import Retouch.Environment
import Retouch.Environment.Project
import Retouch.Text.Line

/-!
# Files of variables

A file of variables has a variable with its value on each line, an equals sign between them. Blank
lines, comments and lines without an equals sign or without a name are passed over; a line may begin
with the word for exporting, and a value may stand between quotes. Variables that are set already
keep their value unless the file is to override them.
-/

namespace Retouch.Dotenv

def fileName : Text := ".env"

def exportWord : Text := "export "

/-- A value without the quotes around it, if it begins with a quote and ends with the same one; a
lone quote counts as both. -/
def withoutQuotes (value : Text) : Text :=
  match value with
  | [] => []
  | quote :: rest =>
      if (quote = '\x22' ∨ quote = '\x27') ∧ value.getLast? = some quote then rest.dropLast
      else value

/-- The variable and the value that a line sets, if it sets one. -/
def assignment? (line : Text) : Option (Text × Text) :=
  let content := Text.trim line
  if content.head? = some '#' then
    none
  else
    let statement :=
      match Text.afterStart? exportWord content with
      | some rest => Text.trim rest
      | none => content
    match Text.after? '=' statement with
    | none => none
    | some value =>
        let name := Text.trim (Text.before '=' statement)
        if name.isEmpty then none else some (name, withoutQuotes (Text.trim value))

def assignments (text : Text) : List (Text × Text) :=
  (Text.lines (Text.withLineFeeds text)).filterMap assignment?

inductive LoadError where
  | search (error : Project.SearchError)
  | file (error : FileError)
  | encoding (error : Utf8.DecodeError)
  | nullCharacter

def LoadError.message : LoadError → Text
  | .search error => error.message
  | .file error => error.message
  | .encoding error => error.message
  | .nullCharacter => "embedded null byte"

def hasNull (text : Text) : Bool :=
  text.contains '\x00'

/-- Sets variables in order, up to the first one with a null character. -/
def apply (overrides : Bool) : Environment → List (Text × Text) → Environment × Bool
  | environment, [] => (environment, true)
  | environment, (name, value) :: rest =>
      if !overrides && (Record.get? name environment).isSome then
        apply overrides environment rest
      -- those set before the fault stay set
      else if hasNull name || hasNull value then
        (environment, false)
      else
        apply overrides (Record.set name value environment) rest

/-- The place of the file: in the project directory if there is one with such a file, else in the
given directory. -/
def defaultPath (tree : FileTree) (directory : Path) : Except Project.SearchError Path := do
  match ← Project.find? tree directory with
  | some project =>
      let path := project.child fileName
      return if ← (tree.has path).mapError .file then path else directory.child fileName
  | none => return directory.child fileName

def textOf? (tree : FileTree) (path : Path) : Except LoadError (Option Text) := do
  if ← (tree.has path).mapError .file then
    let bytes ← (tree.read path).mapError .file
    return some (← (Utf8.decode bytes).mapError .encoding)
  else
    return none

/-- Loads a file of variables; gives the environment afterwards and whether there is such a file, or
why it could not be loaded. -/
def load (tree : FileTree) (path : Path) (overrides : Bool) (environment : Environment) :
    Environment × Except LoadError Bool :=
  match textOf? tree path with
  | .error error => (environment, .error error)
  | .ok none => (environment, .ok false)
  | .ok (some text) =>
      match apply overrides environment (assignments text) with
      | (after, true) => (after, .ok true)
      | (after, false) => (after, .error .nullCharacter)

def loadDefault (tree : FileTree) (directory : Path) (overrides : Bool)
    (environment : Environment) : Environment × Except LoadError Bool :=
  match defaultPath tree directory with
  | .error error => (environment, .error (.search error))
  | .ok path => load tree path overrides environment

end Retouch.Dotenv
