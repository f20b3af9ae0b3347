import Retouch.Files.Tree
import Retouch.Text.Line
import Retouch.Toml.Document

/-!
# The project directory

The project directory is the nearest of a directory and its parents that holds the package, or a
project file that names the project. A project file that is no TOML document is passed over.
-/

namespace Retouch.Project

def packageName : Text := "alchemy_engine"

def fileName : Text := "pyproject.toml"

def projectName : Text := "alchemy"

/-- Why the search for the project directory failed. -/
inductive SearchError where
  | file (error : FileError)
  | encoding (error : Utf8.DecodeError)
  | integer (error : IntegerError)
  /-- What a project file says of the project is no table. -/
  | notATable (value : Toml)

def SearchError.message : SearchError → Text
  | .file error => error.message
  | .encoding error => error.message
  | .integer error => error.message
  | .notATable value => "'" ++ value.kind ++ "' object has no attribute 'get'"

def namesProject (text : Text) : Except SearchError Bool :=
  match Toml.read text with
  | .error .malformed => .ok false
  | .error (.integer error) => .error (.integer error)
  | .ok fields =>
      match Record.get? "project".toList fields with
      | none => .ok false
      | some (.table project) =>
          match Record.get? "name".toList project with
          | some (.string name) => .ok (name == projectName)
          | _ => .ok false
      | some other => .error (.notATable other)

def hasProjectFile (tree : FileTree) (directory : Path) : Except SearchError Bool := do
  let path := directory.child fileName
  if ← (tree.has path).mapError .file then
    let bytes ← (tree.read path).mapError .file
    let text ← (Utf8.decode bytes).mapError .encoding
    namesProject (Text.withLineFeeds text)
  else
    return false

def firstOf (tree : FileTree) : List Path → Except SearchError (Option Path)
  | [] => .ok none
  | directory :: directories => do
      if ← (tree.hasDirectory (directory.child packageName)).mapError .file then
        return some directory
      else if ← hasProjectFile tree directory then
        return some directory
      else
        firstOf tree directories

/-- The project directory of a directory. -/
def find? (tree : FileTree) (directory : Path) : Except SearchError (Option Path) :=
  firstOf tree directory.ancestors

end Retouch.Project
