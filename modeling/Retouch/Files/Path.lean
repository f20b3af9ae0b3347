import Retouch.Text.Basic

/-!
# Paths

A path is a sequence of names that leads from the working directory or from the top to a file. The
name of no directory step, a single dot, and empty names are left out; the name of the step to the
parent, two dots, is kept. A path that begins with exactly two slashes stays apart from one that
begins with one slash or with three.
-/

namespace Retouch

structure Path where
  /-- The slashes at the beginning: none, one or two. -/
  root : Text
  names : List Text
  deriving DecidableEq

namespace Path

/-- The name of the step to the parent. -/
def toParent : Text := ".."

def ofText (text : Text) : Path where
  root :=
    match (text.takeWhile (· == '/')).length with
    | 0 => []
    | 2 => "//"
    | _ => "/"
  names := (Text.splitOn '/' text).filter fun name => name != [] && name != "."

/-- The path as it is written; the working directory is written as a dot. -/
def text (path : Path) : Text :=
  if path.root.isEmpty ∧ path.names.isEmpty then "."
  else path.root ++ Text.join "/" path.names

def parent (path : Path) : Path :=
  { path with names := path.names.dropLast }

def child (path : Path) (name : Text) : Path :=
  { path with names := path.names ++ [name] }

/-- The last name; a path without names has an empty one. -/
def name (path : Path) : Text :=
  path.names.getLast?.getD []

/-- The given number of parents of a path, beginning with the path itself. -/
def ancestorsUpTo : Nat → Path → List Path
  | 0, path => [path]
  | count + 1, path => path :: ancestorsUpTo count path.parent

def ancestors (path : Path) : List Path :=
  ancestorsUpTo path.names.length path

/-- A name up to its last dot, reversed and with the dot, and the part after the dot; nothing if
there is no dot. -/
def splitLastDot? (name : Text) : Option (Text × Text) :=
  match name.reverse.span (· != '.') with
  | (_, []) => none
  | (after, stem) => some (stem, after.reverse)

/-- The suffix of the last name with its dot; a dot at the beginning or at the end of the name
starts no suffix. -/
def suffix (path : Path) : Text :=
  match splitLastDot? path.name with
  | some (_ :: _ :: _, c :: after) => '.' :: c :: after
  | _ => []

end Path

end Retouch
