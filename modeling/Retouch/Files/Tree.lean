import Retouch.Failure
import Retouch.Files.Path
import Retouch.Progress
import Retouch.Record
import Retouch.Text.Quoted
import Retouch.Text.Utf8

/-!
# File trees

A file tree holds the files and directories that a run sees. A path is followed name by name, each
step from a directory that is there; what fails names the path that was asked for. Paths and names
have a greatest length, and there is no null character in them.
-/

namespace Retouch

inductive FileFault where
  | notFound
  | alreadyExists
  | notADirectory
  | isADirectory
  | nameTooLong
  | nullCharacter
  deriving DecidableEq

namespace FileFault

/-- The number of a fault; a path with a null character is refused before there is one. -/
def code? : FileFault → Option Nat
  | .notFound => some 2
  | .alreadyExists => some 17
  | .notADirectory => some 20
  | .isADirectory => some 21
  | .nameTooLong => some 36
  | .nullCharacter => none

def kind : FileFault → Text
  | .notFound => "FileNotFoundError"
  | .alreadyExists => "FileExistsError"
  | .notADirectory => "NotADirectoryError"
  | .isADirectory => "IsADirectoryError"
  | .nameTooLong => "OSError"
  | .nullCharacter => "ValueError"

def description : FileFault → Text
  | .notFound => "No such file or directory"
  | .alreadyExists => "File exists"
  | .notADirectory => "Not a directory"
  | .isADirectory => "Is a directory"
  | .nameTooLong => "File name too long"
  | .nullCharacter => "embedded null byte"

end FileFault

structure FileError where
  fault : FileFault
  path : Path
  deriving DecidableEq

/-- The message of an error: the fault with its number and the path, or without a number the fault
alone. -/
def FileError.message (error : FileError) : Text :=
  match error.fault.code? with
  | none => error.fault.description
  | some code =>
      "[Errno " ++ Nat.toDigits 10 code ++ "] " ++ error.fault.description ++ ": " ++
        Text.quoted error.path.text

def FileError.failure (error : FileError) : Failure :=
  .told error.fault.kind error.message

inductive FileNode where
  | directory
  | file (content : Bytes)
  deriving DecidableEq

/-- The names that lead from the top to a node, without steps to a parent. -/
abbrev Place := List Text

structure FileTree where
  /-- What is at a place; the top is always a directory. -/
  nodes : Record FileNode Place := []
  /-- The place from which paths without a leading slash start. -/
  workingDirectory : Place := []
  deriving DecidableEq

namespace FileTree

/-- The greatest number of bytes of a name. -/
def maxNameLength : Nat := 255

/-- The greatest number of bytes of a path as it is written. -/
def maxPathLength : Nat := 4095

def nodeAt? (tree : FileTree) (place : Place) : Option FileNode :=
  if place.isEmpty then some .directory else tree.nodes.get? place

def put (tree : FileTree) (place : Place) (node : FileNode) : FileTree :=
  { tree with nodes := tree.nodes.set place node }

/-- The place that names lead to from a place. All steps start from a directory that is there; the
last one need not arrive at anything. -/
def follow (tree : FileTree) (place : Place) : List Text → Except FileFault Place
  | [] => .ok place
  | name :: rest =>
      match tree.nodeAt? place with
      | none => .error .notFound
      | some (.file _) => .error .notADirectory
      | some .directory =>
          -- the name is looked at only where there is a directory to look it up in
          if maxNameLength < (Utf8.encode name).length then
            .error .nameTooLong
          else
            follow tree (if name = Path.toParent then place.dropLast else place ++ [name]) rest

def place (tree : FileTree) (path : Path) : Except FileFault Place :=
  if path.text.contains '\x00' then
    .error .nullCharacter
  else if maxPathLength < (Utf8.encode path.text).length then
    .error .nameTooLong
  else
    tree.follow (if path.root.isEmpty then tree.workingDirectory else []) path.names

/-- What a path leads to. That a path leads to nothing is no failure, unless the path is too long to
tell. -/
def node? (tree : FileTree) (path : Path) : Except FileError (Option FileNode) :=
  match tree.place path with
  | .ok place => .ok (tree.nodeAt? place)
  | .error .nameTooLong => .error ⟨.nameTooLong, path⟩
  | .error _ => .ok none

def has (tree : FileTree) (path : Path) : Except FileError Bool :=
  (tree.node? path).map (·.isSome)

def hasDirectory (tree : FileTree) (path : Path) : Except FileError Bool :=
  (tree.node? path).map (· == some .directory)

def read (tree : FileTree) (path : Path) : Except FileError Bytes :=
  match tree.place path with
  | .error fault => .error ⟨fault, path⟩
  | .ok place =>
      match tree.nodeAt? place with
      | none => .error ⟨.notFound, path⟩
      | some .directory => .error ⟨.isADirectory, path⟩
      | some (.file content) => .ok content

abbrev Change := Progress FileTree FileError

/-- A change that fails at once. -/
def failing (tree : FileTree) (fault : FileFault) (path : Path) : Change :=
  ⟨tree, some ⟨fault, path⟩⟩

/-- Changes a file, a missing file being an empty one. -/
def modify (tree : FileTree) (path : Path) (change : Bytes → Bytes) : Change :=
  match tree.place path with
  | .error fault => tree.failing fault path
  | .ok place =>
      match tree.nodeAt? place with
      | some .directory => tree.failing .isADirectory path
      | some (.file content) => { state := tree.put place (.file (change content)) }
      | none => { state := tree.put place (.file (change [])) }

def write (tree : FileTree) (path : Path) (content : Bytes) : Change :=
  tree.modify path fun _ => content

def append (tree : FileTree) (path : Path) (content : Bytes) : Change :=
  tree.modify path (· ++ content)

def makeDirectory (tree : FileTree) (path : Path) : Change :=
  match tree.place path with
  | .error fault => tree.failing fault path
  | .ok place =>
      match tree.nodeAt? place with
      | some _ => tree.failing .alreadyExists path
      | none => { state := tree.put place .directory }

/-- Makes a directory, unless one is there. -/
def ensureDirectory (tree : FileTree) (path : Path) : Change :=
  match tree.hasDirectory path with
  | .ok true => { state := tree }
  | _ => tree.makeDirectory path

/-- Makes a directory and as many of those on the way to it as the number says, each unless it is
there. -/
def ensureDirectoriesUpTo (tree : FileTree) (path : Path) : Nat → Change
  | 0 => tree.ensureDirectory path
  | count + 1 =>
      match (tree.makeDirectory path).error with
      | some ⟨.notFound, _⟩ =>
          -- a directory on the way is missing
          (tree.ensureDirectoriesUpTo path.parent count).andThen fun after =>
            after.ensureDirectory path
      | _ => tree.ensureDirectory path

/-- Makes a directory and all directories on the way to it, each unless it is there. -/
def ensureDirectories (tree : FileTree) (path : Path) : Change :=
  tree.ensureDirectoriesUpTo path path.names.length

end FileTree

end Retouch
