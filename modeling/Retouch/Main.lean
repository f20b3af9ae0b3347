import Retouch.CommandLine.Perform
import Std.Time.Format

/-!
# The executable

The executable takes the files that a command may look at from the machine, performs the command,
and puts the files that have changed back. It has neither a library of pictures nor an engine
program at hand: no image can be decoded, and a job would end as one whose program is not there.
-/

namespace Retouch.Executable

/-- The place that names lead to from a place. -/
def placeFrom (start : Place) (names : List Text) : Place :=
  names.foldl
    (fun place name => if name = Path.toParent then place.dropLast else place ++ [name]) start

def placeOf (directory : Place) (path : Path) : Place :=
  placeFrom (if path.root.isEmpty then directory else []) path.names

def pathOf (place : Place) : Path :=
  { root := "/", names := place }

/-- The place and all places on the way to it. -/
def placesTo (place : Place) : List Place :=
  (List.range (place.length + 1)).map place.take

/-- The paths that an argument may name: what it is as a whole, what stands behind its equals sign,
and the event file beside each. -/
def pathsOf (argument : Text) : List Path :=
  let paths := (argument :: (Text.after? '=' argument).toList).map Path.ofText
  paths ++ paths.map fun path => path.parent.child Run.eventsName

def placesFor (directory : Place) (arguments : List Text) : List Place :=
  let beside := (pathOf directory).ancestors.flatMap fun path =>
    [path.child Dotenv.fileName, path.child Project.fileName, path.child Project.packageName]
  (beside ++ arguments.flatMap pathsOf).flatMap fun path => placesTo (placeOf directory path)

def nodeAt? (place : Place) : IO (Option FileNode) := do
  try
    let path := (← IO.currentDir) / String.ofList (pathOf place).text
    if ← path.isDir then
      return some .directory
    else if ← path.pathExists then
      return some (.file (← IO.FS.readBinFile path).toList)
    else
      return none
  catch _ =>
    return none

def filesAt (directory : Place) (places : List Place) : IO FileTree := do
  let mut tree : FileTree := { workingDirectory := directory }
  for place in places do
    if let some node ← nodeAt? place then
      tree := tree.put place node
  return tree

def putBack (place : Place) : FileNode → IO Unit
  | .directory => IO.FS.createDirAll (String.ofList (pathOf place).text)
  | .file content =>
      IO.FS.writeBinFile (String.ofList (pathOf place).text) (ByteArray.mk content.toArray)

/-- Puts what has changed on the machine. -/
def putBackChanges (before after : FileTree) : IO Unit := do
  for (place, node) in after.nodes do
    if before.nodeAt? place != some node then
      putBack place node

/-- The variables of the environment that the program reads, as far as they are set. -/
def environment : IO Environment := do
  let names := [Settings.binaryVariable, Settings.seedVariable, Settings.maxDimensionVariable,
    Settings.keepsEdgesVariable]
  let found ← names.mapM fun name => do
    let value ← IO.getEnv (String.ofList name)
    return value.map fun text => (name, text.toList)
  return found.filterMap id

def stamp : IO Text := do
  let now ← Std.Time.Timestamp.now
  return (Std.Time.DateTime.ofTimestamp now Std.Time.TimeZone.ZoneRules.UTC).toISO8601String.toList

def randomDigits (count : Nat) : IO Text := do
  let bytes ← IO.getRandomBytes (USize.ofNat count)
  return bytes.toList.flatMap fun byte => Text.hexDigits 2 byte.toNat

def valueOf (digits : Text) : Nat :=
  digits.foldl (fun value digit => value * 16 + (Json.hexValue? digit).getD 0) 0

def run (arguments : List String) : IO UInt32 := do
  let words := arguments.map String.toList
  let directory := (Path.ofText (← IO.currentDir).toString.toList).names
  let before ← filesAt directory (placesFor directory words)
  let world : World :=
    { files := before
      environment := ← environment
      engine := .missing
      pictures := .missing
      clock := ⟨← stamp, .ofDecimal false 0 0, "0.00s"⟩
      session := ← randomDigits 16
      entropy := valueOf (← randomDigits 8) }
  let performance := Program.perform world words
  IO.print (String.ofList performance.printed)
  putBackChanges before performance.files
  match performance.ending with
  | .ok code => return code.toNat.toUInt32
  | .error breakdown =>
      IO.eprintln (String.ofList breakdown.message)
      return 1

end Retouch.Executable

def main (arguments : List String) : IO UInt32 :=
  Retouch.Executable.run arguments
