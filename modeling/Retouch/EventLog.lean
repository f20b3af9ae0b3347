import Retouch.Files.Tree
import Retouch.Journal
import Retouch.Json.Parser
import Retouch.Json.Printer
import Retouch.Text.Blank
import Retouch.Text.Line

/-!
# Event logs

An event log is a file to which events are only ever added, one JSON object on each line. An event
has a type, the session in which it happened and a time stamp, followed by its details; a detail of
one of these three names takes the place of the value. Reading skips the lines that are blank.
-/

namespace Retouch

/-- An event: named values, the type first. -/
abbrev Event := Record Json

/-- Where the events of a session are kept. -/
structure EventLog where
  path : Path
  session : Text
  deriving DecidableEq

namespace EventLog

def event (log : EventLog) (stamp : Text) (note : Note) : Event :=
  Record.setAll
    [("type", .string note.kind), ("session_id", .string log.session), ("ts", .string stamp)]
    note.details

def lineOf (event : Event) : Text :=
  Json.line (.object event) ++ ['\n']

/-- Puts an event at the end of the log; the directories on the way to it are made first. -/
def append (log : EventLog) (tree : FileTree) (event : Event) : FileTree.Change :=
  (tree.ensureDirectories log.path.parent).andThen fun ready =>
    ready.append log.path (Utf8.encode (lineOf event))

inductive ReadError where
  | file (error : FileError)
  | encoding (error : Utf8.DecodeError)
  | json (error : Json.ReadError)

def ReadError.message : ReadError → Text
  | .file error => error.message
  | .encoding error => error.message
  | .json error => error.message

/-- The values on the lines of a text that are not blank. -/
def readLines : List Text → Except Json.ReadError (List Json)
  | [] => .ok []
  | line :: lines =>
      if Text.isAllBlank line then readLines lines
      else do
        let value ← Json.read line
        return value :: (← readLines lines)

def readText (text : Text) : Except Json.ReadError (List Json) :=
  readLines (Text.lines (Text.withLineFeeds text))

/-- The values in a log; a log that is not there has none. -/
def read (log : EventLog) (tree : FileTree) : Except ReadError (List Json) := do
  if ← (tree.has log.path).mapError .file then
    let bytes ← (tree.read log.path).mapError .file
    let text ← (Utf8.decode bytes).mapError .encoding
    (readText text).mapError .json
  else
    return []

/-- The log as a journal in which every note is written at a given time. -/
def journal (log : EventLog) (stamp : Text) : Journal FileTree FileError :=
  ⟨fun tree note => log.append tree (log.event stamp note)⟩

end EventLog

end Retouch
