import Retouch.Json.Basic
import Retouch.Progress

/-!
# Journals

What happens during a run is noted in a journal, one note after the other. A journal may be a list
in memory or a file; writing to it may fail.
-/

namespace Retouch

/-- A note: what happened, and its details. -/
structure Note where
  kind : Text
  details : List (Text × Json)

namespace Note

def presetMatched (vibe preset : Text) : Note :=
  ⟨"preset_matched", [("vibe", .string vibe), ("preset", .string preset)]⟩

def generationFailed (vibe source error : Text) : Note :=
  ⟨"generation_failed",
    [("vibe", .string vibe), ("source", .string source), ("error", .string error)]⟩

def commandGenerated (vibe source command : Text) : Note :=
  ⟨"command_generated",
    [("vibe", .string vibe), ("source", .string source), ("command", .string command)]⟩

def validationStripped (reasons : List Text) : Note :=
  ⟨"validation_stripped", [("stripped", .list (reasons.map .string))]⟩

def validationFallback (command : Text) : Note :=
  ⟨"validation_fallback", [("command", .string command)]⟩

def entriesPushed (ids : List Int) : Note :=
  ⟨"entries_pushed", [("count", .int ids.length), ("ids", .list (ids.map .int))]⟩

/-- The engine finished, and its output was kept. -/
def engineFinished (arguments : List Text) (elapsed : Number) (target : Text) : Note :=
  ⟨"engine_finished",
    [("args", .list (arguments.map .string)), ("elapsed_s", .number elapsed),
      ("out", .string target)]⟩

/-- The engine failed, or its output could not be kept. -/
def engineFailed (error output : Text) : Note :=
  ⟨"engine_failed", [("error", .string error), ("stderr", .string output)]⟩

end Note

/-- A way of keeping notes in a state. -/
structure Journal (State Error : Type) where
  write : State → Note → Progress State Error

namespace Journal

/-- Writes notes in order; after a failure nothing more is written. -/
def writeAll {State Error : Type} (journal : Journal State Error) (state : State) :
    List Note → Progress State Error
  | [] => { state }
  | note :: notes => (journal.write state note).andThen fun after => journal.writeAll after notes

/-- The journal that keeps its notes in a list and never fails. -/
def inMemory (Error : Type) : Journal (List Note) Error :=
  ⟨fun notes note => { state := notes ++ [note] }⟩

end Journal

end Retouch
