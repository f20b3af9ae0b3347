import Retouch.Proofs.EventLog.RoundTrip

/-!
# A log as a journal

Notes that are all written to a log are found at the end of its file, one line for each, behind what
the log had before.
-/

namespace Retouch

namespace EventLog

variable {log : EventLog} {tree : FileTree} {content : Bytes} {stamp : Text}

def linesOf (log : EventLog) (stamp : Text) (notes : List Note) : Bytes :=
  Utf8.encode ((notes.map (log.event stamp)).flatMap lineOf)

theorem linesOf_append (notes others : List Note) :
    log.linesOf stamp (notes ++ others) = log.linesOf stamp notes ++ log.linesOf stamp others := by
  rw [linesOf, List.map_append, List.flatMap_append, Utf8.encode_append]
  rfl

theorem linesOf_singleton (note : Note) :
    log.linesOf stamp [note] = Utf8.encode (lineOf (log.event stamp note)) := by
  rw [linesOf, List.map_singleton, List.flatMap_singleton]

/-- What a log has: the bytes of its file, or nothing if it holds nothing. -/
def Has (log : EventLog) (tree : FileTree) (content : Bytes) : Prop :=
  tree.IsReady log.path content ∨ log.IsFresh tree ∧ content = []

theorem isReady_write (ready : tree.IsReady log.path content) (note : Note) :
    ((log.journal stamp).write tree note).error = none ∧
      ((log.journal stamp).write tree note).state.IsReady log.path
        (content ++ log.linesOf stamp [note]) := by
  rw [linesOf_singleton]
  change (log.append tree _).error = none ∧ (log.append tree _).state.IsReady log.path _
  rw [append_of_isReady ready]
  exact ready.append _

/-- A log to which a note could be written has a file, and what it had before stands in front of the
note. -/
theorem exists_isReady_write {note : Note}
    (written : ((log.journal stamp).write tree note).error = none) :
    ∃ after, ((log.journal stamp).write tree note).state.IsReady log.path after ∧
      ∀ content, log.Has tree content → after = content ++ log.linesOf stamp [note] := by
  have isThere :
      ∃ after, (log.append tree (log.event stamp note)).state.IsReady log.path after := by
    have returns : (log.append tree (log.event stamp note)).error = none := written
    unfold append Progress.andThen at returns ⊢
    split at returns
    · next made =>
        exact FileTree.exists_isReady_append (FileTree.hasDirectory_ensureDirectories made) returns
    · next failed => simp [failed] at returns
  rcases isThere with ⟨after, ready⟩
  refine ⟨after, ready, fun content has => ?_⟩
  rcases has with isReady | ⟨fresh, rfl⟩
  · exact ready.unique (isReady_write isReady note).2
  · rw [linesOf_singleton]
    exact ready.unique (isReady_append fresh written)

/-- Notes are put behind what a log has, one after the other. -/
theorem isReady_writeAll (ready : tree.IsReady log.path content) (notes : List Note) :
    ((log.journal stamp).writeAll tree notes).state.IsReady log.path
      (content ++ log.linesOf stamp notes) := by
  induction notes generalizing tree content with
  | nil =>
      change tree.IsReady log.path (content ++ [])
      rwa [List.append_nil]
  | cons note notes ih =>
      rcases isReady_write ready note with ⟨written, readyAfter⟩
      have later := ih readyAfter
      rw [List.append_assoc, ← linesOf_append] at later
      unfold Journal.writeAll Progress.andThen
      rw [written]
      exact later

/-- A log to which some notes could be written has a file with their lines at its end. -/
theorem exists_isReady_writeAll {notes : List Note} (some : notes ≠ [])
    (written : ((log.journal stamp).writeAll tree notes).error = none) :
    ∃ after, ((log.journal stamp).writeAll tree notes).state.IsReady log.path after ∧
      ∀ content, log.Has tree content → after = content ++ log.linesOf stamp notes := by
  cases notes with
  | nil => exact absurd rfl some
  | cons note notes =>
      unfold Journal.writeAll Progress.andThen at written ⊢
      split at written
      · next first =>
          rcases exists_isReady_write first with ⟨front, ready, behind⟩
          refine ⟨_, isReady_writeAll ready notes, fun content has => ?_⟩
          rw [behind content has, List.append_assoc, ← linesOf_append]
          rfl
      · next failed => simp [failed] at written

end EventLog

end Retouch
