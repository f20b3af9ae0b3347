import Retouch.EventLog
import Retouch.Proofs.Files.Appending
import Retouch.Proofs.Json.RoundTrip
import Retouch.Proofs.Text.Utf8

/-!
# Reading an event log back

Events are put at the end of a log one after the other, each on a line of its own. The line of an
event has visible characters only, so the lines of the file are the lines of the events, and each of
them means its event. A log that held nothing therefore holds exactly the events that were put into
it.
-/

namespace Retouch

namespace EventLog

/-- Writes notes at given times, one after the other: what comes of it, and the events that the
calls return. A call that fails returns no event and is the last one. -/
def emitAll (log : EventLog) (tree : FileTree) : List (Text × Note) →
    FileTree.Change × List Event
  | [] => ({ state := tree }, [])
  | (stamp, note) :: calls =>
      let event := log.event stamp note
      let change := log.append tree event
      match change.error with
      | none =>
          let (later, events) := log.emitAll change.state calls
          (later, event :: events)
      | some _ => (change, [])

/-- Whether a log holds nothing: its file is missing or empty, and so it is once the directories on
the way to it are made. Making them can lead a path elsewhere only if it goes through a missing
directory and back. -/
structure IsFresh (log : EventLog) (tree : FileTree) : Prop where
  before : tree.HoldsNothing log.path
  after : (tree.ensureDirectories log.path.parent).state.HoldsNothing log.path

def eventsOf (log : EventLog) (calls : List (Text × Note)) : List Event :=
  calls.map fun call => log.event call.1 call.2

variable {log : EventLog} {tree : FileTree} {content : Bytes} {event : Event} {events : List Event}

/-! ## The file -/

theorem append_of_isReady (ready : tree.IsReady log.path content) :
    log.append tree event = tree.append log.path (Utf8.encode (lineOf event)) := by
  rw [append, FileTree.ensureDirectories_of_hasDirectory ready.parent]
  rfl

/-- The first event of a log that holds nothing is all that its file has. -/
theorem isReady_append (fresh : log.IsFresh tree) (returns : (log.append tree event).error = none) :
    (log.append tree event).state.IsReady log.path (Utf8.encode (lineOf event)) := by
  unfold append Progress.andThen at returns ⊢
  split at returns
  · next made =>
      exact FileTree.isReady_append (FileTree.hasDirectory_ensureDirectories made)
        fresh.after returns
  · next failed => simp [failed] at returns

/-- A log that held nothing holds nothing if its first event cannot be written. -/
theorem holdsNothing_append (fresh : log.IsFresh tree) {error : FileError}
    (failed : (log.append tree event).error = some error) :
    (log.append tree event).state.HoldsNothing log.path := by
  have holdsNothing := fresh.after
  unfold append Progress.andThen at failed ⊢
  split at failed
  · rwa [FileTree.state_append_of_error failed]
  · exact holdsNothing

theorem emitAll_cons {stamp : Text} {note : Note}
    (returns : (log.append tree (log.event stamp note)).error = none)
    (calls : List (Text × Note)) : log.emitAll tree ((stamp, note) :: calls) =
      ((log.emitAll (log.append tree (log.event stamp note)).state calls).1,
        log.event stamp note ::
          (log.emitAll (log.append tree (log.event stamp note)).state calls).2) := by
  simp only [emitAll, returns]

theorem emitAll_of_isReady (ready : tree.IsReady log.path content) (calls : List (Text × Note)) :
    (log.emitAll tree calls).1.error = none ∧ (log.emitAll tree calls).2 = log.eventsOf calls ∧
      (log.emitAll tree calls).1.state.IsReady log.path
        (content ++ Utf8.encode ((log.eventsOf calls).flatMap lineOf)) := by
  induction calls generalizing tree content with
  | nil =>
      refine ⟨rfl, rfl, ?_⟩
      change tree.IsReady log.path (content ++ [])
      rwa [List.append_nil]
  | cons call calls ih =>
      rcases call with ⟨stamp, note⟩
      rcases ready.append (Utf8.encode (lineOf (log.event stamp note))) with
        ⟨returns, readyAfter⟩
      rcases ih readyAfter with ⟨done, areEvents, isReady⟩
      rw [← append_of_isReady ready] at returns done areEvents isReady
      have lines : (log.eventsOf ((stamp, note) :: calls)).flatMap lineOf =
          lineOf (log.event stamp note) ++ (log.eventsOf calls).flatMap lineOf := rfl
      rw [emitAll_cons returns, areEvents, lines, Utf8.encode_append, ← List.append_assoc]
      exact ⟨done, rfl, isReady⟩

/-! ## The lines -/

/-- The names of an event are distinct, and its values are plain if its details are. -/
theorem isPlain_event (stamp : Text) {note : Note}
    (plain : ∀ detail ∈ note.details, detail.2.IsPlain) :
    Json.IsPlain (.object (log.event stamp note)) := by
  have distinct : (["type", "session_id", "ts"] : List Text).Nodup := by decide
  refine .object (Record.nodup_setAll _ distinct) fun field member => ?_
  rcases Record.mem_setAll member with isOwn | isDetail
  · simp only [List.mem_cons, List.not_mem_nil, or_false] at isOwn
    rcases isOwn with rfl | rfl | rfl <;> exact .string _
  · exact plain field isDetail

variable (plain : ∀ event ∈ events, Json.IsPlain (.object event))

include plain

theorem lines_flatMap_lineOf :
    Text.lines (events.flatMap lineOf) = events.map fun event => Json.line (.object event) := by
  have ended : events.flatMap lineOf =
      (events.map fun event => Json.line (.object event)).flatMap (· ++ ['\n']) := by
    rw [List.flatMap_map]
    rfl
  rw [ended]
  refine Text.lines_flatMap fun text member c inText => ?_
  rcases List.mem_map.mp member with ⟨event, isEvent, rfl⟩
  exact ((plain event isEvent).isVisible_line c inText).isLineBreak

theorem readLines_map :
    readLines (events.map fun event => Json.line (.object event)) =
      .ok (events.map Json.object) := by
  induction events with
  | nil => rfl
  | cons event events ih =>
      rcases List.forall_mem_cons.mp plain with ⟨here, later⟩
      have visible : Text.isAllBlank (Json.line (.object event)) = false := by
        rw [Json.line]
        rfl
      rw [List.map_cons, readLines, visible, if_neg Bool.false_ne_true,
        Json.read_line here, ih later]
      rfl

theorem mem_flatMap_lineOf {c : Char} (member : c ∈ events.flatMap lineOf) : Text.IsVisible c ∨
    c = '\n' := by
  rcases List.mem_flatMap.mp member with ⟨event, isEvent, inLine⟩
  rcases List.mem_append.mp inLine with inValue | isEnd
  · exact .inl ((plain event isEvent).isVisible_line c inValue)
  · exact .inr (List.mem_singleton.mp isEnd)

theorem read_of_isFile (isFile : tree.node? log.path =
    .ok (some (.file (Utf8.encode (events.flatMap lineOf))))) :
    log.read tree = .ok (events.map Json.object) := by
  have noReturn : '\r' ∉ events.flatMap lineOf := by
    intro member
    rcases mem_flatMap_lineOf plain member with visible | isFeed
    · exact visible.ne_return rfl
    · exact absurd isFeed (by decide)
  have isThere : tree.has log.path = .ok true := by
    rw [FileTree.has, isFile]
    rfl
  have isText : readText (events.flatMap lineOf) = .ok (events.map Json.object) := by
    rw [readText, Text.withLineFeeds_eq_self noReturn, lines_flatMap_lineOf plain,
      readLines_map plain]
  simp only [read, isThere, FileTree.read_of_isFile isFile, Utf8.decode_encode, isText,
    Except.mapError, bind, Except.bind, if_true]

omit plain

theorem read_of_holdsNothing (holdsNothing : tree.HoldsNothing log.path) :
    log.read tree = .ok [] := by
  rcases holdsNothing with isMissing | isEmpty
  · have isThere : tree.has log.path = .ok false := by
      rw [FileTree.has, isMissing]
      rfl
    rw [read, isThere]
    rfl
  · exact read_of_isFile (List.forall_mem_nil _) isEmpty

/-- If the first event can be written then all are, and the file has their lines. -/
theorem isFile_emitAll (fresh : log.IsFresh tree) (stamp : Text) (note : Note)
    (calls : List (Text × Note))
    (returns : (log.append tree (log.event stamp note)).error = none) :
    let (after, events) := log.emitAll tree ((stamp, note) :: calls)
    after.error = none ∧ events = log.eventsOf ((stamp, note) :: calls) ∧
      after.state.node? log.path = .ok (some (.file (Utf8.encode (events.flatMap lineOf)))) := by
  rcases emitAll_of_isReady (isReady_append fresh returns) calls with ⟨done, areEvents, ready⟩
  rw [← Utf8.encode_append] at ready
  rw [emitAll_cons returns, areEvents]
  exact ⟨done, rfl, ready.isFile⟩

/-- A log that held nothing holds the events that were put into it, as long as they have no floats
and no integers that are too long to be read: reading finds the events that the calls returned, each
on a line of its own. A call can fail only as the first one, and then the log still holds
nothing. -/
theorem read_emitAll (fresh : log.IsFresh tree) (calls : List (Text × Note))
    (plain : ∀ call ∈ calls, ∀ detail ∈ call.2.details, detail.2.IsPlain) :
    let (after, events) := log.emitAll tree calls
    log.read after.state = .ok (events.map Json.object) ∧
      (events ≠ [] → ∃ text, after.state.read log.path = .ok (Utf8.encode text) ∧
        Text.lines text = events.map fun event => Json.line (.object event)) ∧
      (events = [] ∨ after.error = none ∧ events = log.eventsOf calls) := by
  have arePlain : ∀ event ∈ log.eventsOf calls, Json.IsPlain (.object event) := by
    intro event member
    rcases List.mem_map.mp member with ⟨call, isCall, rfl⟩
    exact isPlain_event call.1 (plain call isCall)
  cases calls with
  | nil =>
      exact ⟨read_of_holdsNothing fresh.before, fun nonempty => absurd rfl nonempty, .inl rfl⟩
  | cons call calls =>
      rcases call with ⟨stamp, note⟩
      -- Once the first event is written the file is there, and no later call fails.
      cases outcome : (log.append tree (log.event stamp note)).error with
      | some error =>
          have last : log.emitAll tree ((stamp, note) :: calls) =
              (log.append tree (log.event stamp note), []) := by
            simp only [emitAll, outcome]
          rw [last]
          have holdsNothing := holdsNothing_append fresh outcome
          exact ⟨read_of_holdsNothing holdsNothing, fun nonempty => absurd rfl nonempty,
            .inl rfl⟩
      | none =>
          rcases isFile_emitAll fresh stamp note calls outcome with ⟨done, areEvents, isFile⟩
          rw [← areEvents] at arePlain
          exact ⟨read_of_isFile arePlain isFile,
            fun _ => ⟨_, FileTree.read_of_isFile isFile, lines_flatMap_lineOf arePlain⟩,
              .inr ⟨done, areEvents⟩⟩

/-- Two notes in a directory that is not there, with line breaks, quotes and other characters that
are escaped, and with a time stamp of their own. -/
def escapedNotes : List (Text × Note) :=
  [("first", ⟨"note", [("text", .string "a\"b\\c\n\r\u0085\u2028\u00e9\x01"),
      ("astral", .string [Char.ofNat 0x1F600])]⟩),
    ("second",
      ⟨"note",
      [("ts", .int (-5)), ("items", .list [.null, .bool true, .object [("", .list [])]])]⟩)]

theorem isPlain_escapedNotes : ∀ call ∈ escapedNotes, ∀ detail ∈ call.2.details,
    detail.2.IsPlain := by
  have isEmpty : Json.IsPlain (.object [("", .list [])]) := by
    refine .object (List.nodup_singleton _) fun field member => ?_
    rw [List.mem_singleton.mp member]
    exact .list (List.forall_mem_nil _)
  have items : ∀ item ∈ [Json.null, .bool true, .object [("", .list [])]], item.IsPlain :=
    List.forall_mem_cons.mpr
      ⟨.null, List.forall_mem_cons.mpr ⟨.bool true, List.forall_mem_singleton.mpr isEmpty⟩⟩
  refine List.forall_mem_cons.mpr ⟨?_, List.forall_mem_singleton.mpr ?_⟩
  · exact List.forall_mem_cons.mpr ⟨.string _, List.forall_mem_singleton.mpr (.string _)⟩
  · exact List.forall_mem_cons.mpr
      ⟨.int (by decide), List.forall_mem_singleton.mpr (.list items)⟩

theorem read_emitAll_escaped :
    let log : EventLog := ⟨Path.ofText "runs/events.jsonl", "session"⟩
    let (after, events) := log.emitAll {} escapedNotes
    log.read after.state = .ok (events.map Json.object) ∧
      (events ≠ [] → ∃ text, after.state.read log.path = .ok (Utf8.encode text) ∧
        Text.lines text = events.map fun event => Json.line (.object event)) ∧
      (events = [] ∨ after.error = none ∧ events = log.eventsOf escapedNotes) := by
  have fresh : IsFresh ⟨Path.ofText "runs/events.jsonl", "session"⟩ {} :=
    ⟨.inl rfl, .inl rfl⟩
  exact read_emitAll fresh escapedNotes isPlain_escapedNotes

end EventLog

end Retouch
