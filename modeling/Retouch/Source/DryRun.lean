import Retouch.Command.Segment
import Retouch.Preset
import Retouch.Source.Twister
import Retouch.Text.Order

/-!
# The built-in source

For each request one of the finished effects is drawn, among those with at most as many operations
as asked for, or among all if there is none, and streamed in chunks of a fixed size.
-/

namespace Retouch

structure DryRun where
  twister : Twister
  chunkSize : Nat

namespace DryRun

def name : Text := "dryrun"

def defaultChunkSize : Int := 12

/-- The source of a seed, with chunks of at least one character. -/
def ofSeed (seed : Nat) (chunkSize : Int := defaultChunkSize) : DryRun :=
  ⟨.ofSeed seed, (max 1 chunkSize).toNat⟩

/-- All commands that can be drawn, in order. -/
def commands : List Text :=
  Text.sort (Preset.ready.map (·.2))

/-- The commands with at most a number of operations, or all if there is none. -/
def candidates (maxOperations : Int) : List Text :=
  let within := commands.filter fun command =>
    ((Segment.split command).length : Int) ≤ maxOperations
  if within.isEmpty then commands else within

/-- A text in chunks of at most a number of characters. -/
def chunks (size : Nat) (text : Text) : List Text :=
  if text.isEmpty ∨ size = 0 then []
  else text.take size :: chunks size (text.drop size)
termination_by text.length
decreasing_by
  cases text with
  | nil => simp at *
  | cons c text => simp only [List.length_drop, List.length_cons]; omega

/-- The chunks for a request with at most a number of operations, and the source after it. -/
def stream (source : DryRun) (maxOperations : Int) : List Text × DryRun :=
  let choices := candidates maxOperations
  let (position, after) := source.twister.below choices.length
  (chunks source.chunkSize (choices[position]?.getD []), { source with twister := after })

end DryRun

end Retouch
