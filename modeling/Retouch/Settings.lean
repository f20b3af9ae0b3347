import Retouch.Environment
import Retouch.Invocation

/-!
# Settings

The settings of a run are read from the environment. A setting that cannot be read is replaced by
its usual value, with one exception: a seed that has the form of an integer has to be one.
-/

namespace Retouch

structure Settings where
  binary : Text := Invocation.program
  /-- The greatest length of a side of an image. -/
  maxDimension : Int := 1280
  /-- Whether hard edges are kept when an image is made smaller. -/
  keepsEdges : Bool := true
  seed : Option Int := none
  deriving DecidableEq

namespace Settings

def binaryVariable : Text := "ALCHEMY_MAGICK_BINARY"

def seedVariable : Text := "ALCHEMY_SEED"

def maxDimensionVariable : Text := "ALCHEMY_MAX_DIMENSION"

def keepsEdgesVariable : Text := "ALCHEMY_RETRO"

/-- Whether a text has the form of a seed: digits of any form after any number of minus signs. -/
def isSeedForm (text : Text) : Bool :=
  let digits := text.dropWhile (· == '-')
  !digits.isEmpty && digits.all Text.isDigitForm

def seedOf (text : Text) : Except IntegerError (Option Int) :=
  if isSeedForm text then (Integer.read text).map some else .ok none

/-- The program that a text names; no name stands for the usual program. -/
def binaryOf (text : Text) : Text :=
  if text.isEmpty then Invocation.program else text

def ofEnvironment (environment : Environment) : Except IntegerError Settings := do
  let usual : Settings := {}
  let seed ← seedOf (environment.trimmed seedVariable)
  return {
    binary := binaryOf (environment.trimmed binaryVariable)
    maxDimension := max 1 (environment.integer maxDimensionVariable usual.maxDimension)
    keepsEdges := environment.flag keepsEdgesVariable usual.keepsEdges
    seed }

end Settings

end Retouch
