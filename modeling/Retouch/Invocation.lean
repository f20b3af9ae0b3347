import Retouch.Command.Cleanup
import Retouch.Command.Literal

/-!
# Engine invocations

The engine reads a buffer of known size and, for a preview, writes one back; an export writes an
image file. An invocation puts the literal arguments of the cleaned command between a fixed
beginning, which describes the input, and a fixed end, which describes the output. A preview always
comes back in the size of the input, so that its bytes need no header.
-/

namespace Retouch.Invocation

/-- The name of the engine in an invocation. -/
def program : Text := "convert"

/-- The file that holds the input buffer. -/
def inputFile : Text := "source.rgba"

/-- The file that a preview is written to. -/
def previewFile : Text := "out.rgba"

/-- The file that an export is written to. -/
def exportFile : Text := "out.jpg"

/-- The operation that stands for an empty command. -/
def fallback : Text := "-negate"

def geometry (width height : Int) : Text :=
  Decimal.integerText width ++ "x" ++ Decimal.integerText height

def inputStage (width height : Int) : List Text :=
  [program, "-size", geometry width height, "-depth", "8", inputFile]

def outputStage (width height : Int) (isExport : Bool) : List Text :=
  if isExport then
    ["-quality", "90", exportFile]
  else
    ["-filter", "Point", "-resize", geometry width height ++ "!", "-depth", "8", previewFile]

/-- The arguments that a command gives to an invocation. -/
def userStage (command : Text) : List Text :=
  let cleaned := Cleanup.forEngine command
  Literal.split (if cleaned.isEmpty then fallback else cleaned)

/-- The arguments of the engine, its name first. -/
def build (command : Text) (width height : Int) (isExport : Bool) : List Text :=
  inputStage width height ++ userStage command ++ outputStage width height isExport

/-- An argument as a command line shows it: between double quotes if it holds a separator. -/
def shownArgument (argument : Text) : Text :=
  if argument.any Token.isSeparator then '\x22' :: argument ++ ['\x22'] else argument

def commandLine (arguments : List Text) : Text :=
  Text.unwords (arguments.map shownArgument)

end Retouch.Invocation
