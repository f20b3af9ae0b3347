import Retouch.CommandLine.Run
import Retouch.Environment.Dotenv
import Retouch.Json.Printer
import Retouch.Report

/-!
# The program

The program loads the file of variables and then does what it is asked for on the command line. A
command line that is not as it should be ends with code two, and one that asks for nothing with the
help of the program and code one.
-/

namespace Retouch.Program

/-- What comes of a command that prints a text and leaves the files alone. -/
def printing (world : World) (text : Text) : Performance :=
  { printed := text, ending := .ok 0, files := world.files }

def printingOr (world : World) : Except RangeError Text → Performance
  | .ok text => printing world text
  | .error error => { ending := .error (.range error), files := world.files }

/-- The validated command and the reasons for what was removed from it. -/
def validation (text : Text) : Text :=
  let result := Validation.ofText text
  printedLine result.command ++ result.stripped.flatMap fun reason =>
    printedLine ("Stripped: " ++ reason)

def segments (text : Text) : Text :=
  (Segment.split text).flatMap fun part => printedLine (part.label ++ ['\t'] ++ part.command)

def effects (text : Text) : Text :=
  printedLine (Json.lines (Report.ofEffects (Effect.ofCommand text)))

def rebuilt (text : Text) : Except RangeError Text :=
  (Effect.toCommand (Effect.ofCommand text)).map printedLine

def invocation (text : Text) (size : Size) (isExport : Bool) : Text :=
  printedLine (Invocation.commandLine (Invocation.build text size.width size.height isExport))

def catalog (name : Text) (presets : Record Text) : Text :=
  printedLine ("[" ++ name ++ "]") ++ presets.flatMap fun (preset, command) =>
    printedLine ("  " ++ preset ++ ": " ++ command)

def presets (chosen : Option Text) : Text :=
  (Preset.catalogs.filter fun (name, _) => chosen.isNone || chosen == some name).flatMap
    fun (name, entries) => catalog name entries

def performCommand (world : World) : Command → Performance
  | .validate text => printing world (validation text)
  | .split text => printing world (segments text)
  | .effects text rebuilds =>
      if rebuilds then printingOr world (rebuilt text) else printing world (effects text)
  | .invoke text (some size) isExport => printing world (invocation text size isExport)
  | .invoke _ none _ => { ending := .error (.valueless .size), files := world.files }
  | .presets chosen => printing world (presets chosen)
  | .run options => Run.perform world options

def performRequest (world : World) : Command.Request → Performance
  | .help text => printing world text
  | .misuse => { ending := .ok 2, files := world.files }
  | .nothing => { printed := Help.program, ending := .ok 1, files := world.files }
  | .command command => performCommand world command

/-- The working directory as a path from the top. -/
def workingDirectory (world : World) : Path :=
  { root := "/", names := world.files.workingDirectory }

def perform (world : World) (arguments : List Text) : Performance :=
  match Dotenv.loadDefault world.files (workingDirectory world) false world.environment with
  | (_, .error error) => { ending := .error (.variables error), files := world.files }
  | (environment, .ok _) => performRequest { world with environment } (Command.read arguments)

end Retouch.Program
