import Retouch.CommandLine.Arguments
import Retouch.CommandLine.Help
import Retouch.CommandLine.Size
import Retouch.Preset
import Retouch.Source.DryRun
import Retouch.Text.Order

/-!
# Commands

The commands of the command line. The first argument that is no option names the command; all
arguments behind it are its own.
-/

namespace Retouch

/-- What a run is asked for. Its options may have been left without their values. -/
structure RunOptions where
  image : Option Text
  vibe : Option Text
  target : Option Text
  /-- The file for the events; without one it stands beside the output. -/
  events : Option Text := none
  source : Option Text := some DryRun.name
  isExport : Bool := false
  deriving DecidableEq

inductive Command where
  | validate (text : Text)
  | split (text : Text)
  /-- Shows the effects of a command text, or the text rebuilt from them. -/
  | effects (text : Text) (rebuilds : Bool)
  | invoke (text : Text) (size : Option Size) (isExport : Bool)
  /-- Lists the presets of a catalog, or all. -/
  | presets (catalog : Option Text)
  | run (options : RunOptions)
  deriving DecidableEq

namespace Command

open Arguments

inductive Request where
  | help (text : Text)
  | misuse
  | nothing
  | command (command : Command)

def rebuildOption : Text := "--reconstruct"

def sizeOption : Text := "--size"

def exportOption : Text := "--export"

def catalogOption : Text := "--catalog"

def imageOption : Text := "--image"

def vibeOption : Text := "--vibe"

def targetOption : Text := "--out"

def eventsOption : Text := "--events"

def sourceOption : Text := "--source"

def switch (name : Text) : OptionForm :=
  { name, meaning := .switch }

def anyValue (name : Text) (isRequired : Bool) : OptionForm :=
  { name, meaning := .value fun _ => true, isRequired }

def isSize (text : Text) : Bool :=
  (Size.read text).toOption.isSome

def isCatalog (text : Text) : Bool :=
  (Record.get? text Preset.catalogs).isSome

/-- A command as it is called: its name, its arguments, its help and what it becomes. -/
structure Form where
  name : Text
  grammar : Grammar
  help : Text
  build : Taken → Option Command

def forms : List Form :=
  [{ name := "validate"
     grammar := { options := [], takesText := true }
     help := Help.ofTextCommand "validate"
     build := fun taken => return .validate (← taken.text) },
   { name := "split"
     grammar := { options := [], takesText := true }
     help := Help.ofTextCommand "split"
     build := fun taken => return .split (← taken.text) },
   { name := "effects"
     grammar := { options := [switch rebuildOption], takesText := true }
     help := Help.effects
     build := fun taken => return .effects (← taken.text) (taken.has rebuildOption) },
   { name := "invoke"
     grammar :=
       { options :=
           [{ name := sizeOption, meaning := .value isSize, isRequired := true },
             switch exportOption]
         takesText := true }
     help := Help.invoke
     build := fun taken => do
       let size := (taken.value? sizeOption).bind fun value => (Size.read value).toOption
       return .invoke (← taken.text) size (taken.has exportOption) },
   { name := "presets"
     grammar :=
       { options := [{ name := catalogOption, meaning := .value isCatalog }], takesText := false }
     help := Help.presets
     build := fun taken => some (.presets (taken.value? catalogOption)) },
   { name := "run"
     grammar :=
       { options :=
           [anyValue imageOption true, anyValue vibeOption true, anyValue targetOption true,
             anyValue eventsOption false, anyValue sourceOption false, switch exportOption]
         takesText := false }
     help := Help.run
     build := fun taken => some (.run
       { image := taken.value? imageOption
         vibe := taken.value? vibeOption
         target := taken.value? targetOption
         events := taken.value? eventsOption
         source := if taken.has sourceOption then taken.value? sourceOption else some DryRun.name
         isExport := taken.has exportOption }) }]

/-- What is asked for by the arguments of a command; something before the name of the command may
have been out of place. -/
def requestOf (form : Form) (hasExtra : Bool) (arguments : List Text) : Request :=
  match Arguments.read form.grammar arguments with
  | .help => .help form.help
  | .misuse => .misuse
  | .taken taken =>
      if hasExtra then .misuse
      else match form.build taken with
        | some command => .command command
        | none => .misuse

/-- What is asked for by arguments, given whether something before them was out of place. -/
def readFrom (hasExtra : Bool) : List Text → Request
  | [] => if hasExtra then .misuse else .nothing
  | argument :: rest =>
      if argument = separator then
        .misuse
      else
        match classify helpOptions argument with
        | none => .misuse
        | some .separator => .misuse
        | some .unknown => readFrom true rest
        | some (.option _ none) => .help Help.program
        | some (.option form (some attached)) =>
            if isRepeatedHelp form attached then .help Help.program else .misuse
        | some (.plain name) =>
            match forms.find? (·.name == name) with
            | some form => requestOf form hasExtra rest
            | none => .misuse

def read (arguments : List Text) : Request :=
  readFrom false arguments

end Command

end Retouch
