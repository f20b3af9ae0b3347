import Retouch.Effect.Basic
import Retouch.Flag.Rule

/-!
# Families of effects

The flags that an editor knows belong to families: a family says which slots an operation has and
with which labels, ranges and options. A flag without a family is kept as it is, with its arguments
as one verbatim text.
-/

namespace Retouch

/-- One number of a list of numbers. -/
structure NumberRange where
  label : Text
  minimum : Number
  maximum : Number
  step : Number
  unit : Text := []
  deriving DecidableEq

/-- How an operation is taken apart into slots and put together again. -/
inductive Family where
  | toggle (name : Text) (isScoped : Bool) (command : Option Text)
  | amount (range : NumberRange) (isScoped : Bool)
  /-- An operation with numbers in a row, each with the value that stands for a missing one. -/
  | amounts (name : Text) (parts : List (NumberRange × Number))
  /-- A morphology operation: a method, a kernel and the two sizes of the kernel. -/
  | morphology
  | method (name : Text) (methods : List Text) (isNumeric : Bool)
  | choice (name label : Text) (options : List Text)
  | color (name label : Text)
  | freeText (name label : Text)
  | channelReset
  | generic
  deriving DecidableEq

namespace Family

def tenths (count : Nat) : Number :=
  .ofDecimal false count (-1)

def hundredths (count : Nat) : Number :=
  .ofDecimal false count (-2)

/-- A switch without a channel selection. -/
def switch (name : Text) : Family :=
  .toggle name false none

def slider (label : Text) (minimum maximum step : Number) (unit : Text) : Family :=
  .amount ⟨label, minimum, maximum, step, unit⟩ false

def switches : List (Text × Family) :=
  [("negate", .toggle "Negate" true none),
   ("grayscale", .toggle "Grayscale" false (some "-colorspace Gray")),
   ("monochrome", switch "Monochrome"),
   ("auto-level", switch "Auto Level"),
   ("auto-gamma", switch "Auto Gamma"),
   ("normalize", switch "Normalize"),
   ("despeckle", switch "Despeckle"),
   ("flip", switch "Flip"),
   ("flop", switch "Flop"),
   ("trim", switch "Trim")]

def sliders : List (Text × Family) :=
  [("charcoal", slider "Charcoal" 0 10 (tenths 1) []),
   ("swirl", slider "Swirl" (.int (-360)) 360 5 []),
   ("implode", slider "Implode" (.int (-2)) 2 (hundredths 5) []),
   ("solarize", slider "Solarize" 0 100 1 "%"),
   ("blue-shift", slider "Blue Shift" 0 5 (hundredths 5) []),
   ("blur", slider "Blur" 0 20 (tenths 5) []),
   ("sepia-tone", slider "Sepia" 0 100 1 "%"),
   ("posterize", slider "Posterize" 2 64 1 []),
   ("edge", .amount ⟨"Edge", 0, 20, tenths 5, []⟩ true),
   ("emboss", slider "Emboss" 0 10 (tenths 5) []),
   ("colors", slider "Colors" 2 256 1 []),
   ("attenuate", slider "Attenuate" 0 5 (tenths 1) []),
   ("threshold", slider "Threshold" 0 100 1 "%"),
   ("spread", slider "Spread" 0 50 1 []),
   ("tint", slider "Tint Amount" 0 100 1 "%"),
   ("sample", slider "Sample" 1 2000 1 [])]

def structured : List (Text × Family) :=
  [("modulate", .amounts "Modulate"
     [(⟨"Bright", 0, 200, 1, "%"⟩, 100),
      (⟨"Sat", 0, 300, 1, "%"⟩, 100),
      (⟨"Hue", 0, 200, 1, "%"⟩, 100)]),
   ("sigmoidal-contrast", .amounts "Contrast"
     [(⟨"Str", 0, 20, tenths 1, []⟩, 3),
      (⟨"Mid", 0, 100, 1, "%"⟩, 50)]),
   ("morphology", .morphology),
   ("distort", .method "Distort" Vocabulary.distortMethods false),
   ("function", .method "Function" Vocabulary.functionMethods false),
   ("evaluate", .method "Evaluate" Vocabulary.evaluateFunctions true)]

def choices : List (Text × Family) :=
  [("channel", .choice "Channel" "Chan" Vocabulary.channels),
   ("colorspace", .choice "Colorspace" "Space" Vocabulary.colorspaces),
   ("compose", .choice "Blend Mode" "Mode" Vocabulary.composeMethods),
   ("virtual-pixel", .choice "Virtual Pixel" "Method" Vocabulary.virtualPixelMethods),
   ("dither", .choice "Dither" "Method" Vocabulary.ditherMethods),
   ("+noise", .choice "Noise" "Type" Vocabulary.noiseTypes)]

def texts : List (Text × Family) :=
  [("fill", .color "Fill Color" "Fill"),
   ("opaque", .color "Opaque" "Target"),
   ("roll", .freeText "Roll" "Geometry"),
   ("wave", .freeText "Wave" "Geometry"),
   ("lat", .freeText "Lat" "Geometry"),
   ("fx", .freeText "FX Math" "Expr"),
   ("level", .freeText "Level" "Range"),
   ("contrast-stretch", .freeText "Stretch" "Range")]

/-- The families of the flags, in the order in which they are listed. -/
def table : List (Text × Family) :=
  switches ++ sliders ++ structured ++ choices ++ texts ++ [(Flag.regionClose, .channelReset)]

def ofFlag (flag : Text) : Family :=
  (table.lookup flag).getD .generic

/-- Whether an operation gets a channel selection of its own unless one is open. -/
def isScoped : Family → Bool
  | .toggle _ isScoped _ => isScoped
  | .amount _ isScoped => isScoped
  | _ => false

/-- The channels that an operation with a selection of its own works on. -/
def scopeTarget : Text := "RGB"

end Family

end Retouch
