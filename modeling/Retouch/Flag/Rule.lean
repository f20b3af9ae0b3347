import Retouch.Flag.Vocabulary

/-!
# Flags and their rules

A flag names an operation of the engine. Most flags have a rule that says how many arguments they
take and which words their first and second argument may be. Only the flags of the allow-list may
reach the engine; a few of them have no rule, and their arguments are not checked.
-/

namespace Retouch.Flag

/-- What arguments a flag takes. -/
structure Rule where
  flag : Text
  arity : Nat
  /-- The words that the first argument may be, if they are limited. -/
  firstValues : Option (List Text) := none
  /-- The words that the second argument may be, if they are limited. -/
  secondValues : Option (List Text) := none
  /-- Whether the first argument is checked without what follows its first colon. -/
  cutsSuffix : Bool := false
  deriving DecidableEq

def withoutArgument : List Text :=
  ["-negate", "-auto-level", "-auto-gamma", "-normalize", "-despeckle", "-strip", "-flip",
   "-flop", "+repage", "-composite", "+channel", "+clone", "-trim", "-monochrome"]

def withOneArgument : List Text :=
  ["-seed", "-spread", "-implode", "-swirl", "-resize", "-filter", "-charcoal", "-solarize",
   "-blue-shift", "-sepia-tone", "-posterize", "-edge", "-emboss", "-blur", "-gaussian-blur",
   "-motion-blur", "-radial-blur", "-adaptive-blur", "-adaptive-sharpen", "-sharpen", "-median",
   "-paint", "-sketch", "-vignette", "-threshold", "-black-threshold", "-white-threshold",
   "-gamma", "-rotate", "-roll", "-contrast-stretch", "-brightness-contrast", "-level", "-canny",
   "-define", "-crop", "-clone", "-delete", "-layers", "-fx", "-wave", "-liquid-rescale",
   "-sample", "-attenuate", "-colors", "-dither", "-sigmoidal-contrast", "-lat", "-alpha",
   "-fill", "-tint", "-modulate", "-opaque"].map String.toList

def rules : List Rule :=
  withoutArgument.map (fun flag => { flag, arity := 0 }) ++
  withOneArgument.map (fun flag => { flag, arity := 1 }) ++
  [{ flag := "-statistic", arity := 2 },
   { flag := "-colorspace", arity := 1, firstValues := some Vocabulary.colorspaces },
   { flag := "-channel", arity := 1, firstValues := some Vocabulary.channels },
   { flag := "-compose", arity := 1, firstValues := some Vocabulary.composeMethods },
   { flag := "-virtual-pixel", arity := 1, firstValues := some Vocabulary.virtualPixelMethods },
   { flag := "+noise", arity := 1, firstValues := some Vocabulary.noiseTypes },
   { flag := "-morphology", arity := 2,
     firstValues := some Vocabulary.morphologyMethods,
     secondValues := some Vocabulary.morphologyKernels,
     cutsSuffix := true },
   { flag := "-evaluate", arity := 2, firstValues := some Vocabulary.evaluateFunctions },
   { flag := "-distort", arity := 2, firstValues := some Vocabulary.distortMethods },
   { flag := "-function", arity := 2, firstValues := some Vocabulary.functionMethods }]

/-- The allowed flags without a rule. -/
def passthrough : List Text :=
  ["-auto-orient", "+dither"]

def allowed : List Text :=
  ["-seed", "-spread", "-implode", "-swirl", "-resize", "-crop", "-trim", "+repage", "-rotate",
   "-flip", "-flop", "-filter", "-colorspace", "-channel", "+channel", "-negate", "-auto-level",
   "-auto-gamma", "-normalize", "-contrast-stretch", "-brightness-contrast", "-gamma", "-level",
   "-threshold", "-black-threshold", "-white-threshold", "-modulate", "-fill", "-tint",
   "-sigmoidal-contrast", "-monochrome", "-colors", "-dither", "-opaque", "-evaluate",
   "-function", "-charcoal", "-solarize", "-blue-shift", "-sepia-tone", "-posterize", "-edge",
   "-emboss", "-blur", "-gaussian-blur", "-motion-blur", "-adaptive-blur", "-adaptive-sharpen",
   "-sharpen", "-despeckle", "-median", "-paint", "-sketch", "-vignette", "-wave", "-lat",
   "-statistic", "-fx", "+noise", "-morphology", "-canny", "-clone", "+clone", "-delete",
   "-layers", "-compose", "-composite", "-roll", "-virtual-pixel", "-distort", "-define",
   "-strip", "-sample", "-attenuate", "-alpha"].map String.toList ++
  passthrough

def isAllowed (flag : Text) : Bool :=
  allowed.contains flag

def rule? (flag : Text) : Option Rule :=
  rules.find? (·.flag == flag)

/-- The number of arguments of a flag; a flag without a rule counts as taking none. -/
def arity (flag : Text) : Nat :=
  ((rule? flag).map (·.arity)).getD 0

def regionOpen : Text := "-channel"

def regionClose : Text := "+channel"

/-- The name of a flag: its leading minus is left out, a leading plus is kept. -/
def canonical : Text → Text
  | '-' :: name => name
  | flag => flag

/-- The flag with a given name. -/
def ofCanonical : Text → Text
  | '+' :: name => '+' :: name
  | name => '-' :: name

end Retouch.Flag
