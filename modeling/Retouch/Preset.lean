import Retouch.Number.Basic
import Retouch.Record
import Retouch.Text.Blank
import Retouch.Text.Case

/-!
# Presets

Ready-made commands under a name, in three catalogs, and the instructions for a generator of
commands. A vibe that is the name of a preset, in any case and with blanks around it, means that
preset.
-/

namespace Retouch.Preset

def textOfLines (lines : List Text) : Text :=
  lines.flatMap (· ++ ['\n'])

def promptRole : List Text :=
  ["SYSTEM: ImageMagick Glitch Alchemist.",
   "OBJECTIVE: Translate user prompts into experimental, high-fidelity CLI flag chains.",
   "STRATEGY: Analyze \"Vibe\" -> Select Rare Algorithms -> Randomize Values -> Output Flags.",
   "STRICT MODE: No markdown. No explanations. No filenames. Return ONLY the flag string.",
   ""]

def promptLimits : List Text :=
  ["/// 1. THE SANDBOX (STRICT CONSTRAINTS) ///",
   "  - MANDATORY START: -channel RGB",
   "  - MANDATORY END: +channel -alpha opaque",
   "  - COLOR SAFETY: Wrap color ops in '-channel RGB ... +channel'.",
   "  - FORBIDDEN: -ordered-dither, -liquid-rescale.",
   "  - MATH: Use '-function', '-evaluate', or '-fx' (for custom math).",
   ""]

def promptDirectives : List Text :=
  ["/// 2. EXPERIMENTAL DIRECTIVES ///",
   "  - VALUE CHAOS: Avoid default numbers (10, 50). Use primes (e.g., \"wave 7x33\", " ++
   "\"roll +13-4\").",
   "  - WAVE vs FX: '-wave' is for geometric ripples. '-fx' is for PIXEL MATH.",
   "  - FX RULES: ALWAYS quote -fx arguments (e.g. -fx 'p\x7bi,j-(j%25)*(u>0.5?2:1)\x7d'). " ++
   "Ensure parentheses are balanced.",
   "  - NO QUOTES: Do NOT use quotes or spaces inside other arguments. Use commas for lists " ++
   "(e.g., \"0,0,0.5,1\").",
   "  - MATH MAGIC: Use '-function Sinusoid', '-function Arcsin', and '-evaluate' for " ++
   "non-linear color shifts.",
   "  - ALGO ROTATION:",
   "  * Dither: Switch between [FloydSteinberg, Riemersma].",
   "  * Noise: Switch between [Gaussian, Impulse, Laplacian, Poisson].",
   "  * Morph: Switch between [Octagon, Disk, Diamond, Square] kernels.",
   ""]

def promptIngredients : List Text :=
  ["/// 3. THE INGREDIENT LIBRARY (SEMANTIC MAPPING) ///",
   "* \"Melt\" (Liquid, Dripping, Ooze): -morphology Dilate Disk:3 -distort Shepards 0,0,5,5",
   "* \"Warp\" (Lens Distortion, Bending, Fisheye): -distort Barrel 0,0,0.5,1 -wave 3x77 " ++
   "-implode -0.5",
   "* \"Rot\" (Decay, Erosion, Holes): -lat 25x25+10% -spread 4 -morphology Erode Square:1",
   "* \"Grit\" (Dirty, Sandy, Film Grain): +noise Laplacian +noise Poisson -attenuate 0.9",
   "* \"Retro\" (Low-Res, 8-bit, Pixelated): -sample 13% -sample 800% -colors 6 -posterize 5",
   "* \"Signal\" (Glitch, RGB Split): -channel G -roll +7+0 -channel B -roll -7+0",
   "* \"Heatmap\" (Thermal, Psychedelic Rainbow): -function Sinusoid 4,-90",
   "* \"Deep\" (High Contrast, Drama, Shadow): -function Arcsin 0.5",
   "* \"Crush\" (Color Cycling, Weird Inversion): -evaluate Sin 2",
   "* \"Phase Flux\" (Liquid, Chrome, Iridescent): -function Sinusoid 2,-120",
   "* \"Tint\" (Color Overlay, Mood): -fill [COLOR] -tint 90%",
   "* \"Spectral\" (Chromatic Aberration): -channel R -roll +5+0 -channel G -roll -5+0 +channel",
   "* \"Fractal Decay\" (Deep Math Glitch): -fx '0.5*u+0.5*sin(10*pi*u)'",
   ""]

def promptExamples : List Text :=
  ["/// 4. THE SPELLBOOK (FEW-SHOT TRAINING) ///",
   "Input: invert the image",
   "Output: -channel RGB -negate +channel -alpha opaque",
   "",
   "Input: make it black and white",
   "Output: -channel RGB -colorspace Gray +channel -alpha opaque",
   "",
   "Input: noisy vhs tape",
   "Output: -channel R -roll +13+0 -channel B -roll -13+0 +channel -channel RGB -attenuate " ++
   "0.7 +noise Laplacian -colors 16 -dither Riemersma +channel -alpha opaque",
   "",
   "Input: 1-bit dithering",
   "Output: -channel RGB -colorspace Gray -contrast-stretch 5% -colors 2 -dither " ++
   "FloydSteinberg +channel -alpha opaque",
   "",
   "Input: mathematical acid trip",
   "Output: -channel RGB -function Sinusoid 4,-90 -virtual-pixel Tile -distort Barrel " ++
   "0,0,0.2,1.2 -evaluate Cos 0.5 +channel -alpha opaque",
   "",
   "Input: organic mold decay",
   "Output: -channel RGB -morphology Erode Diamond:3 -lat 15x15+5% -spread 3 -fill lime " ++
   "-tint 40% +noise Poisson +channel -alpha opaque",
   "",
   "Input: melting radioactive void",
   "Output: -channel RGB -morphology Dilate Disk:7 -wave 7x63 -solarize 47% -distort Polar " ++
   "0 -virtual-pixel Mirror +channel -alpha opaque"]

/-- The instructions for a generator of commands. -/
def systemPrompt : Text :=
  textOfLines (promptRole ++ promptLimits ++ promptDirectives ++ promptIngredients ++
    promptExamples)

def maxTokens : Nat := 30

/-- How freely a generator chooses. -/
def temperature : Number := .ofDecimal false 9 (-1)

def maxOperations : Int := 3

/-- The single operations. -/
def primitives : Record Text :=
  [("Negate", "-channel RGB -negate +channel -alpha opaque"),
   ("Grayscale", "-channel RGB -colorspace Gray +channel -alpha opaque"),
   ("Edge", "-channel RGB -edge 3 +channel -alpha opaque"),
   ("Emboss", "-channel RGB -emboss 2 +channel -alpha opaque"),
   ("Sharpen", "-channel RGB -adaptive-sharpen 0x3 +channel -alpha opaque"),
   ("Blur", "-channel RGB -blur 0x5 +channel -alpha opaque"),
   ("Posterize", "-channel RGB -posterize 4 +channel -alpha opaque")]

/-- The finished effects. -/
def ready : Record Text :=
  [("Melt",
     "-channel RGB -morphology Dilate Octagon:10 -morphology Erode Octagon:2 +channel " ++
     "-alpha opaque"),
   ("Necrosis",
     "-channel RGB -colorspace Gray -colors 4 -dither FloydSteinberg +channel -alpha opaque"),
   ("Rot", "-channel RGB -statistic Maximum 20x1 +channel -alpha opaque"),
   ("Noise",
     "-channel RGB -fx 'u+(rand()-0.5)' +noise Laplacian -attenuate 0.9 +channel -alpha opaque"),
   ("Plasma",
     "-channel RGB -morphology Distance Euclidean:4 -level 0%,90% -auto-level +channel " ++
     "-alpha opaque"),
   ("Structure",
     "-channel RGB -morphology Distance Euclidean:4 -auto-level -morphology TopHat Disk:1 " ++
     "-auto-level +channel -alpha opaque"),
   ("Deepfry", "-channel RGB -modulate 150,200,100 -posterize 2 +channel -alpha opaque"),
   ("Spectral", "-channel RGB -virtual-pixel Mirror -distort Polar 0 +channel -alpha opaque"),
   ("Azule",
     "-channel RGB -colorspace Gray -edge 1 -fill '#0033cc' -opaque black +channel -alpha opaque"),
   ("Flux", "-channel RGB -function Sinusoid 2,-120 +channel -alpha opaque")]

/-- The combined effects. -/
def spellbook : Record Text :=
  [("Detriment",
     "-channel RGB -sample 10% -sample 800% -colors 6 -posterize 5 +noise Laplacian " ++
     "-attenuate 0.8 +channel -alpha opaque"),
   ("Tear", "-channel RGB -fx 'p\x7bi,j-(j%25)*(u>0.5?2:1)\x7d' +channel -alpha opaque"),
   ("Shift", "-channel RGB -fx 'j%2==0?u:p\x7bi+10,j\x7d*1.5' +channel -alpha opaque"),
   ("Grit",
     "-channel RGB -spread 3 +noise Impulse -morphology Dilate Square:1 -colors 8 -dither " ++
     "FloydSteinberg +channel -sample 25% -sample 400% -alpha opaque -contrast-stretch 1%"),
   ("Drift",
     "-channel R -roll +10+0 -channel B -roll -10+0 +channel -channel RGB -lat 20x20+10% " ++
     "-morphology Erode Square:1 -sample 50% -sample 200% +channel -alpha opaque"),
   ("Interference",
     "-channel RGB -wave 5x50 -spread 2 -colors 4 -dither Riemersma -contrast-stretch 5% " ++
     "-fill red -tint 40% +channel -sample 200% -sample 50% -alpha opaque"),
   ("Burn",
     "-channel RGB -sigmoidal-contrast 10,50% -modulate 150,150 -solarize 60% -colors 16 " ++
     "-dither Riemersma +channel -sample 25% -sample 400% -alpha opaque"),
   ("Flare",
     "-channel RGB -sigmoidal-contrast 10,50% -modulate 150,150 -solarize 70% -colors 16 " ++
     "-dither Riemersma +channel -alpha opaque"),
   ("Smear",
     "-channel RGB -morphology Dilate Rectangle:20x1 +noise Gaussian -colorspace Gray " ++
     "-sigmoidal-contrast 10,50% -colors 3 -dither Riemersma +channel -sample 1000% -alpha " ++
     "opaque"),
   ("Mold",
     "-channel RGB -morphology Edge Octagon:1 -negate -morphology Erode Euclidean:10 " ++
     "-auto-level -threshold 50% -spread 3 +channel -monochrome -alpha opaque"),
   ("Skeleton",
     "-channel RGB -morphology Thinning:20 Skeleton -auto-level +channel -alpha opaque"),
   ("Decay", "-channel RGB -fx '0.5*u+0.5*sin(10*pi*u)' +channel -alpha opaque"),
   ("Analogue", "-sample 10% -sample 1000% -colors 8 -alpha opaque"),
   ("Blood",
     "-channel RGB -fill red -tint 90% -roll +10+0 -distort Barrel 0,0,0.1,0.9 -colors 2 " ++
     "+channel -alpha opaque")]

def catalogs : Record (Record Text) :=
  [("primitives", primitives), ("ready", ready), ("spellbook", spellbook)]

/-- The presets under their names in lower case. -/
def index : Record (Text × Text) :=
  Record.ofPairs ((catalogs.flatMap (·.2)).map fun (name, command) =>
    (Text.lower name, (name, command)))

/-- The name and the command of the preset that a text means. -/
def find? (text : Text) : Option (Text × Text) :=
  index.get? (Text.lower (Text.trim text))

def names : List Text :=
  index.map fun (_, name, _) => name

end Retouch.Preset
