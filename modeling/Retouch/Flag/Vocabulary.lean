import Retouch.Text.Basic

/-!
# Vocabulary of flag arguments

The words that the engine knows as arguments of certain flags, in the order in which an editor
offers them.
-/

namespace Retouch.Vocabulary

def morphologyMethods : List Text :=
  ["Erode", "Dilate", "Open", "Close", "Smooth", "Edge", "EdgeIn", "EdgeOut", "TopHat",
   "BottomHat", "HitAndMiss", "Thinning", "Thicken", "Convolve", "Correlate", "Distance"]

/-- The named kernels: first the shaped ones, which take a size, then the hit-and-miss and special
kernels, the convolution kernels and the distance kernels. -/
def morphologyKernels : List Text :=
  ["Diamond", "Square", "Octagon", "Disk", "Plus", "Cross", "Ring", "Rectangle", "ConvexHull",
   "Skeleton", "Edges", "Corners", "Diagonals", "LineEnds", "LineJunctions", "Ridges", "ThinSE",
   "Peaks", "Unity", "Gaussian", "DoG", "LoG", "Blur", "Comet", "Binomial", "Chebyshev",
   "Manhattan", "Euclidean"]

/-- The functions that an evaluation applies to each pixel value. -/
def evaluateFunctions : List Text :=
  ["Add", "Subtract", "Multiply", "Divide", "Sin", "Cos", "Pow", "Log", "Exp", "And", "Or", "Xor",
   "Min", "Max", "Set", "Abs", "Mean", "Median", "GaussianNoise", "InverseLog", "Arcsin",
   "Arccos", "Arctan"]

def colorspaces : List Text :=
  ["Gray", "sRGB", "RGB", "LAB", "HSL", "HSB", "CMYK", "CMYKA", "XYZ", "YCbCr", "YIQ", "YUV",
   "Transparent", "OHTA", "Rec601Luma", "Rec709Luma"]

/-- The ways of blending two layers. -/
def composeMethods : List Text :=
  ["Screen", "Multiply", "Overlay", "Darken", "Lighten", "Difference", "Exclusion", "Add",
   "Subtract", "HardLight", "SoftLight", "ColorDodge", "ColorBurn", "LinearDodge", "LinearBurn",
   "Over", "In", "Out", "Atop", "Xor", "Plus", "Minus", "Bumpmap", "Dissolve"]

/-- The ways of filling in pixels beyond the edges. -/
def virtualPixelMethods : List Text :=
  ["Tile", "Edge", "Mirror", "Black", "White", "Background", "Transparent", "Dither", "Random",
   "CheckerTile", "HorizontalTile", "VerticalTile"]

def distortMethods : List Text :=
  ["ARC", "SRT", "Barrel", "BarrelInverse", "Perspective", "BilinearForward", "BilinearReverse",
   "Polar", "DePolar", "Shepards", "Affine", "AffineProjection", "ScaleRotateTranslate"]

def noiseTypes : List Text :=
  ["Gaussian", "Impulse", "Laplacian", "Multiplicative", "Poisson", "Random", "Uniform"]

def channels : List Text :=
  ["RGB", "Red", "Green", "Blue", "Alpha", "Cyan", "Magenta", "Yellow", "Black", "Opacity",
   "Index", "RGBA", "CMYK", "CMYKA", "All", "R", "G", "B", "A", "C", "M", "Y", "K"]

def functionMethods : List Text :=
  ["Sinusoid", "Arcsin", "Arctan", "Polynomial"]

def ditherMethods : List Text :=
  ["FloydSteinberg", "Riemersma", "None"]

/-- The kernels that have radius 1 when they are written without a size. -/
def shapedKernels : List Text :=
  ["Disk", "Square", "Diamond", "Octagon"]

end Retouch.Vocabulary
