import Retouch.Number.Decimal
import Retouch.Text.Utf8

/-!
# Raw images

A raw image is the form in which the engine takes and gives an image: the pixels from the top row
down, four bytes for each pixel. The number of bytes agrees with the width and the height.
-/

namespace Retouch

/-- An image as its pixels. -/
structure RawImage where
  width : Int
  height : Int
  data : Bytes
  /-- There are four bytes for each pixel. -/
  data_length : (data.length : Int) = width * height * 4
  deriving DecidableEq

namespace RawImage

def expectedLength (width height : Int) : Int :=
  width * height * 4

structure SizeMismatch where
  actual : Nat
  expected : Int
  deriving DecidableEq

def SizeMismatch.message (mismatch : SizeMismatch) : Text :=
  "RGBA buffer has " ++ Decimal.naturalText mismatch.actual ++ " bytes, expected " ++
    Decimal.integerText mismatch.expected

def ofBytes (width height : Int) (data : Bytes) : Except SizeMismatch RawImage :=
  if fits : (data.length : Int) = width * height * 4 then
    .ok ⟨width, height, data, fits⟩
  else
    .error ⟨data.length, expectedLength width height⟩

end RawImage

end Retouch
