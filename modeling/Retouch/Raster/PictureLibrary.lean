import Retouch.Failure
import Retouch.Files.Tree
import Retouch.Raster.RawImage

/-!
# Libraries of pictures

How a picture stands in a file, and how an image of another size is made of it, is the business of a
library, which the program is given. A library gives the pixels that the bytes of a file mean, it
makes an image of another size, and it saves an image in a file.
-/

namespace Retouch

/-- How an image of another size gets its pixels. -/
inductive Resampling where
  /-- Each is one of the old pixels, so that hard edges stay hard. -/
  | nearest
  | lanczos
  deriving DecidableEq

/-- What of the pixels goes into a file. -/
inductive PictureMode where
  | rgba
  /-- The colours without their opacity. -/
  | rgb
  deriving DecidableEq

/-- Why a library gives no pixels. -/
inductive PictureError where
  /-- It cannot read them, or it knows no such picture. -/
  | unreadable
  | other (failure : Failure)
  deriving DecidableEq

structure PictureLibrary where
  /-- The pixels of the picture that some bytes are. -/
  decode : Bytes → Except PictureError RawImage
  /-- An image with another width and height. -/
  resize : RawImage → Int → Int → Resampling → Except PictureError RawImage
  save : FileTree → Path → PictureMode → RawImage → Progress FileTree Failure

/-- The library that knows no pictures. -/
def PictureLibrary.missing : PictureLibrary where
  decode _ := .error .unreadable
  resize _ _ _ _ := .error .unreadable
  save tree _ _ _ := ⟨tree, some (.told "ValueError" "no library of pictures")⟩

end Retouch
