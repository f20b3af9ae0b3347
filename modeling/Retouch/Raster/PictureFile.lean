import Retouch.Raster.Fit
import Retouch.Raster.PictureLibrary
import Retouch.Text.Case

/-!
# Picture files

An image is taken from a picture file in the form that the engine wants, and made smaller if it is
above the limit of the engine. A raw image is saved in a file by the library; two names of formats
without opacity are known, and files with these names get the colours alone.
-/

namespace Retouch.PictureFile

/-- Why no image comes of a picture. -/
inductive ImageError where
  | picture (error : PictureError)
  | range (error : RangeError)
  deriving DecidableEq

inductive LoadError where
  /-- The file cannot be read, or it is no picture. -/
  | undecodable (path : Path)
  | nullCharacter
  | range (error : RangeError)
  | other (failure : Failure)
  deriving DecidableEq

def LoadError.message : LoadError → Text
  | .undecodable path => "Failed to decode image: " ++ path.text
  | .nullCharacter => FileFault.nullCharacter.description
  | .range error => error.message
  | .other failure => failure.shown

/-- What the failure to get an image is for the one who loads a file. -/
def LoadError.ofImage (path : Path) : ImageError → LoadError
  | .picture .unreadable => .undecodable path
  | .picture (.other failure) => .other failure
  | .range error => .range error

def resampling (keepsEdges : Bool) : Resampling :=
  if keepsEdges then .nearest else .lanczos

/-- An image within a limit: as it is, or made smaller. -/
def fitted (library : PictureLibrary) (image : RawImage) (limit : Number) (keepsEdges : Bool) :
    Except ImageError RawImage := do
  let (width, height) ← (Fit.within image.width image.height limit).mapError .range
  if width = image.width ∧ height = image.height then
    return image
  else
    (library.resize image width height (resampling keepsEdges)).mapError .picture

/-- The image of the picture that some bytes are, within a limit. -/
def read (library : PictureLibrary) (bytes : Bytes) (limit : Number) (keepsEdges : Bool) :
    Except ImageError RawImage := do
  let image ← (library.decode bytes).mapError .picture
  fitted library image limit keepsEdges

def load (library : PictureLibrary) (tree : FileTree) (path : Path) (limit : Number)
    (keepsEdges : Bool) : Except LoadError RawImage :=
  match tree.read path with
  | .error ⟨.nullCharacter, _⟩ => .error .nullCharacter
  | .error _ => .error (.undecodable path)
  | .ok bytes => (read library bytes limit keepsEdges).mapError (.ofImage path)

/-- What of the pixels goes into a file of some name. -/
def modeFor (path : Path) : PictureMode :=
  if [".jpg".toList, ".jpeg".toList].contains (Text.lower path.suffix) then .rgb else .rgba

/-- Saves a raw image in a file; the directories on the way to the file are made first. -/
def save (library : PictureLibrary) (tree : FileTree) (path : Path) (image : RawImage) :
    Progress FileTree Failure :=
  ((tree.ensureDirectories path.parent).mapError FileError.failure).andThen fun ready =>
    library.save ready path (modeFor path) image

end Retouch.PictureFile
