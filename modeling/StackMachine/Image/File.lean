import StackMachine.Files
import StackMachine.Image.Codec

/-!
# Images in files

The extension of a path gives the format of the image in its file.

`Image.load` and `Image.save` are `Load` and `Save` of §6.1 of the specification.
-/

namespace StackMachine.Image

/-- Why an image cannot be loaded or saved. -/
inductive FileError where
  | unknownFormat (path : String)
  | unreadable (path : String) (cause : Files.Error)
  | undecodable (path : String) (cause : CodecError)
  | unwritable (path : String) (cause : Files.Error)
  deriving DecidableEq, Repr

/-- The wording of an error. -/
def FileError.message : FileError → String
  | .unknownFormat path =>
    "image: cannot infer format of " ++ path ++ " (use .yaml, .yml, .cbor or .vmb)"
  | .unreadable path cause => "cannot read " ++ path ++ ": " ++ cause.message
  | .undecodable path cause => path ++ ": " ++ cause.message
  | .unwritable path cause => "cannot write " ++ path ++ ": " ++ cause.message

/-- The image with a name, which is the given one if it has none. -/
def named (image : Image) (name : String) : Image :=
  if image.name = "" then { image with name } else image

/-- The image in the file at a path, if a machine can run it. An image without a name takes that of
its file. -/
def load (files : Files) (path : String) : Except FileError Image :=
  match Format.ofPath? path with
  | none => .error (.unknownFormat path)
  | some format => do
    let contents ← (files.read path).mapError (.unreadable path)
    let image ← (decode (some format) contents).mapError (.undecodable path)
    .ok (image.named (Path.stem path))

/-- The files with an image in the one at a path. -/
def save (files : Files) (path : String) (image : Image) : Except FileError Files :=
  match Format.ofPath? path with
  | none => .error (.unknownFormat path)
  | some format => (files.write path (image.write format)).mapError (.unwritable path)

end StackMachine.Image
