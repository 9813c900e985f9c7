import StackMachine.Image.Cbor
import StackMachine.Image.Yaml

/-!
# Images in either format

What is read is an image that a machine can run; what is written is any image. Where the format is
not known, neither is possible.

This is how the formats of §6.1 of the specification are chosen between, once the format is known.
-/

namespace StackMachine.Image

/-- Why an image cannot be read or written. -/
inductive CodecError where
  | unsupported
  | yaml (cause : Yaml.Error)
  | cbor (cause : Cbor.Error)
  | invalid (cause : Invalid)
  /-- The place to write to took nothing, with its complaint. -/
  | refused (format : Format) (complaint : String)
  deriving DecidableEq, Repr

/-- The wording of an error. -/
def CodecError.message : CodecError → String
  | .unsupported => "image: unsupported format " ++ Format.unknown
  | .yaml cause => "image: decode yaml: " ++ cause.message
  | .cbor cause => "image: decode cbor: " ++ cause.message
  | .invalid cause => cause.message
  | .refused .yaml complaint => "image: encode yaml: yaml: write error: " ++ complaint
  | .refused .cbor complaint => complaint

/-- The image that some bytes hold, whether a machine can run it or not. -/
def read (format : Format) (bs : Bytes) : Except CodecError Image :=
  match format with
  | .yaml => (ofYaml bs).mapError .yaml
  | .cbor => (ofCbor bs).mapError .cbor

/-- The image that some bytes hold, if a machine can run it. -/
def decode (format : Option Format) (bs : Bytes) : Except CodecError Image :=
  match format with
  | none => .error .unsupported
  | some format => do
    let image ← read format bs
    match image.defect? with
    | some defect => .error (.invalid defect)
    | none => .ok image

/-- The bytes of an image. -/
def write (image : Image) (format : Format) : Bytes :=
  match format with
  | .yaml => Bytes.ofText image.toYaml
  | .cbor => image.toCbor

/-- Writes an image to a place that takes the given number of writes, if that is limited, and has
the given complaint about every further one. An image is one write. -/
def encode (format : Option Format) (image : Image) (room : Option Nat := none)
    (complaint : String := "") : Except CodecError Bytes :=
  match format with
  | none => .error .unsupported
  | some format =>
    if room = some 0 then .error (.refused format complaint) else .ok (image.write format)

end StackMachine.Image
