import StackMachine.Listing
import StackMachine.Machine.Step
import StackMachine.Path

/-!
# Program images

An image is a program together with what a machine needs to run it: where to start and how many
locals to provide. It is kept in files in one of two formats, told apart by the extension of the
file's name.

Images are described in §6.1 of the specification. `Image.defect?` is its `Validate`, and
`Image.machine` its `NewMachine`.
-/

namespace StackMachine

/-- A runnable program. An image without code differs from one whose code is empty, and neither can
be run. -/
structure Image where
  name : String := ""
  entry : Int64 := 0
  locals : Int64 := 0
  code : Option (Array Int64) := none
  deriving DecidableEq, Repr, Inhabited

namespace Image

/-- The words of the image, none when it has no code. -/
def words (image : Image) : Array Int64 :=
  image.code.getD #[]

/-- The fields of an image. -/
inductive Field where
  | name
  | entry
  | locals
  | code
  deriving DecidableEq

namespace Field

/-- All fields, in the order in which they are written. -/
def all : List Field :=
  [.name, .entry, .locals, .code]

/-- What a field is called where keys are texts. -/
def label : Field → String
  | .name => "name"
  | .entry => "entry"
  | .locals => "locals"
  | .code => "code"

/-- The number of a field where keys are numbers. -/
def key : Field → Nat
  | .name => 1
  | .entry => 2
  | .locals => 3
  | .code => 4

/-- The field that is called by a label. -/
def ofLabel? (s : String) : Option Field :=
  all.find? (·.label == s)

/-- The field of a number. -/
def ofKey? (n : Nat) : Option Field :=
  all.find? (·.key == n)

end Field

/-- Why an image cannot be handed to a machine. -/
inductive Invalid where
  | noCode
  | entryOutside (entry : Int64) (size : Nat)
  | negativeLocals (locals : Int64)
  | manyLocals (locals : Int64)
  deriving DecidableEq, Repr

/-- The wording of a rejection. -/
def Invalid.message : Invalid → String
  | .noCode => "invalid image: empty code"
  | .entryOutside entry size =>
    "invalid image: entry " ++ Decimal.ofWord entry ++ " outside code of " ++ Decimal.ofNat size ++
      " slots"
  | .negativeLocals locals => "invalid image: negative locals size " ++ Decimal.ofWord locals
  | .manyLocals locals =>
    "invalid image: locals size " ++ Decimal.ofWord locals ++ " exceeds " ++
      Decimal.ofNat Machine.maxLocals

/-- The first reason to reject an image, if there is one. -/
def defect? (image : Image) : Option Invalid :=
  let size := image.words.size
  if size = 0 then some .noCode
  else if image.entry < 0 ∨ (size : Int) ≤ image.entry.toInt then
    some (.entryOutside image.entry size)
  else if image.locals < 0 then some (.negativeLocals image.locals)
  else if (Machine.maxLocals : Int) < image.locals.toInt then some (.manyLocals image.locals)
  else none

/-- A machine ready to run the image. -/
def machine (image : Image) (options : Machine.Options := {}) : Machine :=
  Machine.new image.words image.entry.toInt image.locals.toInt options

/-- The title of the image's listing. -/
def title (image : Image) : String :=
  if image.name.isEmpty then "image" else image.name

/-- The listing of the image's code. -/
def listing (image : Image) : String :=
  Listing.text image.words image.title

/-- The formats in which images are kept. -/
inductive Format where
  | yaml
  | cbor
  deriving DecidableEq, Repr

namespace Format

/-- The name of a format. -/
def name : Format → String
  | .yaml => "yaml"
  | .cbor => "cbor"

/-- What a missing format is called. -/
def unknown : String := "unknown"

/-- The name of a format by its number. -/
def nameOfCode (code : Int) : String :=
  match code with
  | 1 => name .yaml
  | 2 => name .cbor
  | _ => unknown

/-- The format called by a name. -/
def ofName? (s : String) : Option Format :=
  if s = name .yaml then some .yaml else if s = name .cbor then some .cbor else none

/-- The format that the extension of a path stands for, in letters of either case. -/
def ofPath? (path : String) : Option Format :=
  let extension := String.ofList ((Path.extension path).toList.map Char.toLower)
  if extension = ".yaml" ∨ extension = ".yml" then some .yaml
  else if extension = ".cbor" ∨ extension = ".vmb" then some .cbor
  else none

end Format

end Image

end StackMachine
