import StackMachine.Cbor.Item
import StackMachine.Image.Basic

/-!
# Images as CBOR

An image is a map from the numbers one to four to its name, entry, locals and code. A written image
leaves out an empty name, and one without code has null in its place.

Reading is more generous. A key may be the text of its number, null stands for the zero of any
field, and tags around a value are looked through where their content is what they announce. Of
several values for one field the first counts, and keys that stand for no field are skipped.

`Image.ofCbor` and `Image.toCbor` are `DecodeCBOR` and `EncodeCBOR` of §6.1 of the specification.
-/

namespace StackMachine.Image

open Cbor (Item)

namespace FromCbor

/-! ## Values of fields -/

/-- Whether a simple value is null or undefined. -/
def isNull (value : Nat) : Bool :=
  value == 22 || value == 23

/-- Whether a tag admits its content: a date needs text, a time a number, a large integer bytes. -/
def admits (tag : Nat) (content : Item) : Bool :=
  match tag, content with
  | 0, .text _ => true
  | 1, .unsigned _ => true
  | 1, .negative _ => true
  | 1, .float => true
  | 2, .bytes _ => true
  | 3, .bytes _ => true
  | n, _ => n > 3

/-- A number as a machine word, if it fits. -/
def word (n : Int) : Except Cbor.Error Int64 :=
  if -0x8000000000000000 ≤ n ∧ n < 0x8000000000000000 then .ok (Int64.ofInt n) else .error .range

/-- A text, every chunk of which is valid by itself. -/
def text (chunks : List Bytes) : Except Cbor.Error String :=
  match chunks.mapM Bytes.text? with
  | some parts => .ok (String.join parts)
  | none => .error .utf8

/-- The word that an item stands for. -/
def integer : Item → Except Cbor.Error Int64
  | .unsigned n => word n
  | .negative n => word (-1 - n)
  | .simple value =>
    if isNull value then .ok 0
    else if value = 20 ∨ value = 21 then .error (.mismatch "an integer")
    else word value
  | .tag number content =>
    if ¬admits number content then .error .tagContent
    else
      match number, content with
      | 2, .bytes chunks => word (Bytes.toNat chunks.flatten)
      | 3, .bytes chunks => word (-1 - Bytes.toNat chunks.flatten)
      | _, content => integer content
  | _ => .error (.mismatch "an integer")

/-- The name that an item stands for. -/
def label : Item → Except Cbor.Error String
  | .text chunks => text chunks
  | .simple value => if isNull value then .ok "" else .error (.mismatch "a text")
  | .tag number content => if admits number content then label content else .error .tagContent
  | _ => .error (.mismatch "a text")

/-- The code that an item stands for. -/
def words : Item → Except Cbor.Error (Option (Array Int64))
  | .array items => do
    let words ← items.toArray.mapM integer
    .ok (some words)
  | .simple value => if isNull value then .ok none else .error (.mismatch "an array")
  | .tag number content => if admits number content then words content else .error .tagContent
  | _ => .error (.mismatch "an array")

/-! ## The image -/

/-- The field that a key stands for. -/
def field? : Item → Except Cbor.Error (Option Field)
  | .unsigned n => .ok (Field.ofKey? n)
  | .negative n => if n < 0x8000000000000000 then .ok none else .error .range
  | .text chunks => do
    let key ← text chunks
    .ok (Field.all.find? (Decimal.ofNat ·.key == key))
  | _ => .error (.mismatch "a key")

/-- Sets one field of an image. -/
def set (image : Image) (field : Field) (value : Item) : Except Cbor.Error Image :=
  match field with
  | .name => do .ok { image with name := ← label value }
  | .entry => do .ok { image with entry := ← integer value }
  | .locals => do .ok { image with locals := ← integer value }
  | .code => do .ok { image with code := ← words value }

/-- Sets the fields that some pairs give, those in `seen` apart. -/
def setAll (image : Image) (seen : List Field) :
    List (Item × Item) → Except Cbor.Error Image
  | [] => .ok image
  | (key, value) :: pairs => do
    match ← field? key with
    | none => setAll image seen pairs
    | some field =>
      if field ∈ seen then setAll image seen pairs
      else setAll (← set image field value) (field :: seen) pairs

/-- The image that an item stands for. -/
def image : Item → Except Cbor.Error Image
  | .map pairs => setAll {} [] pairs
  | .simple value => if isNull value then .ok {} else .error (.mismatch "a map")
  | .tag number content => if admits number content then image content else .error .tagContent
  | _ => .error (.mismatch "a map")

end FromCbor

/-- The image that some bytes hold. -/
def ofCbor (bs : Bytes) : Except Cbor.Error Image := do
  FromCbor.image (← Item.ofBytes bs)

/-- The bytes of an image. -/
def toCbor (image : Image) : Bytes :=
  let key (field : Field) : Bytes := Cbor.writeInt field.key
  let code := match image.code with
    | some words => Cbor.writeArray (words.toList.map fun w => Cbor.writeInt w.toInt)
    | none => Cbor.null
  let rest := [
    (key .entry, Cbor.writeInt image.entry.toInt),
    (key .locals, Cbor.writeInt image.locals.toInt),
    (key .code, code)]
  Cbor.writeMap
    (if image.name.isEmpty then rest else (key .name, Cbor.writeText image.name) :: rest)

end StackMachine.Image
