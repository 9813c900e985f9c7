import StackMachine.Image.Basic
import StackMachine.Yaml.Node
import StackMachine.Yaml.Scalar
import StackMachine.Yaml.Written

/-!
# Images as YAML

An image is a mapping with the fields `name`, `entry`, `locals` and `code`, none of which has to be
there, and an empty document is an image too. Keys that are no fields are errors, and so are keys
that are given twice. Null leaves a field as it is, and among the words of the code it is left out.
The name keeps the text it is written with, whatever that would mean elsewhere.

A merge key brings in the fields of other mappings, as far as they are not given beside it; of
several mappings the first that gives a field counts.

A written image leaves out an empty name, and has its code between brackets in one line.

`Image.ofYaml` and `Image.toYaml` are `DecodeYAML` and `EncodeYAML` of §6.1 of the specification.
-/

namespace StackMachine.Image

open Yaml (Node Scalar)

namespace FromYaml

/-! ## Values of fields -/

/-- What a scalar stands for, by its tag if it has one, by its quotes or by its text. -/
def scalar (tag : Option String) (style : Yaml.Style) (text : String) :
    Except Yaml.Error Scalar :=
  match tag, style with
  | some tag, _ => Scalar.ofTagged tag text
  | none, .quoted => .ok (.text text)
  | none, .plain => .ok (Scalar.ofText true text)

/-- The word that a part stands for, none if it is null. -/
def integer : Node → Except Yaml.Error (Option Int64)
  | .scalar tag style text => do
    match ← scalar tag style text with
    | .null => .ok none
    | .integer n =>
      if n < 0x8000000000000000 then .ok (some (Int64.ofInt n)) else .error (.mismatch "an integer")
    | .float x =>
      match x.word? with
      | some w => .ok (some w)
      | none => .error (.mismatch "an integer")
    | _ => .error (.mismatch "an integer")
  | .alias _ (some target) => integer target
  | _ => .error (.mismatch "an integer")

/-- The text that a part stands for, none if it is null. -/
def label : Node → Except Yaml.Error (Option String)
  | .scalar tag style text => do
    match ← scalar tag style text with
    | .null => .ok none
    | .text s => .ok (some s)
    | _ => .ok (some text)
  | .alias _ (some target) => label target
  | _ => .error (.mismatch "a text")

/-- Collects the words of some parts, leaving out those that are null. -/
def collect (done : Array Int64) : List Node → Except Yaml.Error (Array Int64)
  | [] => .ok done
  | item :: items => do
    match ← integer item with
    | some w => collect (done.push w) items
    | none => collect done items

/-- The code that a part stands for. -/
def words : Node → Except Yaml.Error (Option (Array Int64))
  | .sequence items => do .ok (some (← collect #[] items))
  | .scalar tag style text => do
    match ← scalar tag style text with
    | .null => .ok none
    | _ => .error (.mismatch "a sequence")
  | .alias _ (some target) => words target
  | _ => .error (.mismatch "a sequence")

/-! ## Fields -/

/-- The field that a name stands for. -/
def field (name : String) : Except Yaml.Error Field :=
  match Field.ofLabel? name with
  | some field => .ok field
  | none => .error (.field name)

/-- Sets one field of an image. -/
def set (image : Image) (field : Field) (value : Node) : Except Yaml.Error Image :=
  match field with
  | .name => do .ok { image with name := (← label value).getD image.name }
  | .entry => do .ok { image with entry := (← integer value).getD image.entry }
  | .locals => do .ok { image with locals := (← integer value).getD image.locals }
  | .code => do .ok { image with code := ← words value }

/-- What tells one key of a mapping from another: its kind and its text. -/
def identity : Node → Nat × String
  | .scalar _ _ text => (0, text)
  | .sequence _ => (1, "")
  | .mapping _ => (2, "")
  | .alias name _ => (3, name)

/-- Whether a key says that another mapping is merged. -/
def isMerge : Node → Bool
  | .scalar tag style text =>
    text == "<<" && (tag == some "!!merge" || (tag.isNone && style == .plain))
  | _ => false

/-- Whether all keys of a mapping differ. -/
def distinct : List (Nat × String) → Bool
  | [] => true
  | key :: keys => !keys.contains key && distinct keys

/-- An image while its fields are being set: `given` holds the keys of the mapping being read, and
`merged` those that a mapping which is merged may not set any more. -/
structure Progress where
  image : Image := {}
  given : List String := []
  merged : Option (List String) := none

/-- Sets the field of one pair. Pairs whose key is null or may not be set are passed over. -/
def setPair (p : Progress) (key value : Node) : Except Yaml.Error Progress := do
  match ← label key with
  | none => .ok p
  | some name =>
    if p.merged.any (·.contains name) then .ok p
    else if p.given.contains name then .error (.duplicate name)
    else
      .ok {
        image := ← set p.image (← field name) value
        given := name :: p.given
        merged := p.merged.map (name :: ·) }

/-- Sets the fields of some pairs, those apart that merge other mappings. -/
def setPairs (p : Progress) : List (Node × Node) → Except Yaml.Error Progress
  | [] => .ok p
  | (key, value) :: pairs =>
    if isMerge key then setPairs p pairs
    else do setPairs (← setPair p key value) pairs

/-- The pairs of a part that can be merged. -/
def mergedPairs : Node → Except Yaml.Error (List (Node × Node))
  | .mapping pairs => .ok pairs
  | .alias _ (some (.mapping pairs)) => .ok pairs
  | _ => .error .merge

/-- The mappings that a part brings in. -/
def sources : Node → Except Yaml.Error (List (List (Node × Node)))
  | .sequence items => items.mapM mergedPairs
  | node => do .ok [← mergedPairs node]

/-- Sets the fields of a mapping, and then those of the mappings that it merges. Mappings are merged
into each other less than `rounds` deep. -/
def setMapping : (rounds : Nat) → Progress → List (Node × Node) → Except Yaml.Error Progress
  | 0, _, _ => .error .merge
  | rounds + 1, p, pairs => do
    if !distinct (pairs.map fun pair => identity pair.1) then .error (.duplicate "")
    let p ← setPairs { p with given := [] } pairs
    match pairs.find? (isMerge ·.1) with
    | none => .ok p
    | some (_, node) =>
      -- The fields of the mapping itself go before those of all that it merges.
      let start := { p with merged := some (p.merged.getD p.given) }
      (← sources node).foldlM (fun p pairs => setMapping rounds p pairs) start

/-- The image that a document stands for. -/
def image (rounds : Nat) : Node → Except Yaml.Error Image
  | .mapping pairs => do .ok (← setMapping rounds {} pairs).image
  | .scalar tag style text => do
    match ← scalar tag style text with
    | .null => .ok {}
    | _ => .error (.mismatch "a mapping")
  | _ => .error (.mismatch "a mapping")

end FromYaml

/-- The image that the first document of some bytes holds. A document nests no deeper than it has
characters. -/
def ofYaml (bs : Bytes) : Except Yaml.Error Image := do
  let cs ← Yaml.source bs
  FromYaml.image (cs.length + 1) (← Node.ofText cs)

/-- Words between brackets. -/
def bracketed (words : List Int64) : String :=
  "[" ++ ", ".intercalate (words.map Decimal.ofWord) ++ "]"

/-- The text of an image. -/
def toYaml (image : Image) : String :=
  let name := if image.name.isEmpty then "" else
    "name:" ++ String.ofList (Yaml.Written.value image.name)
  name ++ "entry: " ++ Decimal.ofWord image.entry ++ "\nlocals: " ++ Decimal.ofWord image.locals ++
    "\ncode: " ++ bracketed image.words.toList ++ "\n"

end StackMachine.Image
