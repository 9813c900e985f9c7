import StackMachine.Image.Codec
import StackMachine.Proofs.Cbor

/-!
# Images survive CBOR

`Image.toItem` is the item that an image is written as. The bytes of an image spell it
(`spells_toCbor`), and it stands for the image (`image_toItem`), so an image is read back from its
bytes whatever its numbers are, whether it has a name or not, and whether its code is missing or
empty.
-/

namespace StackMachine.Image

open Cbor (Item Spells SpellsPair)

/-- The length of the name fits in a head, and the code has no more words than an array may have
elements. -/
structure FitsCbor (image : Image) : Prop where
  name_lt : image.name.utf8ByteSize < 2^64
  words_le : image.words.size ≤ Cbor.maxSize

/-! ## Values of fields -/

namespace FromCbor

/-- A word is a number that fits. -/
theorem word_toInt (w : Int64) : word w.toInt = .ok w := by
  have hmin := w.le_toInt
  have hmax := w.toInt_lt
  rw [word, if_pos (by omega), Int64.ofInt_toInt]

/-- The item of a word stands for the word. -/
theorem integer_ofInt (w : Int64) : integer (.ofInt w.toInt) = .ok w := by
  -- A negative number `n` is written as `-1 - n`, which is a natural number.
  by_cases hneg : w.toInt < 0
  · have hback : -1 - ((-1 - w.toInt).toNat : Int) = w.toInt := by omega
    rw [Item.ofInt, if_pos hneg]
    exact (congrArg word hback).trans (word_toInt w)
  · have hback : (w.toInt.toNat : Int) = w.toInt := by omega
    rw [Item.ofInt, if_neg hneg]
    exact (congrArg word hback).trans (word_toInt w)

/-- The item of a text stands for the text. -/
theorem label_text (s : String) : label (.text [Bytes.ofText s]) = .ok s := by
  simp [label, text, Bytes.text?_ofText]

/-- The item of some code, if there is any. -/
def codeItem : Option (Array Int64) → Item
  | some words => .array (words.toList.map fun w => .ofInt w.toInt)
  | none => .simple 22

/-- The item of some code stands for the code. -/
theorem words_codeItem (code : Option (Array Int64)) : words (codeItem code) = .ok code := by
  cases code with
  | none => rfl
  | some ws =>
    have hitems : (ws.toList.map fun w => Item.ofInt w.toInt).toArray.mapM integer = .ok ws := by
      -- Each word is read back as itself, so that reading them all changes nothing.
      have heach : (fun w : Int64 => integer (.ofInt w.toInt)) = pure := funext integer_ofInt
      rw [List.mapM_toArray, List.mapM_map, Function.comp_def, heach, List.mapM_pure,
        List.map_id']
      rfl
    rw [codeItem, words, hitems]
    rfl

/-- The item of a field's number stands for the field. -/
theorem field?_key (field : Field) : field? (.ofInt field.key) = .ok (some field) := by
  cases field with
  | name | entry | locals | code => rfl

/-- A field that was not seen before is set to what its item stands for. -/
theorem setAll_cons {start next : Image} {seen : List Field} {field : Field} {value : Item}
    {pairs : List (Item × Item)} (hnew : field ∉ seen) (hset : set start field value = .ok next) :
    setAll start seen ((.ofInt field.key, value) :: pairs) = setAll next (field :: seen) pairs := by
  simp only [setAll, field?_key, bind, Except.bind, if_neg hnew, hset]

end FromCbor

/-! ## The item of an image -/

open FromCbor

/-- The item that an image is written as. -/
def toItem (image : Image) : Item :=
  let rest : List (Item × Item) := [
    (.ofInt Field.entry.key, .ofInt image.entry.toInt),
    (.ofInt Field.locals.key, .ofInt image.locals.toInt),
    (.ofInt Field.code.key, codeItem image.code)]
  .map (if image.name.isEmpty then rest
    else (.ofInt Field.name.key, .text [Bytes.ofText image.name]) :: rest)

variable {image : Image}

/-- The bytes of a word spell its item. -/
theorem spells_word (levels : Nat) (w : Int64) :
    Spells levels (Cbor.writeInt w.toInt) (.ofInt w.toInt) := by
  have hmin := w.le_toInt
  have hmax := w.toInt_lt
  exact Spells.int (by omega) (by omega)

/-- The bytes of a field's number and of its value spell their items. -/
theorem spells_field {levels : Nat} (field : Field) {value : Bytes} {item : Item}
    (hvalue : Spells levels value item) :
    SpellsPair levels (Cbor.writeInt field.key, value) (.ofInt field.key, item) := by
  have hkey : field.key ≤ 4 := by cases field <;> decide
  have hspells : Spells levels (Cbor.writeInt field.key) (.ofInt field.key) :=
    Spells.int (by omega) (by omega)
  exact ⟨hspells, hvalue⟩

/-- The bytes of an image spell its item. -/
theorem spells_toCbor (h : image.FitsCbor) (levels : Nat) :
    Spells (levels + 2) image.toCbor image.toItem := by
  have hcode : Spells (levels + 1) (match image.code with
      | some words => Cbor.writeArray (words.toList.map fun w => Cbor.writeInt w.toInt)
      | none => Cbor.null) (codeItem image.code) := by
    have hsize := h.words_le
    unfold words at hsize
    cases hcode : image.code with
    | none => exact Spells.null
    | some ws =>
      rw [hcode, Option.getD_some] at hsize
      refine Spells.array ?_ (by simpa using hsize)
      rw [List.forall₂_map_left_iff, List.forall₂_map_right_iff, List.forall₂_same]
      exact fun w _ => spells_word levels w
  have hrest := List.Forall₂.cons (spells_field .entry (spells_word (levels + 1) image.entry))
    (.cons (spells_field .locals (spells_word (levels + 1) image.locals))
      (.cons (spells_field .code hcode) .nil))
  have hsize : 4 ≤ Cbor.maxSize := by decide
  unfold toCbor toItem
  by_cases hname : image.name.isEmpty = true
  · simp only [if_pos hname]
    exact Spells.map hrest (Nat.le_of_succ_le hsize)
  · simp only [if_neg hname]
    exact Spells.map (.cons (spells_field .name (Spells.text h.name_lt)) hrest) hsize

/-- The item of an image stands for the image. -/
theorem image_toItem (image : Image) : FromCbor.image image.toItem = .ok image := by
  have hentry (start : Image) : FromCbor.set start .entry (.ofInt image.entry.toInt) =
      .ok { start with entry := image.entry } := by
    simp [FromCbor.set, integer_ofInt, bind, Except.bind]
  have hlocals (start : Image) : FromCbor.set start .locals (.ofInt image.locals.toInt) =
      .ok { start with locals := image.locals } := by
    simp [FromCbor.set, integer_ofInt, bind, Except.bind]
  have hcode (start : Image) : FromCbor.set start .code (codeItem image.code) =
      .ok { start with code := image.code } := by
    simp [FromCbor.set, words_codeItem, bind, Except.bind]
  have hname (start : Image) : FromCbor.set start .name (.text [Bytes.ofText image.name]) =
      .ok { start with name := image.name } := by
    simp [FromCbor.set, label_text, bind, Except.bind]
  unfold toItem FromCbor.image
  split
  · next hempty =>
    -- No pair sets the name, which is empty from the start.
    have hnone : image.name = "" := String.isEmpty_iff.1 hempty
    rw [setAll_cons (by decide) (hentry _), setAll_cons (by decide) (hlocals _),
      setAll_cons (by decide) (hcode _), setAll, ← hnone]
  · rw [setAll_cons (by decide) (hname _), setAll_cons (by decide) (hentry _),
      setAll_cons (by decide) (hlocals _), setAll_cons (by decide) (hcode _), setAll]

/-- An image is read back from its bytes. -/
theorem ofCbor_toCbor (h : image.FitsCbor) : ofCbor image.toCbor = .ok image := by
  -- The map and the array in it take two levels of those that may nest.
  have hitem : Item.ofBytes image.toCbor = .ok image.toItem := (spells_toCbor h 30).ofBytes
  rw [ofCbor, hitem]
  exact image_toItem image

/-- An image whose name and code are not too long, whatever else it holds and whether a machine can
run it or not, is written as CBOR, to any place that takes a write, and what is written is read back
as the same image. Two such images that are written alike are the same. -/
theorem cbor_round_trip (h : image.FitsCbor) :
    (∃ bs, (∀ room complaint, room ≠ some 0 → encode (some .cbor) image room complaint = .ok bs) ∧
      read .cbor bs = .ok image) ∧
    ∀ other : Image, other.FitsCbor →
      encode (some .cbor) other = encode (some .cbor) image → other = image := by
  constructor
  · refine ⟨image.toCbor, fun room complaint hroom => if_neg hroom, ?_⟩
    rw [read, ofCbor_toCbor h]
    rfl
  · intro other hother hsame
    -- The same bytes are read back as both images, so they are one.
    have hbytes : other.toCbor = image.toCbor := Except.ok.inj hsame
    have hread := ofCbor_toCbor hother
    rw [hbytes, ofCbor_toCbor h] at hread
    exact (Except.ok.inj hread).symm

/-- An image with a name outside ASCII and words at both ends of every width of a head. Missing code
and empty code are written differently. -/
theorem cbor_round_trip_limits :
    let image : Image :=
      { name := "zähler", entry := Int64.minValue, locals := Int64.maxValue
        code := some #[0, 23, 24, 255, 256, 65535, 65536, 4294967295, 4294967296,
          -1, -24, -25, -256, -257, -65536, -65537, -4294967296, -4294967297] }
    image.FitsCbor ∧ (∃ bs, encode (some .cbor) image = .ok bs ∧ read .cbor bs = .ok image) ∧
      encode (some .cbor) { code := some #[] } ≠ encode (some .cbor) { code := none } := by
  intro image
  have hfits : image.FitsCbor := ⟨by decide, by decide⟩
  have hnone : FitsCbor { code := none } := ⟨by decide, by decide⟩
  have hempty : FitsCbor { code := some #[] } := ⟨by decide, by decide⟩
  obtain ⟨⟨bs, hwritten, hread⟩, -⟩ := cbor_round_trip hfits
  refine ⟨hfits, ⟨bs, hwritten none "" (by decide), hread⟩, fun hsame => ?_⟩
  have hsame' := (cbor_round_trip hnone).2 _ hempty hsame
  exact absurd (congrArg Image.code hsame') (by decide)

end StackMachine.Image
