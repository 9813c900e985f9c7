import Mathlib.Data.List.Forall2
import StackMachine.Cbor.Item
import StackMachine.Proofs.Bytes

/-!
# CBOR items that are written are read back

An item is written as a head, in the fewest bytes, and what the head announces. `Head.read_write`
reads a head back at every width of its argument. `Spells` says that some bytes are an item to the
reader, whatever follows them, and each way to write an item has its lemma: integers, texts and null
directly, arrays and maps from the items inside.

A reader of pairs looks for a break after the key, so that no item starts like a break is part of
what it means to be one.
-/

namespace StackMachine.Cbor

variable {α : Type}

/-! ## Heads -/

namespace Head

variable {kind info argument : Nat}

/-- The first byte of a head. -/
def first (kind info : Nat) : UInt8 :=
  UInt8.ofNat (32 * kind + info)

/-- The first byte holds the kind and what is said about the argument. -/
theorem toNat_first (hkind : kind < 8) (hinfo : info < 32) :
    (first kind info).toNat / 32 = kind ∧ (first kind info).toNat % 32 = info := by
  have hsize : UInt8.size = 256 := rfl
  have hbyte : (first kind info).toNat = 32 * kind + info :=
    UInt8.toNat_ofNat_of_lt' (by omega)
  omega

/-- No head with a known argument starts like a break. -/
theorem first_ne_stop (hkind : kind < 8) (hinfo : info < 28) : first kind info ≠ stop := by
  intro h
  have hlow := (toNat_first hkind (Nat.lt_trans hinfo (by decide : 28 < 32))).2
  rw [h] at hlow
  have hstop : stop.toNat % 32 = 31 := rfl
  omega

/-- A head with a known argument does not leave the length open. -/
theorem isOpen_eq_false {head : Head} (h : head.info < 28) : head.isOpen = false := by
  simp only [isOpen, beq_eq_false_iff_ne]
  omega

/-- A small argument is read from the first byte. -/
theorem read_short (hkind : kind < 8) (hinfo : info < 24) (rest : Bytes) :
    read (first kind info :: rest) = .ok (⟨kind, info, info⟩, rest) := by
  obtain ⟨hhigh, hlow⟩ := toNat_first hkind (Nat.lt_trans hinfo (by decide : 24 < 32))
  rw [read, hhigh, hlow]
  exact if_pos hinfo

/-- A larger argument is read from the bytes after the first, of which there are a power of two. -/
theorem read_long {k : Nat} (hkind : kind < 8) (hk : k < 4) (h : argument < 256 ^ (1 <<< k))
    (rest : Bytes) :
    read (first kind (24 + k) :: (Bytes.ofNat (1 <<< k) argument ++ rest)) =
      .ok (⟨kind, 24 + k, argument⟩, rest) := by
  obtain ⟨hhigh, hlow⟩ := toNat_first hkind (by omega : 24 + k < 32)
  have hlarge : ¬ 24 + k < 24 := by omega
  have hknown : 24 + k < 28 := by omega
  have hsplit := Bytes.split?_append (Bytes.length_ofNat (1 <<< k) argument) rest
  rw [read, hhigh, hlow]
  simp only [if_neg hlarge, if_pos hknown, Nat.add_sub_cancel_left, hsplit, Bytes.toNat_ofNat h]

/-- A head is read back, whatever follows it, with a known argument. -/
theorem read_write (hkind : kind < 8) (h : argument < 2^64) :
    ∃ info < 28, (∃ tail, write kind argument = first kind info :: tail) ∧
      ∀ rest, read (write kind argument ++ rest) = .ok (⟨kind, info, argument⟩, rest) := by
  unfold write
  -- One case for each width that the argument may be written in.
  split
  · next hsmall => exact ⟨argument, by omega, ⟨_, rfl⟩, fun rest => read_short hkind hsmall rest⟩
  split
  · next hone =>
    exact ⟨24, by decide, ⟨_, rfl⟩, fun rest => read_long (k := 0) hkind (by decide) hone rest⟩
  split
  · next htwo =>
    exact ⟨25, by decide, ⟨_, rfl⟩, fun rest => read_long (k := 1) hkind (by decide) htwo rest⟩
  split
  · next hfour =>
    exact ⟨26, by decide, ⟨_, rfl⟩, fun rest => read_long (k := 2) hkind (by decide) hfour rest⟩
  · exact ⟨27, by decide, ⟨_, rfl⟩, fun rest => read_long (k := 3) hkind (by decide) h rest⟩

end Head

/-! ## Parts of items -/

/-- The reader takes the bytes, whatever follows them, for `x`. -/
def Reads (read : Bytes → Except Error (α × Bytes)) (bs : Bytes) (x : α) : Prop :=
  ∀ rest, read (bs ++ rest) = .ok (x, rest)

/-- Things that are written one after another are read one after another. -/
theorem Reads.many {read : Bytes → Except Error (α × Bytes)} {parts : List Bytes} {xs : List α}
    (h : List.Forall₂ (Reads read) parts xs) (done : List α) :
    Reads (readMany read xs.length done) parts.flatten (done.reverse ++ xs) := by
  -- What was read is collected in reverse, so `done` grows with each part.
  induction h generalizing done with
  | nil =>
    intro rest
    simp [readMany]
  | @cons part x parts xs hfirst _ ih =>
    intro rest
    have hrest := ih (x :: done) rest
    rw [List.reverse_cons, List.append_assoc, List.singleton_append] at hrest
    rw [List.flatten_cons, List.append_assoc, List.length_cons, readMany, hfirst]
    exact hrest

/-- The elements of an array or the pairs of a map are read if there are no more than may be. -/
theorem Reads.elements {read : Bytes → Except Error (α × Bytes)} {parts : List Bytes} {xs : List α}
    (h : List.Forall₂ (Reads read) parts xs) (hsize : xs.length ≤ maxSize) (head : Head)
    (hinfo : head.info < 28) (hlength : head.argument = xs.length) :
    Reads (readElements read head) parts.flatten xs := by
  intro rest
  rw [readElements, Head.isOpen_eq_false hinfo, hlength, if_neg Bool.false_ne_true,
    if_neg (Nat.not_lt.2 hsize)]
  exact Reads.many h [] rest

/-! ## Items -/

/-- With `levels` of nesting left the bytes are an item, whatever follows them, and do not start
like a break. -/
structure Spells (levels : Nat) (bs : Bytes) (item : Item) : Prop where
  reads : Reads (Item.read levels false) bs item
  starts : ∃ b tail, bs = b :: tail ∧ b ≠ stop

/-- The bytes of a key and of its value are a pair of items. -/
structure SpellsPair (levels : Nat) (part : Bytes × Bytes) (pair : Item × Item) : Prop where
  key : Spells levels part.1 pair.1
  value : Spells levels part.2 pair.2

/-- A key and its value are read as a pair. -/
theorem SpellsPair.reads {levels : Nat} {part : Bytes × Bytes} {pair : Item × Item}
    (h : SpellsPair levels part pair) :
    Reads (readPair (Item.read levels false)) (part.1 ++ part.2) pair := by
  intro rest
  obtain ⟨key, value⟩ := part
  obtain ⟨hkey, hvalue⟩ := h
  obtain ⟨b, tail, rfl, hb⟩ := hvalue.starts
  -- The value does not look like the break that would leave the key without one.
  have hstop : ¬ (b :: tail ++ rest).head? = some stop := by simpa using hb
  rw [List.append_assoc, readPair, hkey.reads]
  simp only [bind, Except.bind, if_neg hstop, hvalue.reads rest]

/-- The item of an integer. -/
def Item.ofInt (n : Int) : Item :=
  if n < 0 then .negative (-1 - n).toNat else .unsigned n.toNat

namespace Spells

variable {levels : Nat}

/-- Bytes that start with a head are an item if the reader takes what follows the head for it. -/
theorem of_head {kind argument : Nat} {body : Bytes} {item : Item} (hkind : kind < 8)
    (h : argument < 2^64)
    (hbody : ∀ info < 28, ∀ bs rest, Head.read bs = .ok (⟨kind, info, argument⟩, body ++ rest) →
      Item.read levels false bs = .ok (item, rest)) :
    Spells levels (Head.write kind argument ++ body) item := by
  obtain ⟨info, hinfo, ⟨tail, hfirst⟩, hread⟩ := Head.read_write hkind h
  constructor
  · intro rest
    rw [List.append_assoc]
    exact hbody info hinfo _ rest (hread (body ++ rest))
  · exact ⟨Head.first kind info, tail ++ body, by rw [hfirst]; rfl, Head.first_ne_stop hkind hinfo⟩

/-- An integer that a head can hold. -/
theorem int {n : Int} (hmin : -2^64 ≤ n) (hmax : n < 2^64) :
    Spells levels (writeInt n) (.ofInt n) := by
  unfold writeInt Item.ofInt
  split
  · rw [← List.append_nil (Head.write _ _)]
    refine of_head (by decide) (by omega) fun info _ bs rest hhead => ?_
    rw [Item.read, hhead]
    rfl
  · rw [← List.append_nil (Head.write _ _)]
    refine of_head (by decide) (by omega) fun info _ bs rest hhead => ?_
    rw [Item.read, hhead]
    rfl

/-- A text whose length a head can hold. -/
theorem text {s : String} (h : s.utf8ByteSize < 2^64) :
    Spells levels (writeText s) (.text [Bytes.ofText s]) := by
  rw [← Bytes.length_ofText] at h
  refine of_head (by decide) h fun info hinfo bs rest hhead => ?_
  have hknown : (⟨3, info, (Bytes.ofText s).length⟩ : Head).isOpen = false :=
    Head.isOpen_eq_false hinfo
  have hsplit : Bytes.split? (Bytes.ofText s).length (Bytes.ofText s ++ rest) =
      some (Bytes.ofText s, rest) := Bytes.split?_append rfl rest
  rw [Item.read, hhead]
  simp [bind, Except.bind, readString, readChunk, hknown, hsplit]

/-- Nothing. -/
theorem null : Spells levels null (.simple 22) := by
  constructor
  · intro rest
    rw [Item.read]
    rfl
  · exact ⟨0xf6, [], rfl, by decide⟩

/-- An array of items, if there are no more than may be. -/
theorem array {parts : List Bytes} {items : List Item}
    (h : List.Forall₂ (Spells levels) parts items) (hsize : items.length ≤ maxSize) :
    Spells (levels + 1) (writeArray parts) (.array items) := by
  have hmax : maxSize = 131072 := rfl
  unfold writeArray
  refine of_head (by decide) (by rw [h.length_eq]; omega) fun info hinfo bs rest hhead => ?_
  have hreads := Reads.elements (h.imp fun _ _ hitem => hitem.reads) hsize
    ⟨4, info, parts.length⟩ hinfo h.length_eq rest
  rw [Item.read, hhead]
  simp [bind, Except.bind, hreads]

/-- A map of pairs of items, if there are no more than may be. -/
theorem map {parts : List (Bytes × Bytes)} {pairs : List (Item × Item)}
    (h : List.Forall₂ (SpellsPair levels) parts pairs) (hsize : pairs.length ≤ maxSize) :
    Spells (levels + 1) (writeMap parts) (.map pairs) := by
  have hmax : maxSize = 131072 := rfl
  have hpairs : List.Forall₂ (Reads (readPair (Item.read levels false)))
      (parts.map fun part => part.1 ++ part.2) pairs := by
    rw [List.forall₂_map_left_iff]
    exact h.imp fun _ _ hpair => hpair.reads
  unfold writeMap
  refine of_head (by decide) (by rw [h.length_eq]; omega) fun info hinfo bs rest hhead => ?_
  have hreads := Reads.elements hpairs hsize ⟨5, info, parts.length⟩ hinfo h.length_eq rest
  rw [Item.read, hhead]
  rw [← List.flatMap_def] at hreads
  simp [bind, Except.bind, hreads]

end Spells

/-- Bytes that spell an item and nothing more hold that item. -/
theorem Spells.ofBytes {bs : Bytes} {item : Item} (h : Spells maxDepth bs item) :
    Item.ofBytes bs = .ok item := by
  have hread := h.reads []
  rw [List.append_nil] at hread
  rw [Item.ofBytes, hread]
  rfl

end StackMachine.Cbor
