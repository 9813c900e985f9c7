/-!
# Bytes

Contents of files are sequences of bytes. Text is kept as UTF-8, and numbers of a fixed width have
their most significant byte first.
-/

namespace StackMachine

/-- A sequence of bytes. -/
abbrev Bytes := List UInt8

namespace Bytes

/-- The bytes of a text. -/
def ofText (s : String) : Bytes :=
  s.toByteArray.data.toList

/-- The text that some bytes spell, if they are valid UTF-8. -/
def text? (bs : Bytes) : Option String :=
  String.fromUTF8? ⟨bs.toArray⟩

/-- Reads the character that some bytes start with, if they start with one. -/
def char? (bs : Bytes) : Option (Char × Bytes) :=
  [1, 2, 3, 4].findSome? fun n =>
    match (text? (bs.take n)).map String.toList with
    | some [c] => some (c, bs.drop n)
    | _ => none

/-- The text that some bytes spell, with the replacement character for every byte that belongs to
none. -/
def toText (bs : Bytes) : String :=
  match text? bs with
  | some s => s
  | none => String.ofList (go bs.length bs)
where
  /-- Reads at most `n` characters. -/
  go : Nat → Bytes → List Char
    | 0, _ => []
    | _ + 1, [] => []
    | n + 1, b :: bs =>
      match char? (b :: bs) with
      | some (c, rest) => c :: go n rest
      | none => Char.ofNat 0xfffd :: go n bs

/-- A number in `width` bytes, most significant first; what does not fit is dropped. -/
def ofNat : (width n : Nat) → Bytes
  | 0, _ => []
  | width + 1, n => UInt8.ofNat (n >>> (8 * width)) :: ofNat width n

/-- The number whose bytes are given, most significant first. -/
def toNat (bs : Bytes) : Nat :=
  bs.foldl (fun n b => 256 * n + b.toNat) 0

/-- The first `n` bytes and the rest, if there are as many. -/
def split? (n : Nat) (bs : Bytes) : Option (Bytes × Bytes) :=
  go n [] bs
where
  /-- Moves bytes to `taken`, which holds them in reverse. -/
  go : Nat → Bytes → Bytes → Option (Bytes × Bytes)
    | 0, taken, rest => some (taken.reverse, rest)
    | _ + 1, _, [] => none
    | n + 1, taken, b :: rest => go n (b :: taken) rest

end Bytes

end StackMachine
