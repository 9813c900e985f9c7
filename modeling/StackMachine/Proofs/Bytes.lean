import Mathlib.Tactic.Ring
import StackMachine.Bytes

/-!
# Numbers and texts as bytes

What is written as bytes is read back: a number from as many bytes as it was written in, the first
bytes of a sequence from the sequence, and a text from its UTF-8.
-/

namespace StackMachine.Bytes

/-! ## Numbers -/

/-- A number is written in as many bytes as are asked for. -/
@[simp]
theorem length_ofNat (width n : Nat) : (ofNat width n).length = width := by
  induction width with
  | zero => rfl
  | succ width ih => simp [ofNat, ih]

/-- Bytes that come after others count less. -/
theorem foldl_toNat (bs : Bytes) (start : Nat) :
    bs.foldl (fun n b => 256 * n + b.toNat) start = start * 256 ^ bs.length + toNat bs := by
  unfold toNat
  -- The start is what was read before, shifted once for each byte behind it.
  induction bs generalizing start with
  | nil => simp
  | cons b bs ih =>
    rw [List.foldl_cons, List.foldl_cons, ih, ih (256 * 0 + b.toNat), List.length_cons,
      Nat.pow_succ]
    ring

/-- The first byte of a number counts most. -/
theorem toNat_cons (b : UInt8) (bs : Bytes) :
    toNat (b :: bs) = b.toNat * 256 ^ bs.length + toNat bs := by
  rw [toNat, List.foldl_cons, foldl_toNat]
  simp

/-- A number is read back up to what its bytes hold. -/
theorem toNat_ofNat_mod (width n : Nat) : toNat (ofNat width n) = n % 256 ^ width := by
  induction width with
  | zero => simp [ofNat, toNat, Nat.mod_one]
  | succ width ih =>
    -- The first byte is what is left above the lower ones, reduced to a byte.
    have hshift : n >>> (8 * width) = n / 256 ^ width := by
      rw [Nat.shiftRight_eq_div_pow, Nat.pow_mul]
    have hbyte : (UInt8.ofNat (n >>> (8 * width))).toNat = n / 256 ^ width % 256 := by
      rw [UInt8.toNat_ofNat', hshift]
    rw [ofNat, toNat_cons, hbyte, length_ofNat, ih, Nat.pow_succ, Nat.mod_mul]
    ring

/-- A number is read back from bytes that hold it. -/
theorem toNat_ofNat {width n : Nat} (h : n < 256 ^ width) : toNat (ofNat width n) = n := by
  rw [toNat_ofNat_mod, Nat.mod_eq_of_lt h]

/-! ## Parts -/

/-- The first bytes and the rest, if there are as many. -/
theorem split?_eq (n : Nat) (bs : Bytes) :
    split? n bs = if n ≤ bs.length then some (bs.take n, bs.drop n) else none := by
  -- The loop keeps what it has taken in reverse.
  have hgo (taken : Bytes) : split?.go n taken bs =
      if n ≤ bs.length then some (taken.reverse ++ bs.take n, bs.drop n) else none := by
    induction n generalizing taken bs with
    | zero => simp [split?.go]
    | succ n ih =>
      cases bs with
      | nil => simp [split?.go]
      | cons b bs => simp [split?.go, ih]
  rw [split?, hgo]
  rfl

/-- Bytes in front are split off. -/
theorem split?_append {n : Nat} {front : Bytes} (h : front.length = n) (rest : Bytes) :
    split? n (front ++ rest) = some (front, rest) := by
  subst h
  rw [split?_eq]
  simp

/-! ## Texts -/

/-- A text takes as many bytes as its UTF-8. -/
theorem length_ofText (s : String) : (ofText s).length = s.utf8ByteSize :=
  rfl

/-- A text is read back from its bytes. -/
theorem text?_ofText (s : String) : text? (ofText s) = some s := by
  have hvalid : s.toByteArray.IsValidUTF8 := s.isValidUTF8
  unfold text? ofText String.fromUTF8?
  rw [Array.toArray_toList]
  exact dif_pos hvalid

end StackMachine.Bytes
