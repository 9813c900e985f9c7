/-!
# Hexadecimal numerals

Code points are written in hexadecimal with a fixed number of places, and a digit is read in letters
of either case.
-/

namespace StackMachine.Text.Hex

/-- A number in at least `width` hexadecimal places with lower-case letters, filled with zeros. -/
def lower (width n : Nat) : List Char :=
  let ds := Nat.toDigits 16 n
  List.replicate (width - ds.length) '0' ++ ds

/-- A number in at least `width` hexadecimal places with upper-case letters, filled with zeros. -/
def upper (width n : Nat) : List Char :=
  (lower width n).map Char.toUpper

/-- The value of a hexadecimal digit. -/
def value? (c : Char) : Option Nat :=
  if '0' ≤ c ∧ c ≤ '9' then some (c.toNat - '0'.toNat)
  else if 'a' ≤ c ∧ c ≤ 'f' then some (c.toNat - 'a'.toNat + 10)
  else if 'A' ≤ c ∧ c ≤ 'F' then some (c.toNat - 'A'.toNat + 10)
  else none

/-- The number written by exactly `width` hexadecimal digits at the front, and what follows them. -/
def read? (width : Nat) (cs : List Char) : Option (Nat × List Char) := do
  let ds := cs.take width
  if ds.length < width then none
  let n ← ds.foldlM (fun n c => (value? c).map (16 * n + ·)) 0
  some (n, cs.drop width)

/-- The character with a code point, if there is one. -/
def char? (n : Nat) : Option Char :=
  if n.isValidChar then some (Char.ofNat n) else none

end StackMachine.Text.Hex
