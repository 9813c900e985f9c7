/-!
# Decimal numerals

How integers are written: no leading zeros, a minus sign in front of a negative number, and no sign
otherwise. A field of fixed width counts the sign as one of its places and fills the rest with
zeros.
-/

namespace StackMachine.Decimal

/-- The digits of a natural number, most significant first. -/
def digits (n : Nat) : List Char :=
  Nat.toDigits 10 n

/-- A natural number in decimal. -/
def ofNat (n : Nat) : String :=
  String.ofList (digits n)

/-- An integer in decimal, with a minus sign if it is negative. -/
def ofInt (n : Int) : String :=
  if n < 0 then "-" ++ ofNat n.natAbs else ofNat n.natAbs

/-- A machine word in decimal, read as a signed number. -/
def ofWord (w : Int64) : String :=
  ofInt w.toInt

/-- A machine word in decimal with its sign always written. -/
def signed (w : Int64) : String :=
  if w < 0 then ofWord w else "+" ++ ofWord w

/-- An integer in at least `width` places, the sign being one of them, filled with zeros. -/
def padded (width : Nat) (n : Int) : String :=
  let ds := digits n.natAbs
  if n < 0 then
    "-" ++ String.ofList (List.replicate (width - 1 - ds.length) '0' ++ ds)
  else
    String.ofList (List.replicate (width - ds.length) '0' ++ ds)

end StackMachine.Decimal
