/-!
# Binary floating-point numbers

Decimals with a point or an exponent are read as the nearest number of a 53-bit significand and an
11-bit exponent, to the even one of two that are equally near. Only two things matter of the result:
whether the number is too large, and what it is without its fraction.
-/

namespace StackMachine

/-- A floating-point number. A finite one is its significand times two to the power of its
exponent. -/
inductive Binary64 where
  | nan
  | infinite (negative : Bool)
  | finite (negative : Bool) (significand : Nat) (exponent : Int)
  deriving DecidableEq, Repr

namespace Binary64

/-- The quotient of two numbers, rounded to the nearest, half to even. -/
def roundDiv (n d : Nat) : Nat :=
  let q := n / d
  let r := n % d
  if d < 2 * r ∨ (d = 2 * r ∧ q % 2 = 1) then q + 1 else q

/-- A fraction times two to a power. -/
def scale (n d : Nat) (e : Int) : Nat × Nat :=
  if 0 ≤ e then (n <<< e.toNat, d) else (n, d <<< (-e).toNat)

/-- The greatest power of two that is not above a positive fraction, by its exponent. -/
def log (n d : Nat) : Int :=
  let e : Int := n.log2 - d.log2
  let (a, b) := scale n d (-e)
  if a < b then e - 1 else e

/-- The number nearest to a fraction, nothing if it is too large. -/
def ofFraction? (negative : Bool) (n d : Nat) : Option Binary64 :=
  if n = 0 then some (.finite negative 0 0)
  else
    -- The significand has 53 bits, or fewer where the exponent can go no lower.
    let e := max (log n d - 52) (-1074)
    let (a, b) := scale n d (-e)
    let significand := roundDiv a b
    if 971 < e ∨ (e = 971 ∧ 0x20000000000000 ≤ significand) then none
    else some (.finite negative significand e)

/-- The number nearest to `m` times ten to the power `e`, nothing if it is too large. Powers that
are far out of range are never computed. -/
def ofDecimal? (negative : Bool) (m : Nat) (e : Int) : Option Binary64 :=
  let places : Int := (Nat.toDigits 10 m).length + e
  if m = 0 ∨ places < -330 then some (.finite negative 0 0)
  else if 310 < places then none
  else if 0 ≤ e then ofFraction? negative (m * Nat.pow 10 e.toNat) 1
  else ofFraction? negative m (Nat.pow 10 (-e).toNat)

/-- The number without its fraction, if it is finite. -/
def truncate? : Binary64 → Option Int
  | .finite negative significand exponent =>
    let n : Nat := if 0 ≤ exponent then significand <<< exponent.toNat
      else significand >>> (-exponent).toNat
    some (if negative then -n else n)
  | _ => none

/-- The machine word for a number without its fraction. Numbers above `2 ^ 63` have none, and those
that have none below become the least word, as does `2 ^ 63` itself. -/
def word? (x : Binary64) : Option Int64 :=
  match x with
  | .nan => none
  | .infinite negative => if negative then some Int64.minValue else none
  | x =>
    match x.truncate? with
    | some n =>
      if 0x8000000000000000 < n then none
      else if n = 0x8000000000000000 ∨ n < -0x8000000000000000 then some Int64.minValue
      else some (Int64.ofInt n)
    | none => none

end Binary64

/-! ## Decimals -/

namespace Decimal

/-- Reads an exponent behind its letter: a sign and digits, which fill the text. -/
def exponent? (cs : List Char) : Option Int :=
  let (negative, ds) := match cs with
    | '-' :: ds => (true, ds)
    | '+' :: ds => (false, ds)
    | ds => (false, ds)
  if ds.isEmpty || !ds.all Char.isDigit then none
  else
    let n : Nat := Nat.ofDigitChars 10 ds 0
    some (if negative then -n else n)

/-- Reads a decimal that fills the text: digits with a point among or around them, and an exponent
if there is one. The result is the digits as a number and the power of ten to scale it by. -/
def scaled? (cs : List Char) : Option (Nat × Int) := do
  let whole := cs.takeWhile Char.isDigit
  let rest := cs.drop whole.length
  let (fraction, rest) := match rest with
    | '.' :: rest => (rest.takeWhile Char.isDigit, rest.dropWhile Char.isDigit)
    | rest => ([], rest)
  if whole.isEmpty && fraction.isEmpty then none
  let e ← match rest with
    | [] => some 0
    | 'e' :: rest => exponent? rest
    | 'E' :: rest => exponent? rest
    | _ => none
  some (Nat.ofDigitChars 10 (whole ++ fraction) 0, e - fraction.length)

end Decimal

end StackMachine
