/-!
# Integers in several bases

An integer may have a sign and be written in base two, eight or sixteen after `0b`, `0o` or `0x`, in
base eight after a zero, and in base ten otherwise. Underscores may stand between digits where that
is asked for. Digits are taken one by one, and a number that grows too large is found before a later
character that is no digit.
-/

namespace StackMachine.Numeral

/-- Why a text is no integer of the wanted size. -/
inductive Error where
  | malformed
  | range
  deriving DecidableEq, Repr

/-- The value of a digit, letters of either case counting from ten. -/
def digit? (c : Char) : Option Nat :=
  if '0' ≤ c ∧ c ≤ '9' then some (c.toNat - '0'.toNat)
  else if 'a' ≤ c ∧ c ≤ 'z' then some (c.toNat - 'a'.toNat + 10)
  else if 'A' ≤ c ∧ c ≤ 'Z' then some (c.toNat - 'A'.toNat + 10)
  else none

/-- Reads digits onto `n`. The result is at most `limit`. -/
def digits (base limit : Nat) (n : Nat) : List Char → Except Error Nat
  | [] => .ok n
  | c :: cs =>
    match digit? c with
    | some d =>
      if base ≤ d then .error .malformed
      else if limit < base * n + d then .error .range
      else digits base limit (base * n + d) cs
    | none => .error .malformed

/-- The base that the start of a number tells, and the digits after it. -/
def base : List Char → Nat × List Char
  | '0' :: c :: d :: cs =>
    if c = 'b' ∨ c = 'B' then (2, d :: cs)
    else if c = 'o' ∨ c = 'O' then (8, d :: cs)
    else if c = 'x' ∨ c = 'X' then (16, d :: cs)
    -- A zero in front stands for base eight.
    else (8, c :: d :: cs)
  | '0' :: cs => (8, cs)
  | cs => (10, cs)

/-- The largest number of 64 bits. -/
def limit : Nat := 0xffffffffffffffff

/-- A number without a sign. -/
def unsigned : List Char → Except Error Nat
  | [] => .error .malformed
  | cs => digits (base cs).1 limit 0 (base cs).2

/-- The sign of a number, whether it is negative, and what follows. -/
def sign : List Char → Bool × List Char
  | '-' :: cs => (true, cs)
  | '+' :: cs => (false, cs)
  | cs => (false, cs)

/-- A number with its sign, if it fits into a word. -/
def withSign (negative : Bool) (n : Nat) : Except Error Int :=
  if negative then (if 0x8000000000000000 < n then .error .range else .ok (-n))
  else if 0x8000000000000000 ≤ n then .error .range else .ok n

/-- A number that may have a sign. -/
def signed (cs : List Char) : Except Error Int := do
  withSign (sign cs).1 (← unsigned (sign cs).2)

/-- A number in a given base that may have a sign. -/
def signedIn (b : Nat) (cs : List Char) : Except Error Int :=
  match (sign cs).2 with
  | [] => .error .malformed
  | ds => do withSign (sign cs).1 (← digits b limit 0 ds)

/-! ## Underscores -/

/-- Whether every underscore stands between two digits; `digit` says whether a digit stands right
before. -/
def separates (hex : Bool) (digit : Bool) : List Char → Bool
  | [] => true
  | c :: cs =>
    if c = '_' then
      match cs with
      | d :: _ => digit && isDigit d && separates hex false cs
      | [] => false
    else separates hex (isDigit c) cs
where
  /-- Whether a character is a digit. -/
  isDigit (c : Char) : Bool :=
    c.isDigit || (hex && (digit? c).any (· < 16))

/-- Whether the underscores of a number stand between digits or behind the letter of its base. -/
def underscoresFit (cs : List Char) : Bool :=
  match (sign cs).2 with
  | '0' :: c :: ds =>
    if c = 'x' ∨ c = 'X' then separates true true ds
    else if c = 'b' ∨ c = 'B' ∨ c = 'o' ∨ c = 'O' then separates false true ds
    else separates false false ('0' :: c :: ds)
  | ds => separates false false ds

/-- A number that may have a sign and underscores between its digits. -/
def separated (cs : List Char) : Except Error Int := do
  let n ← unsigned ((sign cs).2.filter (· ≠ '_'))
  if underscoresFit cs then withSign (sign cs).1 n else .error .malformed

end StackMachine.Numeral
