import StackMachine.Text.Hex
import StackMachine.Text.Printable

/-!
# Quoted text

Text from outside is shown in messages between double quotes. Quotes and backslashes inside it have
a backslash in front, and a character that cannot be printed is written as an escape.
-/

namespace StackMachine.Text.Quoted

/-- The letter that names a control character in an escape, if it has one. -/
def letter? (c : Char) : Option Char :=
  match c.toNat with
  | 0x07 => some 'a'
  | 0x08 => some 'b'
  | 0x09 => some 't'
  | 0x0a => some 'n'
  | 0x0b => some 'v'
  | 0x0c => some 'f'
  | 0x0d => some 'r'
  | _ => none

/-- The escape of a character by its code point. -/
def escape (c : Char) : List Char :=
  let n := c.toNat
  if n < 0x20 ∨ n = 0x7f then '\\' :: 'x' :: Hex.lower 2 n
  else if n < 0x10000 then '\\' :: 'u' :: Hex.lower 4 n
  else '\\' :: 'U' :: Hex.lower 8 n

/-- How one character stands between quotes. -/
def char (c : Char) : List Char :=
  if c = '"' ∨ c = '\\' then ['\\', c]
  else if isPrintable c then [c]
  else
    match letter? c with
    | some l => ['\\', l]
    | none => escape c

/-- A text between double quotes. -/
def text (s : String) : String :=
  String.ofList ('"' :: (s.toList.flatMap char ++ ['"']))

end StackMachine.Text.Quoted
