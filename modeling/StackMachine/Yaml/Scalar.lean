import StackMachine.Binary64
import StackMachine.Bytes
import StackMachine.Numeral
import StackMachine.Yaml.Source
import StackMachine.Yaml.Timestamp

/-!
# The meaning of scalars

A scalar without quotes is null, a truth value, a number, a timestamp or a text, as its characters
tell. A tag may ask for one of these, and the characters then have to agree; quotes ask for text.
-/

namespace StackMachine.Yaml

/-- What a scalar stands for. -/
inductive Scalar where
  | null
  | bool (b : Bool)
  | integer (n : Int)
  | float (x : Binary64)
  | timestamp
  | text (s : String)
  deriving DecidableEq, Repr

namespace Scalar

/-- The tag of what a scalar stands for. -/
def tag : Scalar → String
  | .null => "!!null"
  | .bool _ => "!!bool"
  | .integer _ => "!!int"
  | .float _ => "!!float"
  | .timestamp => "!!timestamp"
  | .text _ => "!!str"

/-! ## Words -/

/-- The words with a meaning of their own. -/
def word? (s : String) : Option Scalar :=
  match s with
  | "true" => some (.bool true)
  | "True" => some (.bool true)
  | "TRUE" => some (.bool true)
  | "false" => some (.bool false)
  | "False" => some (.bool false)
  | "FALSE" => some (.bool false)
  | "" => some .null
  | "~" => some .null
  | "null" => some .null
  | "Null" => some .null
  | "NULL" => some .null
  | ".nan" => some (.float .nan)
  | ".NaN" => some (.float .nan)
  | ".NAN" => some (.float .nan)
  | ".inf" => some (.float (.infinite false))
  | ".Inf" => some (.float (.infinite false))
  | ".INF" => some (.float (.infinite false))
  | "+.inf" => some (.float (.infinite false))
  | "+.Inf" => some (.float (.infinite false))
  | "+.INF" => some (.float (.infinite false))
  | "-.inf" => some (.float (.infinite true))
  | "-.Inf" => some (.float (.infinite true))
  | "-.INF" => some (.float (.infinite true))
  | _ => none

/-! ## Numbers -/

/-- An integer behind the letter of a base, with the sign in front of all or behind the letter. -/
def based? (letter : Char) (base : Nat) (cs : List Char) : Option Int :=
  match cs with
  | '0' :: c :: ds => if c = letter then (Numeral.signedIn base ds).toOption else none
  | '-' :: '0' :: c :: ds =>
    if c = letter then (Numeral.signedIn base ('-' :: ds)).toOption else none
  | _ => none

/-- A decimal with a point or an exponent. -/
def decimal? (cs : List Char) : Option Binary64 := do
  let (negative, ds) := Numeral.sign cs
  let (m, e) ← Decimal.scaled? ds
  Binary64.ofDecimal? negative m e

/-- The number that a text without underscores stands for. -/
def number? (cs : List Char) : Option Scalar :=
  match Numeral.signed cs with
  | .ok n => some (.integer n)
  | .error _ =>
    -- Integers reach up to 64 bits without a sign; whether they fit is for those who ask.
    match Numeral.unsigned cs with
    | .ok n => some (.integer n)
    | .error _ =>
      match decimal? cs with
      | some x => some (.float x)
      | none => ((based? 'b' 2 cs).orElse fun _ => based? 'o' 8 cs).map .integer

/-- The number that a text which starts with a point stands for. Underscores stand between digits
only. -/
def fraction? (cs : List Char) : Option Scalar :=
  if cs.contains '_' && !Numeral.underscoresFit cs then none
  else (decimal? (cs.filter (· ≠ '_'))).map .float

/-! ## Meaning -/

/-- What a text stands for by its characters; `dated` says whether it may be a timestamp. -/
def ofText (dated : Bool) (s : String) : Scalar :=
  match word? s with
  | some v => v
  | none =>
    let cs := s.toList
    match cs with
    | [] => .text s
    | c :: _ =>
      if c = '.' then (fraction? cs).getD (.text s)
      else if c = '+' ∨ c = '-' ∨ c.isDigit then
        if dated && Timestamp.isTimestamp cs then .timestamp
        else (number? (cs.filter (· ≠ '_'))).getD (.text s)
      else .text s

/-- The bytes of one group of base 64, six bits for each of its digits. -/
def group (ds : List Nat) : Bytes :=
  let n := (ds ++ List.replicate (4 - ds.length) 0).foldl (64 * · + ·) 0
  (Bytes.ofNat 3 n).take (ds.length - 1)

/-- The value of a digit of base 64. -/
def digit64? (c : Char) : Option Nat :=
  if c.isUpper then some (c.toNat - 'A'.toNat)
  else if c.isLower then some (c.toNat - 'a'.toNat + 26)
  else if c.isDigit then some (c.toNat - '0'.toNat + 52)
  else if c = '+' then some 62
  else if c = '/' then some 63
  else none

/-- The bytes that a text in base 64 stands for. -/
def base64? : List Char → Option Bytes
  | [] => some []
  | [a, b, '=', '='] => do some (group [← digit64? a, ← digit64? b])
  | [a, b, c, '='] => do some (group [← digit64? a, ← digit64? b, ← digit64? c])
  | a :: b :: c :: d :: cs => do
    let bs := group [← digit64? a, ← digit64? b, ← digit64? c, ← digit64? d]
    some (bs ++ (← base64? cs))
  | _ => none

/-- What a text stands for under a tag. -/
def ofTagged (tag s : String) : Except Error Scalar :=
  if tag = "!!str" then .ok (.text s)
  else if tag = "!!binary" then
    match base64? (s.toList.filter fun c => c ≠ '\n' && c ≠ '\r') with
    | some bs => .ok (.text (Bytes.toText bs))
    | none => .error (.scalar tag)
  else if tag = "!!merge" ∧ s = "<<" then .ok (.text s)
  else
    let v := ofText (tag = "!!timestamp") s
    if v.tag = tag then .ok v
    else
      match tag, v with
      | "!!float", .integer n =>
        if n < 0x8000000000000000 then
          match Binary64.ofFraction? (n < 0) n.natAbs 1 with
          | some x => .ok (.float x)
          | none => .error (.scalar tag)
        else .error (.scalar tag)
      | _, _ => .error (.scalar tag)

end Scalar

end StackMachine.Yaml
