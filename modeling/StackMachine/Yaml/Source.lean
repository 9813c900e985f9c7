import StackMachine.Bytes

/-!
# The characters of a YAML text

A text is UTF-8 or, after a byte order mark that says so, UTF-16. It may hold no control characters
but tabs and line breaks. Lines end at a carriage return, a line feed, both in this order, or one of
three breaks outside ASCII.
-/

namespace StackMachine.Yaml

/-- Why a text is not what is looked for. -/
inductive Error where
  | encoding
  | character (c : Char)
  | token (problem : String)
  | shape (problem : String)
  | noDocument
  | anchor (name : String)
  | scalar (tag : String)
  | duplicate (key : String)
  | field (key : String)
  | merge
  | mismatch (wanted : String)
  deriving DecidableEq, Repr

/-- The wording of an error. -/
def Error.message : Error → String
  | .encoding => "yaml: the bytes are no text"
  | .character _ => "yaml: control characters are not allowed"
  | .token problem => "yaml: " ++ problem
  | .shape problem => "yaml: " ++ problem
  | .noDocument => "yaml: there is no document"
  | .anchor name => "yaml: unknown anchor " ++ name
  | .scalar tag => "yaml: the value is not of type " ++ tag
  | .duplicate key => "yaml: key " ++ key ++ " is given twice"
  | .field key => "yaml: there is no field " ++ key
  | .merge => "yaml: only mappings can be merged"
  | .mismatch wanted => "yaml: expected " ++ wanted

/-! ## Decoding -/

/-- The byte order mark. -/
def mark : Char := Char.ofNat 0xfeff

/-- The characters of units of sixteen bits. A pair of surrogates is one character. -/
def ofUnits : List Nat → Option (List Char)
  | [] => some []
  | high :: units =>
    if 0xd800 ≤ high ∧ high < 0xdc00 then
      match units with
      | low :: units =>
        if 0xdc00 ≤ low ∧ low < 0xe000 then
          let n := 0x10000 + (high - 0xd800) * 0x400 + (low - 0xdc00)
          (ofUnits units).map (Char.ofNat n :: ·)
        else none
      | [] => none
    else if 0xdc00 ≤ high ∧ high < 0xe000 then none
    else (ofUnits units).map (Char.ofNat high :: ·)

/-- The units of sixteen bits whose bytes are given; `order` makes a unit of two bytes. -/
def units (order : UInt8 → UInt8 → Nat) : Bytes → Option (List Nat)
  | [] => some []
  | [_] => none
  | a :: b :: rest => (units order rest).map (order a b :: ·)

/-- The characters that bytes stand for, without a byte order mark. -/
def decode (bs : Bytes) : Option (List Char) :=
  match bs with
  | 0xff :: 0xfe :: rest => units (fun low high => 256 * high.toNat + low.toNat) rest >>= ofUnits
  | 0xfe :: 0xff :: rest => units (fun high low => 256 * high.toNat + low.toNat) rest >>= ofUnits
  | 0xef :: 0xbb :: 0xbf :: rest => (Bytes.text? rest).map String.toList
  | _ => (Bytes.text? bs).map String.toList

/-- Whether a character may stand in a text. -/
def isAllowed (c : Char) : Bool :=
  let n := c.toNat
  n = 0x09 || n = 0x0a || n = 0x0d || (0x20 ≤ n && n ≤ 0x7e) || n = 0x85 ||
    (0xa0 ≤ n && n ≤ 0xfffd) || 0x10000 ≤ n

/-- The characters of a text. -/
def source (bs : Bytes) : Except Error (List Char) :=
  match decode bs with
  | none => .error .encoding
  | some cs =>
    match cs.find? (!isAllowed ·) with
    | some c => .error (.character c)
    | none => .ok cs

/-! ## Kinds of characters -/

/-- Whether a character ends a line. -/
def isBreak (c : Char) : Bool :=
  c == '\n' || c == '\r' || c.toNat == 0x85 || c.toNat == 0x2028 || c.toNat == 0x2029

/-- The break that stands for a break of the text: those in use today are all read as a line
feed. -/
def normalBreak (c : Char) : Char :=
  if c.toNat = 0x2028 ∨ c.toNat = 0x2029 then c else '\n'

/-- Whether a character is a space or a tab. -/
def isBlank (c : Char) : Bool :=
  c == ' ' || c == '\t'

/-- Whether a character may stand in a name: a letter, a digit, a dash or an underscore. -/
def isWord (c : Char) : Bool :=
  c.isAlphanum || c == '_' || c == '-'

/-- Whether the text ends here or goes on with a blank or a break. -/
def atGap : List Char → Bool
  | [] => true
  | c :: _ => isBlank c || isBreak c

/-- Whether the line ends here. -/
def atLineEnd : List Char → Bool
  | [] => true
  | c :: _ => isBreak c

/-! ## Positions -/

/-- A place in a text, counted in characters from its start and from the start of the line. -/
structure Position where
  index : Nat := 0
  line : Nat := 0
  column : Nat := 0
  deriving DecidableEq, Repr

namespace Position

/-- The place `n` characters further on in the same line. -/
def skip (p : Position) (n : Nat) : Position :=
  { p with index := p.index + n, column := p.column + n }

/-- The start of the next line, behind a break of `n` characters. -/
def newLine (p : Position) (n : Nat) : Position :=
  { index := p.index + n, line := p.line + 1, column := 0 }

end Position

/-- A place in a text together with the text from there on. -/
structure Cursor where
  rest : List Char
  position : Position := {}

namespace Cursor

/-- The place `n` characters further on in the same line. -/
def skip (c : Cursor) (n : Nat) : Cursor :=
  { rest := c.rest.drop n, position := c.position.skip n }

/-- The place behind the leading characters that satisfy `p`, which are no breaks. -/
def skipWhile (p : Char → Bool) (c : Cursor) : Cursor :=
  c.skip (c.rest.takeWhile p).length

/-- The place behind the break that stands here, or this place if there is none. -/
def skipBreak (c : Cursor) : Cursor :=
  match c.rest with
  | '\r' :: '\n' :: rest => { rest, position := c.position.newLine 2 }
  | b :: rest => if isBreak b then { rest, position := c.position.newLine 1 } else c
  | [] => c

/-- The end of the line. -/
def skipLine (c : Cursor) : Cursor :=
  c.skipWhile (!isBreak ·)

end Cursor

/-- Whether a line starts here with the three characters `m` and a gap: a mark between
documents. -/
def startsMark (m : Char) (column : Nat) (cs : List Char) : Bool :=
  column == 0 && [m, m, m].isPrefixOf cs && atGap (cs.drop 3)

/-- Whether a line starts here with a mark between documents. -/
def atMark (column : Nat) (cs : List Char) : Bool :=
  startsMark '-' column cs || startsMark '.' column cs

end StackMachine.Yaml
