import StackMachine.Text.Hex
import StackMachine.Yaml.Scalar

/-!
# How texts are written in YAML

A text is written plainly where that reads back as the same text. Otherwise it stands between single
quotes or, when it has characters that need an escape or would be read as something other than a
text, between double quotes. A text of several lines is written as a literal block where that is
possible.
-/

namespace StackMachine.Yaml.Written

/-! ## What a text consists of -/

/-- Whether two neighbours in a text satisfy `p`. -/
def anyNeighbours (p : Char → Char → Bool) : List Char → Bool
  | a :: b :: cs => p a b || anyNeighbours p (b :: cs)
  | _ => false

/-- Whether a character can be written without an escape. -/
def isPrintable (c : Char) : Bool :=
  let n := c.toNat
  n == 0x0a || (0x20 ≤ n && n ≤ 0x7e) || (0xa0 ≤ n && n ≤ 0xfffd && n != 0xfeff)

/-- Whether a character has to be escaped, tabs apart. -/
def isSpecial (c : Char) : Bool :=
  c != '\t' && !isPrintable c

/-- Whether some text is empty or goes on with a blank. -/
def atBlank (cs : List Char) : Bool :=
  cs.isEmpty || cs.head?.any isBlank

/-- Whether a text has an indicator behind its first character, which is `previous`. -/
def hasIndicator (previous : Char) : List Char → Bool
  | [] => false
  | c :: cs =>
    (c == ':' && atBlank cs) || (c == '#' && (isBlank previous || isBreak previous)) ||
      hasIndicator c cs

/-- Whether a text starts with an indicator or a mark between documents. -/
def startsWithIndicator : List Char → Bool
  | [] => false
  | c :: cs =>
    "#,[]\x7b\x7d&*!|>'\"%@`".toList.contains c ||
      ((c == '?' || c == ':' || c == '-') && atBlank cs) ||
      "---".toList.isPrefixOf (c :: cs) || "...".toList.isPrefixOf (c :: cs)

/-- Whether a space stands before a break. -/
def spaceBreak : List Char → Bool :=
  anyNeighbours fun a b => a == ' ' && isBreak b

/-- Whether a break stands before a space. -/
def breakSpace : List Char → Bool :=
  anyNeighbours fun a b => isBreak a && b == ' '

/-- Whether a text can stand between single quotes. -/
def fitsSingle (cs : List Char) : Bool :=
  !breakSpace cs && !spaceBreak cs && !cs.contains '\t' && !cs.any isSpecial

/-- Whether a text can be written plainly. -/
def fitsPlain (cs : List Char) : Bool :=
  fitsSingle cs && !cs.any isBreak && cs.head? != some ' ' && cs.getLast? != some ' ' &&
    !startsWithIndicator cs &&
    (match cs with
    | [] => true
    | c :: cs => !hasIndicator c cs)

/-- Whether a text can be written as a literal block. -/
def fitsBlock (cs : List Char) : Bool :=
  cs.getLast? != some ' ' && !spaceBreak cs && !cs.any isSpecial

/-! ## What a text would be read as -/

/-- The words that older versions of the format read as truth values. -/
def oldWords : List String :=
  ["y", "Y", "yes", "Yes", "YES", "on", "On", "ON", "n", "N", "no", "No", "NO", "off", "Off", "OFF"]

/-- Whether a text is a colon and at most two digits, of which two are below sixty, as many times as
it takes, with a fraction at the end or not. -/
def isSixties : List Char → Bool
  | [] => true
  | '.' :: cs => cs.all fun c => c.isDigit || c == '_'
  | ':' :: a :: b :: cs =>
    if b.isDigit then '0' ≤ a && a ≤ '5' && isSixties cs else a.isDigit && isSixties (b :: cs)
  | [':', a] => a.isDigit
  | _ => false

/-- Whether a text is a number in base sixty, which older versions of the format have. -/
def isSexagesimal (cs : List Char) : Bool :=
  let ds := (Numeral.sign cs).2
  let rest := ds.dropWhile fun c => c.isDigit || c == '_'
  ds.head?.any Char.isDigit && rest.head? == some ':' && isSixties rest

/-- Whether a text that is written plainly would be read as a text, by older versions too. -/
def readsAsText (s : String) : Bool :=
  (Scalar.ofText true s).tag == "!!str" && !isSexagesimal s.toList && !oldWords.contains s

/-! ## Styles -/

/-- The letter that stands for a character after a backslash, if there is one. -/
def letter? (c : Char) : Option Char :=
  match c.toNat with
  | 0x00 => some '0'
  | 0x07 => some 'a'
  | 0x08 => some 'b'
  | 0x09 => some 't'
  | 0x0a => some 'n'
  | 0x0b => some 'v'
  | 0x0c => some 'f'
  | 0x0d => some 'r'
  | 0x1b => some 'e'
  | 0x22 => some '"'
  | 0x5c => some '\\'
  | 0x85 => some 'N'
  | 0x2028 => some 'L'
  | 0x2029 => some 'P'
  | _ => none

/-- The escape of a character. -/
def escape (c : Char) : List Char :=
  match letter? c with
  | some l => ['\\', l]
  | none =>
    let n := c.toNat
    if n ≤ 0xff then '\\' :: 'x' :: Text.Hex.upper 2 n
    else if n ≤ 0xffff then '\\' :: 'u' :: Text.Hex.upper 4 n
    else '\\' :: 'U' :: Text.Hex.upper 8 n

/-- How a character stands between double quotes. -/
def doubleChar (c : Char) : List Char :=
  if !isPrintable c || isBreak c || c == '"' || c == '\\' then escape c else [c]

/-- A text between double quotes. -/
def double (cs : List Char) : List Char :=
  '"' :: (cs.flatMap doubleChar ++ ['"'])

/-- The indentation of lines that continue a text. -/
def indentation : List Char := [' ', ' ']

/-- Indents what follows a break, empty lines apart; `fresh` says whether a break stands right
before. -/
def indented (fresh : Bool) : List Char → List Char
  | [] => []
  | c :: cs =>
    if isBreak c then c :: indented true cs
    else if fresh then indentation ++ c :: indented false cs
    else c :: indented false cs

/-- A text between single quotes. -/
def single (cs : List Char) : List Char :=
  '\'' :: ((indented false cs).flatMap (fun c => if c = '\'' then [c, c] else [c]) ++ ['\''])

/-- What is said about the end of a block, and how far it is indented if that cannot be seen. -/
def hints (cs : List Char) : List Char :=
  let indent := if cs.head?.any fun c => c == ' ' || isBreak c then ['2'] else []
  let chomp := match cs.reverse with
    | [] => ['-']
    | a :: rest =>
      if !isBreak a then ['-'] else if rest.isEmpty || rest.head?.any isBreak then ['+'] else []
  indent ++ chomp

/-- A text as a literal block. A break at its start ends the line of the indicator. -/
def literal (cs : List Char) : List Char :=
  let body := if cs.head?.any isBreak then indented true cs else '\n' :: indented true cs
  '|' :: (hints cs ++ body)

/-- The value of a key in a block, from behind the colon to the end of the line. -/
def value (s : String) : List Char :=
  let cs := s.toList
  let written :=
    if cs.contains '\n' then (if fitsBlock cs then literal cs else double cs)
    else if !readsAsText s then double cs
    else if fitsPlain cs then cs
    else if fitsSingle cs then single cs
    else double cs
  let stop := if written.getLast?.any isBreak then [] else ['\n']
  ' ' :: (written ++ stop)

end StackMachine.Yaml.Written
