import StackMachine.Palette
import StackMachine.Text.Quoted

/-!
# Log records

A record has a level, a message and pairs of keys and values. It is written as one line, on which a
value that could be misread is quoted; a value of several lines is written below its key instead. A
logger decides which records are written, and how.

Records and their levels are the subject of the section on logging of the specification.
-/

namespace StackMachine

/-- How grave a record is. -/
inductive Level where
  | debug
  | info
  | error
  | fatal
  deriving DecidableEq, Repr

namespace Level

/-- What a level is called on a line. -/
def name : Level → String
  | .debug => "DEBU"
  | .info => "INFO"
  | .error => "ERRO"
  | .fatal => "FATA"

/-- The number of a level's colour among 256. -/
def hue : Level → String
  | .debug => "63"
  | .info => "86"
  | .error => "204"
  | .fatal => "134"

/-- Whether a level is written even if little is asked for. -/
def isGrave : Level → Bool
  | .debug | .info => false
  | .error | .fatal => true

end Level

/-- One thing to say. -/
structure Record where
  level : Level
  message : String
  pairs : List (String × String) := []
  deriving DecidableEq, Repr

/-- How records are written. -/
structure Logger where
  /-- Whether records of every level are written, with the place they come from. -/
  verbose : Bool := false
  color : Bool := false
  /-- The place that records come from. -/
  caller : String := ""
  deriving DecidableEq, Repr

namespace Logger

/-- What stands in front of every message. -/
def label : String := "STACKVM:"

/-- A text in the style of an escape sequence. -/
def style (l : Logger) (code text : String) : String :=
  ({ enabled := l.color } : Palette).paint (Palette.sequence code) text

/-- A text that stands back. -/
def faint (l : Logger) (text : String) : String :=
  l.style "2" text

/-- Whether a character of a value asks for quotes around it. -/
def isOdd (c : Char) : Bool :=
  c == ' ' || c == '"' || c == '=' || c == '�' || !Text.isPrintable c

/-- How a character of a value is written if it cannot be printed. -/
def escape (c : Char) : List Char :=
  match Text.Quoted.letter? c with
  | some letter => ['\\', letter]
  | none =>
    if c.toNat < 0x20 then '\\' :: 'x' :: Text.Hex.lower 2 c.toNat
    else if c.toNat < 0x10000 then '\\' :: 'u' :: Text.Hex.lower 4 c.toNat
    else '\\' :: 'U' :: Text.Hex.lower 8 c.toNat

/-- A value without characters that cannot be printed. -/
def escaped (s : String) : String :=
  String.ofList (s.toList.flatMap fun c => if Text.isPrintable c then [c] else escape c)

/-- A value between quotes. -/
def quoted (s : String) : String :=
  let inside := s.toList.flatMap fun c =>
    if c = '"' then ['\\', '"'] else if Text.isPrintable c then [c] else escape c
  String.ofList ('"' :: (inside ++ ['"']))

/-- A value on the line of its key. -/
def inline (s : String) : String :=
  if s = "" then "\"\"" else if s.toList.any isOdd then quoted s else s

/-- The lines of a value below its key. The last one is ended only if a pair follows, and left out
if it is empty. -/
def below (l : Logger) (followed : Bool) : List String → String
  | [] => ""
  | [line] =>
    if line = "" then ""
    else l.faint "  │ " ++ escaped line ++ (if followed then "\n" else "")
  | line :: lines => l.faint "  │ " ++ escaped line ++ "\n" ++ below l followed lines

/-- A pair with what divides it from the text before it. -/
def pair (l : Logger) (followed : Bool) (key value : String) : String :=
  let name := l.faint key ++ l.faint "="
  if value.toList.contains '\n' then
    "\n  " ++ name ++ "\n" ++ l.below followed (value.splitOn "\n")
  else " " ++ name ++ inline value

/-- A sequence of pairs. -/
def pairs (l : Logger) : List (String × String) → String
  | [] => ""
  | (key, value) :: rest => l.pair (!rest.isEmpty) key value ++ pairs l rest

/-- The line of a record. -/
def line (l : Logger) (r : Record) : String :=
  let place := if l.verbose then l.faint ("<" ++ l.caller ++ ">") ++ " " else ""
  l.style ("1;38;5;" ++ r.level.hue) r.level.name ++ " " ++ place ++ l.style "1;2" label ++ " " ++
    r.message ++ l.pairs r.pairs ++ "\n"

/-- Whether a record is written at all. -/
def shows (l : Logger) (r : Record) : Bool :=
  l.verbose || r.level.isGrave

/-- The text of a sequence of records. -/
def text (l : Logger) (records : Array Record) : String :=
  records.foldl (fun text r => if l.shows r then text ++ l.line r else text) ""

end Logger

end StackMachine
