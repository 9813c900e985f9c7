import StackMachine.Text.Blank

/-!
# Coloured text

Text is coloured by an escape sequence in front of it and a reset behind it. Whether colours are in
use is decided by the environment and can be switched.

The section on terminal detection of the specification says what decides about colours.
-/

namespace StackMachine

/-- What the environment says about colours. -/
structure Environment where
  /-- Any text here forbids colours. -/
  noColor : String := ""
  /-- Any text here but `0` asks for colours. -/
  forceColor : String := ""
  /-- Whether the output is a terminal. -/
  terminal : Bool := false

/-- Whether the environment wants colours: what forbids them comes first, then what asks for them,
and otherwise a terminal has them. -/
def Environment.wantsColor (env : Environment) : Bool :=
  if env.noColor ≠ "" then false
  else if env.forceColor ≠ "" ∧ env.forceColor ≠ "0" then true
  else env.terminal

/-- Whether colours are in use. -/
structure Palette where
  enabled : Bool := false

namespace Palette

/-- The sequence with the given number. -/
def sequence (code : String) : String :=
  "\x1b[" ++ code ++ "m"

/-- Ends every colour. -/
def reset : String := sequence "0"

/-- A text behind an escape sequence and in front of a reset. -/
def paint (p : Palette) (start text : String) : String :=
  if p.enabled then start ++ text ++ reset else text

/-- Green text. -/
def green (p : Palette) (text : String) : String :=
  p.paint (sequence "32") text

/-- Yellow text. -/
def yellow (p : Palette) (text : String) : String :=
  p.paint (sequence "33") text

/-- Blue text. -/
def blue (p : Palette) (text : String) : String :=
  p.paint (sequence "34") text

/-- Cyan text. -/
def cyan (p : Palette) (text : String) : String :=
  p.paint (sequence "36") text

/-- Gray text. -/
def gray (p : Palette) (text : String) : String :=
  p.paint (sequence "90") text

/-- Bright red text. -/
def brightRed (p : Palette) (text : String) : String :=
  p.paint (sequence "91") text

/-- An error message. -/
def error (p : Palette) (message : String) : String :=
  p.brightRed "Error: " ++ message

/-- A line of a listing. Offset, mnemonic and operands have a colour each, and single spaces divide
them then. A line of fewer than two words stays as it is. -/
def listing (p : Palette) (line : String) : String :=
  if p.enabled then
    match Text.words line with
    | offset :: mnemonic :: operands =>
      " ".intercalate (p.cyan offset :: p.yellow mnemonic :: operands.map p.blue)
    | _ => line
  else line

end Palette

end StackMachine
