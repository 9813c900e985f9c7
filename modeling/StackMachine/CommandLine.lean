import StackMachine.Numeral
import StackMachine.Runner

/-!
# The command line

Arguments are flags, each with one dash or two, and then the file with an image. A switch takes a
value only behind an equals sign; any other flag takes it there or as the next argument. Flags end
at the first argument that is none, or behind two dashes.

The flags are those of §6.3 of the specification, which also says what goes to which stream and when
the command fails.
-/

namespace StackMachine.CommandLine

/-- What the command is called. -/
def command : String := "stackvm"

/-- The argument of a built-in program if none is given. -/
def defaultArgument : Int64 := 6

/-- What the arguments ask for. -/
structure Request where
  options : Runner.Options := { argument := defaultArgument }
  help : Bool := false
  /-- What follows the flags. -/
  rest : List String := []
  deriving DecidableEq, Repr

/-- What a flag sets. -/
inductive Target where
  | switch (set : Bool → Request → Request)
  | number (initial : Int64) (set : Int64 → Request → Request)
  | text (set : String → Request → Request)

/-- A flag with its explanation. -/
structure Flag where
  name : String
  usage : String
  target : Target

/-- The flags, sorted by name. -/
def flags : List Flag := [
  { name := "a"
    usage := "Argument for the built-in program (add prints arg+arg)"
    target := .number defaultArgument fun n r => { r with options.argument := n } },
  { name := "c"
    usage := "Config file (default ./" ++ Settings.defaultFile ++ " if present)"
    target := .text fun s r => { r with options.settingsFile := s } },
  { name := "d"
    usage := "Print disassembly before running"
    target := .switch fun b r => { r with options.disassemble := b } },
  { name := "h"
    usage := "Show help"
    target := .switch fun b r => { r with help := b } },
  { name := "k"
    usage := "Operand stack capacity (0 = from config)"
    target := .number 0 fun n r => { r with options.stackCapacity := n } },
  { name := "m"
    usage := "Maximum instructions to execute (0 = unlimited)"
    target := .number 0 fun n r => { r with options.maxSteps := n } },
  { name := "n"
    usage := "No color"
    target := .switch fun b r => { r with options.noColor := b } },
  { name := "o"
    usage := "Write the program image to this file (.yaml or .cbor)"
    target := .text fun s r => { r with options.outputFile := s } },
  { name := "p"
    usage := "Built-in program (" ++ ", ".intercalate Program.names ++ ")"
    target := .text fun s r => { r with options.program := s } },
  { name := "s"
    usage := "Dump the residual stack after the run"
    target := .switch fun b r => { r with options.dumpStack := b } },
  { name := "t"
    usage := "Trace every instruction (needs -v)"
    target := .switch fun b r => { r with options.trace := b } },
  { name := "v"
    usage := "Verbose mode"
    target := .switch fun b r => { r with options.verbose := b } },
  { name := "x"
    usage := "Do not execute (combine with -d or -o)"
    target := .switch fun b r => { r with options.noRun := b } }]

/-! ## Explanations -/

/-- The explanation of a flag. What it is set to without being given is named unless it is empty. -/
def Flag.text (f : Flag) : String :=
  match f.target with
  | .switch _ => "  -" ++ f.name ++ "\t" ++ f.usage ++ "\n"
  | .number initial _ =>
    let default := if initial = 0 then "" else " (default " ++ Decimal.ofWord initial ++ ")"
    "  -" ++ f.name ++ " int\n    \t" ++ f.usage ++ default ++ "\n"
  | .text _ => "  -" ++ f.name ++ " string\n    \t" ++ f.usage ++ "\n"

/-- The explanations of all flags. -/
def table : String :=
  String.join (flags.map Flag.text)

/-- The explanations that follow a mistake. -/
def usage : String :=
  "Usage of " ++ command ++ ":\n" ++ table

/-! ## Reading -/

/-- Why arguments cannot be read. -/
inductive Error where
  | malformed (argument : String)
  | undefined (name : String)
  | valueMissing (name : String)
  | notBoolean (name value : String)
  | notNumber (name value : String) (cause : Numeral.Error)
  /-- The explanations were asked for by a name that is no flag. -/
  | help
  deriving DecidableEq, Repr

/-- What is said of a numeral that cannot be read. -/
def numeralMessage : Numeral.Error → String
  | .malformed => "parse error"
  | .range => "value out of range"

/-- The line about an error; there is none where only the explanations are asked for. -/
def Error.message : Error → String
  | .malformed argument => "bad flag syntax: " ++ argument ++ "\n"
  | .undefined name => "flag provided but not defined: -" ++ name ++ "\n"
  | .valueMissing name => "flag needs an argument: -" ++ name ++ "\n"
  | .notBoolean name value =>
    "invalid boolean value " ++ Text.Quoted.text value ++ " for -" ++ name ++ ": parse error\n"
  | .notNumber name value cause =>
    "invalid value " ++ Text.Quoted.text value ++ " for flag -" ++ name ++ ": " ++
      numeralMessage cause ++ "\n"
  | .help => ""

/-- The exit code of a command with an error in its arguments. -/
def Error.code : Error → UInt32
  | .help => 0
  | _ => 2

/-- What one argument is. -/
inductive Argument where
  /-- A flag, with the value behind its equals sign. -/
  | flag (name : String) (value : Option String)
  /-- Two dashes. -/
  | stop
  | plain
  | malformed

/-- A flag from what follows its dashes. -/
def Argument.ofName (cs : List Char) : Argument :=
  match cs with
  | [] | '-' :: _ | '=' :: _ => .malformed
  | _ =>
    let name := String.ofList (cs.takeWhile (· ≠ '='))
    match cs.dropWhile (· ≠ '=') with
    | [] => .flag name none
    | _ :: value => .flag name (some (String.ofList value))

/-- What an argument is. -/
def Argument.ofText (s : String) : Argument :=
  match s.toList with
  | ['-', '-'] => .stop
  | '-' :: '-' :: name => .ofName name
  | ['-'] => .plain
  | '-' :: name => .ofName name
  | _ => .plain

/-- The truth value of a text. -/
def boolean? (s : String) : Option Bool :=
  if ["1", "t", "T", "TRUE", "true", "True"].contains s then some true
  else if ["0", "f", "F", "FALSE", "false", "False"].contains s then some false
  else none

/-- Sets a flag to a value. -/
def Flag.set (f : Flag) (value : String) (r : Request) : Except Error Request :=
  match f.target with
  | .switch set =>
    match boolean? value with
    | some b => .ok (set b r)
    | none => .error (.notBoolean f.name value)
  | .number _ set =>
    match Numeral.separated value.toList with
    | .ok n => .ok (set (Int64.ofInt n) r)
    | .error cause => .error (.notNumber f.name value cause)
  | .text set => .ok (set value r)

/-- The flag of a name. -/
def Flag.find (name : String) : Except Error Flag :=
  match flags.find? (·.name = name) with
  | some f => .ok f
  | none => .error (if name = "help" then .help else .undefined name)

/-- Reads arguments on top of a request. -/
def read (r : Request) : List String → Except Error Request
  | [] => .ok r
  | argument :: rest =>
    match Argument.ofText argument with
    | .plain => .ok { r with rest := argument :: rest }
    | .stop => .ok { r with rest }
    | .malformed => .error (.malformed argument)
    | .flag name value => do
      let f ← Flag.find name
      match f.target, value, rest with
      | _, some value, rest => read (← f.set value r) rest
      -- A switch never takes the next argument for its value.
      | .switch set, none, rest => read (set true r) rest
      | _, none, value :: rest => read (← f.set value r) rest
      | _, none, [] => .error (.valueMissing name)

/-! ## The command -/

/-- What a command leaves behind. -/
structure Reply where
  code : UInt32 := 0
  out : String := ""
  err : String := ""
  files : Files

/-- What a command has around it. -/
structure Surroundings where
  files : Files
  environment : Environment
  /-- The identifier of the run. -/
  id : String
  /-- The place that log records come from. -/
  caller : String

/-- Carries out a request, dispatching at most `fuel` instructions. -/
def Request.perform (r : Request) (fuel : Nat) (s : Surroundings) : Reply :=
  let logger : Logger :=
    { verbose := r.options.verbose, color := !r.options.noColor, caller := s.caller }
  if r.help then
    { out := "Usage: " ++ command ++ " [options] [image]\nOptions:\n"
      err := table
      files := s.files }
  else if r.rest.isEmpty ∧ r.options.program = "" then
    let record : Record :=
      { level := .fatal
        message := "No input file provided"
        pairs := [("help", command ++ " -h")] }
    { code := 1, err := logger.text #[record], files := s.files }
  else
    let options := { r.options with sourceFile := r.rest.headD "" }
    -- The settings may still turn the colours off.
    let report := Runner.report fuel s.id options
      { files := s.files
        environment := s.environment
        palette := { enabled := !options.noColor && s.environment.wantsColor } }
    let session := report.session
    let log := logger.text session.log
    match report.message? with
    | none => { out := session.out, err := log, files := session.files }
    | some message =>
      { code := 1
        out := session.out
        err := log ++ session.palette.error message ++ "\n"
        files := session.files }

/-- The paths that a command with the given arguments may read or write. -/
def paths (arguments : List String) : List String :=
  match read {} arguments with
  | .ok r =>
    [Settings.source r.options.settingsFile, r.rest.headD "", r.options.outputFile]
  | .error _ => []

/-- Carries out the command with the given arguments, dispatching at most `fuel` instructions. -/
def run (fuel : Nat) (s : Surroundings) (arguments : List String) : Reply :=
  match read {} arguments with
  | .ok r => r.perform fuel s
  | .error e => { code := e.code, err := e.message ++ usage, files := s.files }

end StackMachine.CommandLine
