import StackMachine.Image.File
import StackMachine.Log
import StackMachine.Program
import StackMachine.Settings.File

/-!
# Running a program

A run loads settings and then a program, a built-in one or an image from a file. It saves, lists and
executes the program as its options ask. What it reads and changes around itself is a value: the
files, the colour switch, the text it prints and the records it logs. A run that fails before the
program is executed leaves no result; a program that faults leaves one.

Headings, the listing, what the program prints and the stack that is left all go to one outlet, one
write for each line, and the outlet may refuse every write after a number of them. A refused write
of the run itself is passed over, while one of the program makes it fault.

This is the host of §2 of the specification, which loads settings and image, lists, runs and
reports. `Options.apply` puts the flags of §6.3 on top of the settings.
-/

namespace StackMachine.Runner

/-- What can be asked of a run. -/
structure Options where
  verbose : Bool := false
  noColor : Bool := false
  /-- Print the listing before execution. -/
  disassemble : Bool := false
  /-- Log every instruction. -/
  trace : Bool := false
  /-- Print the stack that is left after execution. -/
  dumpStack : Bool := false
  /-- Do not execute. -/
  noRun : Bool := false
  /-- The file with settings, empty for the default one. -/
  settingsFile : String := ""
  /-- Overrides the step limit of the settings if it is positive. -/
  maxSteps : Int64 := 0
  /-- Overrides the stack capacity of the settings if it is positive. -/
  stackCapacity : Int64 := 0
  /-- The built-in program, empty for none. -/
  program : String := ""
  /-- The argument of the built-in program. -/
  argument : Int64 := 0
  /-- The file with the image, empty for none. -/
  sourceFile : String := ""
  /-- The file to save the image to, empty for none. -/
  outputFile : String := ""
  /-- Where to print. -/
  out : Outlet := {}
  deriving DecidableEq, Repr

/-- What a run leaves behind. -/
structure Result where
  image : Image
  status : Status := .running
  /-- The stack from the bottom. -/
  stack : List Int64 := []
  steps : Nat := 0
  deriving DecidableEq, Repr

/-- What a run leaves behind that has executed an image. -/
def Result.ofMachine (image : Image) (m : Machine) : Result where
  image := image
  status := m.status
  stack := m.stack.toList
  steps := m.steps

/-- Why a run leaves no result. -/
inductive Error where
  | settingsFile (cause : Settings.FileError)
  | settings (cause : Settings.Invalid)
  | twoPrograms
  | noProgram
  | unknownProgram (name : String)
  | loading (cause : Image.FileError)
  | writing (cause : Image.FileError)
  deriving DecidableEq, Repr

/-- The wording of an error. -/
def Error.message : Error → String
  | .settingsFile cause => "configuration failed: " ++ cause.message
  | .settings cause => "configuration failed: " ++ cause.message
  | .twoPrograms => "give either a built-in program or an image file, not both"
  | .noProgram => "no program given"
  | .unknownProgram name => Program.unknown name
  | .loading cause => "loading image failed: " ++ cause.message
  | .writing cause => "writing image failed: " ++ cause.message

/-- What a run fails with: an error, or a fault of the program that it executed. -/
inductive Failure where
  | error (cause : Error)
  | fault (cause : Fault)
  deriving DecidableEq, Repr

namespace Failure

/-- The wording of a failure. -/
def message : Failure → String
  | .error cause => cause.message
  | .fault cause => "execution failed: " ++ cause.message

/-- The kind of the fault behind a failure, if there is one. -/
def kind : Failure → FaultKind
  | .error _ => .none
  | .fault cause => cause.kind

end Failure

/-- What a run reads and changes around itself. -/
structure Session where
  files : Files := {}
  environment : Environment := {}
  /-- The colour switch. -/
  palette : Palette := {}
  /-- What the outlet has taken. -/
  out : String := ""
  /-- What is left of the outlet. -/
  outlet : Outlet := {}
  /-- What has been logged. -/
  log : Array Record := #[]

/-- A part of a run. -/
abbrev Task := EStateM Error Session

/-- Logs a record. -/
def note (level : Level) (message : String) (pairs : List (String × String) := []) : Task Unit :=
  modify fun session => { session with log := session.log.push { level, message, pairs } }

/-- Prints a line, which is one write. Nothing comes of it if the outlet is full. -/
def printLine (text : String) : Task Unit :=
  modify fun session =>
    { session with
      out := if session.outlet.isFull then session.out else session.out ++ (text ++ "\n")
      outlet := session.outlet.after 1 }

/-- Prints lines, one after another. -/
def printLines : List String → Task Unit
  | [] => pure ()
  | line :: lines => do
    printLine line
    printLines lines

/-- Prints the heading of a section. -/
def heading (title : String) : Task Unit := do
  printLine ((← get).palette.green ("=== " ++ title ++ " ==="))

/-- A truth value in a record. -/
def flag (b : Bool) : String :=
  if b then "true" else "false"

/-! ## Settings -/

/-- Settings with the overrides of the options. -/
def Options.apply (o : Options) (s : Settings) : Settings :=
  { s with
    stackCapacity := if 0 < o.stackCapacity then o.stackCapacity else s.stackCapacity
    maxSteps := if 0 < o.maxSteps then o.maxSteps else s.maxSteps
    trace := s.trace || o.trace
    dumpStack := s.dumpStack || o.dumpStack }

/-- Whether a run with the given settings uses colours. -/
def Options.wantsColor (o : Options) (s : Settings) (env : Environment) : Bool :=
  !o.noColor && s.color && env.wantsColor

/-- Loads the settings and sets the colour switch by them. -/
def configure (o : Options) : Task Settings := do
  match Settings.load (← get).files o.settingsFile with
  | .error cause => throw (.settingsFile cause)
  | .ok loaded =>
    if loaded.path ≠ "" then
      note .info "Loaded configuration" [("file", loaded.path)]
    let settings := o.apply loaded
    -- The switch is set before the settings are checked, and stays so when they are refused.
    modify fun session =>
      { session with palette := { enabled := o.wantsColor settings session.environment } }
    match settings.defect? with
    | some cause => throw (.settings cause)
    | none =>
      note .debug "Output settings" [("color", flag (← get).palette.enabled),
        ("trace", flag settings.trace), ("dump_stack", flag settings.dumpStack)]
      return settings

/-! ## The program -/

/-- The built-in program of a name. -/
def builtIn (name : String) (argument : Int64) : Task Image :=
  match Program.ofName? name argument with
  | none => throw (.unknownProgram name)
  | some image => do
    note .info "Using built-in program" [("program", name), ("arg", Decimal.ofWord argument)]
    return image

/-- The program in a file. -/
def fromFile (path : String) : Task Image := do
  note .info "Processing file" [("file", path)]
  match Image.load (← get).files path with
  | .ok image => return image
  | .error cause => throw (.loading cause)

/-- The program that the options ask for. -/
def loadImage (o : Options) : Task Image :=
  if o.program ≠ "" then
    if o.sourceFile ≠ "" then throw .twoPrograms else builtIn o.program o.argument
  else if o.sourceFile ≠ "" then fromFile o.sourceFile
  else throw .noProgram

/-- The program with the locals that the settings ask for, if they do. -/
def withLocals (s : Settings) (image : Image) : Image :=
  if 0 < s.locals then { image with locals := s.locals } else image

/-- Saves an image to the file that the options name, if they do. -/
def saveImage (o : Options) (image : Image) : Task Unit := do
  if o.outputFile ≠ "" then
    match Image.save (← get).files o.outputFile image with
    | .error cause => throw (.writing cause)
    | .ok files =>
      modify fun session => { session with files }
      note .info "Wrote image" [("file", o.outputFile),
        ("format", ((Image.Format.ofPath? o.outputFile).map Image.Format.name).getD
          Image.Format.unknown)]

/-! ## The listing -/

/-- A text without the line ends at its end. -/
def withoutLineEnds (s : String) : String :=
  String.ofList (s.toList.reverse.dropWhile (· == '\n')).reverse

/-- The lines of a listing in the colours of a palette. -/
def listingLines (p : Palette) (listing : String) : List String :=
  (Text.lines (withoutLineEnds listing)).map p.listing

/-- Prints the listing of an image if the options ask for it. -/
def list (o : Options) (image : Image) : Task Unit := do
  if o.disassemble then
    if o.verbose then
      heading "Disassembly"
    printLines (listingLines (← get).palette image.listing)

/-! ## Execution -/

/-- The record of an instruction about to be executed, after the given pairs. -/
def traceRecord (context : List (String × String)) (e : Machine.Event) : Record where
  level := .debug
  message := "step"
  pairs := context ++ [
    ("n", Decimal.ofNat e.step),
    ("pc", Decimal.ofNat e.instruction.offset),
    ("op", Opcode.nameOfWord e.instruction.op),
    ("args", "[" ++ " ".intercalate (e.instruction.operands.map Decimal.ofWord) ++ "]"),
    ("sp", Decimal.ofInt e.sp),
    ("fp", Decimal.ofNat e.fp),
    ("depth", Decimal.ofNat e.depth)]

/-- The lines of a stack, from the top down, each with its slot. -/
def stackLines (p : Palette) (stack : List Int64) : List String :=
  match stack with
  | [] => [p.gray "(empty)"]
  | _ =>
    (stack.zipIdx.map fun (v, i) => p.cyan (Decimal.ofNat i) ++ ": " ++ Decimal.ofWord v).reverse

/-- Prints a stack. -/
def dump (stack : List Int64) : Task Unit := do
  heading "Residual Stack"
  printLines (stackLines (← get).palette stack)

/-- What every record of an execution starts with. -/
def context (id : String) (image : Image) : List (String × String) :=
  [("run", id), ("program", image.name)]

/-- Announces the execution of an image. -/
def announce (id : String) (o : Options) (s : Settings) (image : Image) : Task Unit := do
  note .info "Running program" (context id image ++ [("entry", Decimal.ofWord image.entry),
    ("slots", Decimal.ofNat image.words.size), ("locals", Decimal.ofWord image.locals),
    ("stack", Decimal.ofWord s.stackCapacity)])
  if o.verbose then
    heading "Program Output"

/-- The machine for an image, which prints to an outlet. -/
def machine (s : Settings) (image : Image) (outlet : Outlet) : Machine :=
  image.machine { s.machineOptions with out := { outlet with } }

/-- What a machine comes to in at most `fuel` instructions, with an event for each of them if they
are to be traced. -/
def runTracing (trace : Bool) (fuel : Nat) (start : Machine) : Machine × Array Machine.Event :=
  if trace then start.runTraced fuel #[] else (start.run fuel, #[])

/-- Runs the machine for an image, dispatching at most `fuel` instructions. Each of them is recorded
if the settings ask for a trace. -/
def runMachine (fuel : Nat) (id : String) (s : Settings) (image : Image) : Task Machine := do
  let ran := runTracing s.trace fuel (machine s image (← get).outlet)
  modify fun session =>
    { session with
      out := session.out ++ ran.1.out.text
      outlet := ran.1.out.toOutlet
      log := session.log ++ ran.2.map (traceRecord (context id image)) }
  return ran.1

/-- Records how the execution of an image has ended, if it has. -/
def recordEnd (id : String) (image : Image) (m : Machine) : Task Unit :=
  match m.status with
  | .faulted f =>
    note .error "Program faulted" (context id image ++ [("kind", f.kind.name),
      ("steps", Decimal.ofNat m.steps), ("error", f.message)])
  | .halted =>
    note .info "Program halted" (context id image ++ [("steps", Decimal.ofNat m.steps),
      ("stack", Decimal.ofNat m.stack.toList.length)])
  | .running => pure ()

/-- Executes an image, dispatching at most `fuel` instructions. -/
def execute (fuel : Nat) (id : String) (o : Options) (s : Settings) (image : Image) :
    Task Result := do
  announce id o s image
  let m ← runMachine fuel id s image
  -- After a fault the stack is dumped as well.
  if s.dumpStack then
    dump m.stack.toList
  recordEnd id image m
  return .ofMachine image m

/-- A run with the given identifier, in which at most `fuel` instructions are dispatched. -/
def run (fuel : Nat) (id : String) (o : Options) : Task Result := do
  let settings ← configure o
  let image := withLocals settings (← loadImage o)
  -- Saving and listing come first, for they also happen where nothing is to be run.
  saveImage o image
  list o image
  if o.noRun then
    return { image }
  execute fuel id o settings image

/-! ## Reports -/

/-- What there is to say about a finished run. -/
structure Report where
  outcome : Except Error Result
  /-- What the run left around itself. -/
  session : Session

namespace Report

/-- The result of the run, if it leaves one. -/
def result? (r : Report) : Option Result :=
  r.outcome.toOption

/-- What the run fails with, if it does. -/
def failure? (r : Report) : Option Failure :=
  match r.outcome with
  | .error e => some (.error e)
  | .ok result => result.status.fault?.map .fault

/-- The failure of the run in words. -/
def message? (r : Report) : Option String :=
  r.failure?.map Failure.message

end Report

/-- The surroundings at the start of a run, before it has printed or logged anything. -/
def Session.fresh (session : Session) (out : Outlet) : Session :=
  { session with out := "", outlet := out, log := #[] }

/-- A run from given surroundings. What is printed and logged starts anew. -/
def report (fuel : Nat) (id : String) (o : Options) (session : Session) : Report :=
  match run fuel id o (session.fresh o.out) with
  | .ok result session => { outcome := .ok result, session }
  | .error e session => { outcome := .error e, session }

end StackMachine.Runner
