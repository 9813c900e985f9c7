import StackMachine.Machine.Basic
import StackMachine.Text.Quoted
import StackMachine.Toml.Document

/-!
# Settings

What can be configured: the sizes of a machine and its step limit, and what is printed around a run.
Settings are read from a TOML document on top of the defaults. Names of tables and keys are in
letters of either case, and a key that is no setting is an error.

This is the section on configuration of the specification. `Settings.defect?` is its validation,
which is made of the file and again after the options of a run.
-/

namespace StackMachine

/-- The settings of a run. -/
structure Settings where
  stackCapacity : Int64 := Int64.ofNat Machine.defaultCapacity
  /-- Overrides the locals of an image if it is positive. -/
  locals : Int64 := 0
  /-- The step limit, none if it is zero. -/
  maxSteps : Int64 := 0
  color : Bool := true
  trace : Bool := false
  dumpStack : Bool := false
  /-- The file that the settings come from, empty for the defaults. -/
  path : String := ""
  deriving DecidableEq, Repr

namespace Settings

/-- The file that is read when none is named. -/
def defaultFile : String := "stackvm.toml"

/-- Why settings cannot be used. -/
inductive Invalid where
  | capacityNotPositive (n : Int64)
  | capacityTooLarge (n : Int64)
  | localsNegative (n : Int64)
  | localsTooLarge (n : Int64)
  | stepsNegative (n : Int64)
  deriving DecidableEq, Repr

/-- The wording of a rejection. -/
def Invalid.message : Invalid → String
  | .capacityNotPositive n => "machine.stack_capacity must be positive, got " ++ Decimal.ofWord n
  | .capacityTooLarge n =>
    "machine.stack_capacity must be at most " ++ Decimal.ofNat Machine.maxCapacity ++ ", got " ++
      Decimal.ofWord n
  | .localsNegative n => "machine.locals must not be negative, got " ++ Decimal.ofWord n
  | .localsTooLarge n =>
    "machine.locals must be at most " ++ Decimal.ofNat Machine.maxLocals ++ ", got " ++
      Decimal.ofWord n
  | .stepsNegative n => "machine.max_steps must not be negative, got " ++ Decimal.ofWord n

/-- The first setting that cannot be used, if there is one. -/
def defect? (s : Settings) : Option Invalid :=
  if s.stackCapacity ≤ 0 then some (.capacityNotPositive s.stackCapacity)
  else if (Machine.maxCapacity : Int) < s.stackCapacity.toInt then
    some (.capacityTooLarge s.stackCapacity)
  else if s.locals < 0 then some (.localsNegative s.locals)
  else if (Machine.maxLocals : Int) < s.locals.toInt then some (.localsTooLarge s.locals)
  else if s.maxSteps < 0 then some (.stepsNegative s.maxSteps)
  else none

/-- The machine that the settings ask for. -/
def machineOptions (s : Settings) : Machine.Options where
  stackCapacity := s.stackCapacity.toInt
  maxSteps := s.maxSteps.toInt

/-! ## Reading -/

/-- Why settings cannot be read from a document. -/
inductive ParseError where
  | toml (cause : Toml.Error)
  | unknownKey (key : Toml.Key)
  | invalid (cause : Invalid)
  deriving DecidableEq, Repr

/-- The wording of an error about the file at a path. -/
def ParseError.message (path : String) : ParseError → String
  | .toml cause => "parse error in " ++ path ++ ": " ++ cause.message
  | .unknownKey key =>
    "unknown key " ++ Text.Quoted.text (Toml.Document.keyName key) ++ " in " ++ path
  | .invalid cause => path ++ ": " ++ cause.message

/-- A letter without regard to its case. Two letters outside ASCII are the same as one inside. -/
def foldChar (c : Char) : Char :=
  if c.toNat = 0x17f then 's' else if c.toNat = 0x212a then 'k' else c.toLower

/-- A name without regard to the case of its letters. -/
def fold (s : String) : String :=
  String.ofList (s.toList.map foldChar)

/-- The word that a value stands for. -/
def integer : Toml.Value → Except Toml.Error Int64
  | .integer n => .ok (Int64.ofInt n)
  | _ => .error (.mismatch "an integer")

/-- The truth value that a value stands for. -/
def boolean : Toml.Value → Except Toml.Error Bool
  | .boolean b => .ok b
  | _ => .error (.mismatch "a boolean")

/-- Settings, and the keys that have been taken into account. -/
structure Progress where
  settings : Settings := {}
  taken : List Toml.Key := []

/-- Takes the settings of one table, whose name is `table`, by what `set` makes of an entry. Of two
entries whose keys differ only in case the later one counts; nothing says which of them should. -/
def setEntries (set : Settings → String → Toml.Value → Except Toml.Error (Option Settings))
    (table : String) (p : Progress) : Toml.Table → Except Toml.Error Progress
  | [] => .ok p
  | (key, value) :: entries => do
    match ← set p.settings (fold key) value with
    | some settings =>
      setEntries set table { settings, taken := [table, key] :: p.taken } entries
    | none => setEntries set table p entries

/-- Sets an entry of the table about the machine. -/
def setMachine (s : Settings) (key : String) (value : Toml.Value) :
    Except Toml.Error (Option Settings) :=
  match key with
  | "stack_capacity" => do .ok (some { s with stackCapacity := ← integer value })
  | "locals" => do .ok (some { s with locals := ← integer value })
  | "max_steps" => do .ok (some { s with maxSteps := ← integer value })
  | _ => .ok none

/-- Sets an entry of the table about the output. -/
def setOutput (s : Settings) (key : String) (value : Toml.Value) :
    Except Toml.Error (Option Settings) :=
  match key with
  | "color" => do .ok (some { s with color := ← boolean value })
  | "trace" => do .ok (some { s with trace := ← boolean value })
  | "dump_stack" => do .ok (some { s with dumpStack := ← boolean value })
  | _ => .ok none

/-- The entries of a value that has to be a table. -/
def entries : Toml.Value → Except Toml.Error Toml.Table
  | .table t => .ok t
  | _ => .error (.mismatch "a table")

/-- Takes the settings of all tables. -/
def setTables (p : Progress) : Toml.Table → Except Toml.Error Progress
  | [] => .ok p
  | (name, value) :: rest => do
    let p' := { p with taken := [name] :: p.taken }
    match fold name with
    | "machine" => setTables (← setEntries setMachine name p' (← entries value)) rest
    | "output" => setTables (← setEntries setOutput name p' (← entries value)) rest
    -- An entry of another name is not taken, so its key counts as unknown.
    | _ => setTables p rest

/-- The settings that the bytes of the file at a path hold. Bytes that are no document come before
keys that are no settings, and those before settings that cannot be used. -/
def ofBytes (path : String) (bs : Bytes) : Except ParseError Settings := do
  let document ← (Toml.Document.ofBytes bs).mapError .toml
  let p ← (setTables {} document.root).mapError .toml
  match document.keys.find? (!p.taken.contains ·) with
  | some key => .error (.unknownKey key)
  | none =>
    let settings := { p.settings with path }
    match settings.defect? with
    | some defect => .error (.invalid defect)
    | none => .ok settings

end Settings

end StackMachine
