import StackMachine.Files
import StackMachine.Settings

/-!
# Settings in files

Settings come from the file that is asked for. If none is, they come from the default file, and
without that they are the default ones.

The section on configuration of the specification says which file that is and when it may be
missing.
-/

namespace StackMachine.Settings

/-- Why settings cannot be loaded. -/
inductive FileError where
  | unreadable (path : String) (cause : Files.Error)
  | unusable (path : String) (cause : ParseError)
  deriving DecidableEq, Repr

/-- The wording of an error. -/
def FileError.message : FileError → String
  | .unreadable path cause => "cannot read " ++ path ++ ": " ++ cause.message
  | .unusable path cause => cause.message path

/-- The file that is read when the one at a path is asked for; the empty path asks for none. -/
def source (path : String) : String :=
  if path = "" then defaultFile else path

/-- The settings in the file at a path. If none is asked for and the default file is missing, they
are the default ones. -/
def load (files : Files) (path : String) : Except FileError Settings :=
  match files.read (source path) with
  | .ok contents => (ofBytes (source path) contents).mapError (.unusable (source path))
  | .error cause =>
    if path = "" ∧ cause.reason = .missing then .ok {}
    else .error (.unreadable (source path) cause)

end StackMachine.Settings
