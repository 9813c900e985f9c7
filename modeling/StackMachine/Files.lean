import StackMachine.Bytes

/-!
# Files

A tree of files and directories, and the directory in which paths that do not start at the root
start. A place in the tree is the sequence of names that leads to it from the root. Reading and
writing go by a path, along which every part but the last has to be a directory.
-/

namespace StackMachine

/-- The names that lead to a place in the tree. -/
abbrev Place := List String

/-- What is at a place. -/
inductive Entry where
  | directory
  | file (contents : Bytes)
  deriving DecidableEq, Repr

/-- A tree of files. Of two entries for one place the first counts. -/
structure Files where
  /-- Where relative paths start. It is a directory, and so is everything on the way to it. -/
  home : Place := []
  entries : List (Place × Entry) := []
  deriving DecidableEq, Repr

namespace Files

/-- Why a path leads nowhere. -/
inductive Reason where
  | missing
  | notDirectory
  | isDirectory
  | tooLong
  | malformed
  deriving DecidableEq, Repr

/-- The wording of a reason. -/
def Reason.message : Reason → String
  | .missing => "no such file or directory"
  | .notDirectory => "not a directory"
  | .isDirectory => "is a directory"
  | .tooLong => "file name too long"
  | .malformed => "invalid argument"

/-- What was being done with a path. -/
inductive Attempt where
  | opening
  | reading
  deriving DecidableEq, Repr

/-- The name of an attempt. -/
def Attempt.name : Attempt → String
  | .opening => "open"
  | .reading => "read"

/-- A failure to read or write. -/
structure Error where
  attempt : Attempt
  path : String
  reason : Reason
  deriving DecidableEq, Repr

/-- The wording of a failure. -/
def Error.message (e : Error) : String :=
  e.attempt.name ++ " " ++ e.path ++ ": " ++ e.reason.message

/-- What is at a place. -/
def get? (files : Files) (place : Place) : Option Entry :=
  if place.isPrefixOf files.home then some .directory else files.entries.lookup place

/-- Puts an entry at a place. -/
def put (files : Files) (place : Place) (entry : Entry) : Files :=
  { files with
    entries := (place, entry) :: files.entries.filter (fun e => e.1 != place) }

/-! ## Paths -/

/-- The longest name, in bytes. -/
def maxName : Nat := 255

/-- The longest path, in bytes. -/
def maxPath : Nat := 4095

/-- Follows one part of a path from a place, which has to be a directory. An empty part and a dot
stay there, and two dots go up. -/
def enter (files : Files) (place : Place) (part : String) : Except Reason Place :=
  match files.get? place with
  | none => .error .missing
  | some (.file _) => .error .notDirectory
  | some .directory =>
    if part = "" ∨ part = "." then .ok place
    else if part = ".." then .ok place.dropLast
    else if maxName < part.utf8ByteSize then .error .tooLong
    else .ok (place ++ [part])

/-- Follows the parts of a path. -/
def enterAll (files : Files) (place : Place) : List String → Except Reason Place
  | [] => .ok place
  | part :: parts => do files.enterAll (← files.enter place part) parts

/-- The parts of a path between its slashes. -/
def parts (path : String) : List String :=
  (path.toList.splitOn '/').map String.ofList

/-- Whether a path starts at the root. -/
def isRooted (path : String) : Bool :=
  path.toList.head? == some '/'

/-- The place that a path leads to, whether something is there or not. -/
def locate (files : Files) (path : String) : Except Reason Place :=
  if path.toList.contains '\x00' then .error .malformed
  else if path = "" then .error .missing
  else if maxPath < path.utf8ByteSize then .error .tooLong
  else
    files.enterAll (if isRooted path then [] else files.home) (parts path)

/-- The places that a path goes through from a given one, on the assumption that every place on the
way is a directory. -/
def placesFrom (place : Place) : List String → List Place
  | [] => [place]
  | part :: parts =>
    let next :=
      if part = "" ∨ part = "." then place
      else if part = ".." then place.dropLast
      else place ++ [part]
    place :: placesFrom next parts

/-- The places on which it depends what a path leads to. -/
def places (files : Files) (path : String) : List Place :=
  placesFrom (if isRooted path then [] else files.home) (parts path)

/-- The path from the root to a place. -/
def pathOf (place : Place) : String :=
  "/" ++ "/".intercalate place

/-! ## Reading and writing -/

/-- The contents of the file at a path. -/
def read (files : Files) (path : String) : Except Error Bytes :=
  match files.locate path with
  | .error reason => .error ⟨.opening, path, reason⟩
  | .ok place =>
    match files.get? place with
    | none => .error ⟨.opening, path, .missing⟩
    | some .directory => .error ⟨.reading, path, .isDirectory⟩
    | some (.file contents) => .ok contents

/-- The tree with new contents in the file at a path. The file is made if it is not there, but no
directory is. -/
def write (files : Files) (path : String) (contents : Bytes) : Except Error Files :=
  match files.locate path with
  | .error reason => .error ⟨.opening, path, reason⟩
  | .ok place =>
    match files.get? place with
    | some .directory => .error ⟨.opening, path, .isDirectory⟩
    | _ => .ok (files.put place (.file contents))

/-- The tree with a directory at a place and at every place on the way to it where nothing is. -/
def withDirectory (files : Files) (place : Place) : Files :=
  ((List.range (place.length + 1)).map place.take).foldl
    (fun files p => if (files.get? p).isNone then files.put p .directory else files) files

/-- The files of a tree that another one does not have, or with other contents. -/
def changes (files old : Files) : List (Place × Bytes) :=
  files.entries.filterMap fun (place, entry) =>
    match entry with
    | .directory => none
    | .file contents => if old.get? place = some entry then none else some (place, contents)

end Files

end StackMachine
