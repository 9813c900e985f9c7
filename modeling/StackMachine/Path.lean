/-!
# Paths

A path is a text whose parts are divided by slashes. Two views of it are needed: its last part and
the extension of that part.
-/

namespace StackMachine.Path

/-- The extension of a path: what follows the last dot of its last part, with the dot, or nothing
when that part has no dot. -/
def extension (path : String) : String :=
  let reversed := path.toList.reverse
  let inside (c : Char) : Bool := c != '.' && c != '/'
  match reversed.dropWhile inside with
  | '.' :: _ => String.ofList ('.' :: (reversed.takeWhile inside).reverse)
  | _ => ""

/-- The last part of a path, slashes at its end apart. The empty path stands for the current
directory, and a path of slashes only for the root. -/
def base (path : String) : String :=
  match path.toList.reverse.dropWhile (· == '/') with
  | [] => if path.isEmpty then "." else "/"
  | reversed => String.ofList (reversed.takeWhile (· != '/')).reverse

/-- The last part of a path without its extension. -/
def stem (path : String) : String :=
  let name := (base path).toList
  let tail := (extension path).toList
  if tail.isSuffixOf name then String.ofList (name.take (name.length - tail.length)) else base path

end StackMachine.Path
