import StackMachine.Toml.Literal

/-!
# TOML documents

The statements of a text build a tree of tables. A table that is only mentioned on the way to
another is implicit, and may still be given a header of its own; otherwise nothing is given twice.
Dotted keys go into tables that exist already.

`Document.ofStatements` builds the tree and keeps the keys in the order in which they are given.
-/

namespace StackMachine.Toml

/-- A value of a document. An array of tables that is built by headers differs from an array that is
written out, and holds the last table first. -/
inductive Value where
  | integer (n : Int)
  | float
  | boolean (b : Bool)
  | datetime
  | string (s : String)
  | array
  | table (entries : List (String × Value))
  | tables (elements : List (List (String × Value)))
  deriving Inhabited

/-- The entries of a table. -/
abbrev Table := List (String × Value)

namespace Table

/-- Sets an entry, at its place if there is one already. -/
def set (key : String) (value : Value) : Table → Table
  | [] => [(key, value)]
  | (k, v) :: entries =>
    if k = key then (k, value) :: entries else (k, v) :: set key value entries

/-- The table that an entry stands for when a key goes on behind it. -/
def inner? : Value → Option Table
  | .table entries => some entries
  | .tables (last :: _) => some last
  | _ => none

/-- The value with another table in the place of the one that it stands for. -/
def withInner (entries : Table) : Value → Value
  | .tables (_ :: earlier) => .tables (entries :: earlier)
  | _ => .table entries

/-- The table at a key, if there is one. -/
def find? (t : Table) : Key → Option Table
  | [] => some t
  | k :: ks =>
    match (t.lookup k).bind inner? with
    | some t => find? t ks
    | none => none

/-- Changes the table at a key. -/
def modify (f : Table → Table) (t : Table) : Key → Table
  | [] => f t
  | k :: ks =>
    match t.lookup k with
    | some v =>
      match inner? v with
      | some inner => set k (withInner (modify f inner ks) v) t
      | none => t
    | none => t

end Table

/-- A document while it is built. -/
structure Document where
  root : Table := []
  /-- The tables that have only been mentioned. -/
  implicit : List Key := []
  /-- The keys whose value is known to be an array that is written out. -/
  arrays : List Key := []
  /-- The keys that have been given, the last one first. -/
  given : List Key := []

namespace Document

/-- The name of a key in messages. Parts that need it are quoted. -/
def keyName (key : Key) : String :=
  ".".intercalate (key.map part)
where
  /-- One character between quotes. -/
  char (c : Char) : List Char :=
    match c with
    | '"' => ['\\', '"']
    | '\\' => ['\\', '\\']
    | '\t' => ['\\', 't']
    | '\n' => ['\\', 'n']
    | '\r' => ['\\', 'r']
    | c =>
      let n := c.toNat
      if n = 0x08 then ['\\', 'b']
      else if n = 0x0c then ['\\', 'f']
      else if n < 0x20 ∨ n = 0x7f then '\\' :: 'u' :: Text.Hex.lower 4 n
      else [c]
  /-- One part of a key. -/
  part (s : String) : String :=
    if !s.isEmpty && s.toList.all isBare then s
    else String.ofList ('"' :: (s.toList.flatMap char ++ ['"']))

/-- Notes what kind of value a key has. An empty key stands for the table around it. -/
def setArray (d : Document) (context : Key) (key : String) (isArray : Bool) : Document :=
  let path := if key.isEmpty then (if context.isEmpty then [""] else context) else context ++ [key]
  let others := d.arrays.filter (· ≠ path)
  { d with arrays := if isArray then path :: others else others }

/-- Notes a key that is given. -/
def give (d : Document) (key : Key) : Document :=
  { d with given := key :: d.given }

/-- Marks a table as only mentioned. -/
def markImplicit (d : Document) (key : Key) : Document :=
  { d with implicit := key :: d.implicit }

/-- Marks a table as more than mentioned. -/
def clearImplicit (d : Document) (key : Key) : Document :=
  { d with implicit := d.implicit.filter (· ≠ key) }

/-- Sets an entry of the table at `context`. Where there is one already, an array gives way to it,
and a table that was only mentioned stays. -/
def setValue (d : Document) (context : Key) (key : String) (value : Value) :
    Except Error Document :=
  let path := context ++ [key]
  match d.root.find? context with
  | none => .error (.redefined (keyName context))
  | some t =>
    if (t.lookup key).isNone then
      .ok { d with root := d.root.modify (Table.set key value) context }
    else if d.arrays.contains path then
      .ok (clearImplicit { d with root := d.root.modify (Table.set key value) context } path)
    else if d.implicit.contains path then .ok (d.clearImplicit path)
    else .error (.redefined (keyName path))

/-- Makes sure that there is a table at every part of a key behind `done`; new ones are only
mentioned. -/
def mention (d : Document) (done : Key) : Key → Except Error Document
  | [] => .ok d
  | k :: ks =>
    let path := done ++ [k]
    match d.root.find? done with
    | none => .error (.redefined (keyName done))
    | some t =>
      match t.lookup k with
      | none =>
        mention { d.markImplicit path with
          root := d.root.modify (Table.set k (.table [])) done } path ks
      | some v =>
        if (Table.inner? v).isSome then mention d path ks else .error (.redefined (keyName path))

/-- Opens the table at a key. -/
def openTable (d : Document) (key : Key) : Except Error Document := do
  let d ← d.mention [] key.dropLast
  d.setValue key.dropLast (key.getLast?.getD "") (.table [])

/-- Adds a table to the array at a key. -/
def openElement (d : Document) (key : Key) : Except Error Document := do
  let last := key.getLast?.getD ""
  let d ← d.mention [] key.dropLast
  match (d.root.find? key.dropLast).bind (List.lookup last) with
  | none =>
    .ok { d with root := d.root.modify (Table.set last (.tables [[]])) key.dropLast }
  | some (.tables elements) =>
    .ok { d with root := d.root.modify (Table.set last (.tables ([] :: elements))) key.dropLast }
  | some _ => .error (.redefined (keyName key))

/-- Opens the tables that a dotted key names, each within the one before. -/
def openDotted (d : Document) (context : Key) : Key → Except Error (Document × Key)
  | [] => .ok (d, context)
  | k :: ks => do
    let path := context ++ [k]
    let d ← (d.markImplicit path).openTable path
    d.openDotted path ks

mutual

/-- Puts a value into a document. The value belongs to `key` in the table at `context`, and is an
item of an array there if `item` holds; tables within it become part of the document. -/
def put (context : Key) (key : String) (item : Bool) (d : Document) :
    Literal → Except Error (Document × Value)
  | .integer n => .ok (d, .integer n)
  | .float => .ok (d, .float)
  | .boolean b => .ok (d, .boolean b)
  | .datetime => .ok (d, .datetime)
  | .string s => .ok (d, .string s)
  | .array items => do .ok (← putItems context key (d.setArray context key true) items, .array)
  | .inline pairs => do
    let path := context ++ [key]
    -- It counts as only mentioned, so that it stays when its key is set to it.
    let d := d.markImplicit path
    let d ← if item then d.openElement path else d.openTable path
    let d ← putPairs path d [] pairs
    .ok (d, .table ((d.root.find? path).getD []))

/-- Puts the items of an array into a document. -/
def putItems (context : Key) (key : String) (d : Document) :
    List Literal → Except Error Document
  | [] => .ok d
  | item :: items => do
    let (d, _) ← put context key true d item
    putItems context key d items

/-- Puts the pairs of a table that is written out into a document. The keys in `plain` have values
that are no tables, so that none can be added to them within the same braces. -/
def putPairs (context : Key) (d : Document) (plain : List Key) :
    List (Key × Literal) → Except Error Document
  | [] => .ok d
  | (key, value) :: pairs => do
    let (d, inner) ← d.openDotted context key.dropLast
    let last := key.getLast?.getD ""
    let (d, v) ← put inner last false (d.give (inner ++ [last])) value
    let d ← d.setValue inner last v
    -- The check comes after the value has been put, whose errors go first.
    if plain.any (·.isPrefixOf key.dropLast) then .error (.redefined (keyName key))
    let d := d.setArray inner last (v matches .array)
    putPairs context d (if v matches .table _ then plain else key :: plain) pairs

end

/-- Carries out one statement, given the table that the last header opened. -/
def step (d : Document) (context : Key) : Statement → Except Error (Document × Key)
  | .table key => do
    let d ← d.openTable key
    .ok ((d.setArray key "" false).give key, key)
  | .element key => do
    let d ← d.openElement key
    .ok ((d.setArray key "" false).give key, key)
  | .pair key value => do
    let (d, inner) ← d.openDotted context key.dropLast
    let last := key.getLast?.getD ""
    let (d, v) ← put inner last false (d.give (inner ++ [last])) value
    let d ← d.setValue inner last v
    .ok (d.setArray inner last (v matches .array), context)

/-- The document that statements build. -/
def ofStatements (d : Document) (context : Key) : List Statement → Except Error Document
  | [] => .ok d
  | s :: statements => do
    let (d, context) ← d.step context s
    d.ofStatements context statements

/-- The document that some bytes hold. -/
def ofBytes (bs : Bytes) : Except Error Document := do
  let cs ← source bs
  let statements ← Statement.readAll (cs.length + 1) [] cs
  ofStatements {} [] statements

/-- The keys that have been given, in order. -/
def keys (d : Document) : List Key :=
  d.given.reverse

end Document

end StackMachine.Toml
