import StackMachine.Bytes

/-!
# CBOR data items

An item starts with a head: a kind from zero to seven and an argument, which is a number or, for
strings, arrays and maps, may be left open. Kinds zero and one are integers, two and three strings
of bytes and of text, four and five arrays and maps, six tags, and seven simple values and floats.

`Item.ofBytes` accepts exactly one item that fills its input. Arrays and maps may nest to a fixed
depth, at which tags count too, the first of a row apart, and hold a fixed number of elements or
pairs.
-/

namespace StackMachine.Cbor

/-- A data item. Strings are kept as the chunks they are written in, one chunk unless the length was
left open. The value of a float is not kept. -/
inductive Item where
  | unsigned (n : Nat)
  /-- The number `-1 - n`. -/
  | negative (n : Nat)
  | bytes (chunks : List Bytes)
  | text (chunks : List Bytes)
  | array (items : List Item)
  | map (pairs : List (Item × Item))
  | tag (number : Nat) (content : Item)
  | simple (value : Nat)
  | float
  deriving Inhabited

/-- Why bytes are not what is looked for. -/
inductive Error where
  | ended
  | trailing
  | reserved
  | depth
  | size
  | chunk
  | oddMap
  | simple
  | strayBreak
  | utf8
  | tagContent
  | range
  | mismatch (wanted : String)
  deriving DecidableEq, Repr

/-- The wording of an error. -/
def Error.message : Error → String
  | .ended => "unexpected end of input"
  | .trailing => "bytes after the data item"
  | .reserved => "reserved additional information"
  | .depth => "nested too deeply"
  | .size => "too many elements"
  | .chunk => "a chunk of another kind"
  | .oddMap => "a key without a value"
  | .simple => "a simple value in more bytes than it needs"
  | .strayBreak => "break outside an item of open length"
  | .utf8 => "text is not valid UTF-8"
  | .tagContent => "a tag on content it does not admit"
  | .range => "integer out of range"
  | .mismatch wanted => "expected " ++ wanted

/-! ## Limits -/

/-- How deeply arrays and maps may nest. -/
def maxDepth : Nat := 32

/-- How many elements an array or pairs a map may have. -/
def maxSize : Nat := 131072

/-! ## Heads -/

/-- The start of an item. -/
structure Head where
  kind : Nat
  /-- The low five bits of the first byte, which say how the argument is written. -/
  info : Nat
  argument : Nat

namespace Head

/-- The head of the given kind and argument, in the fewest bytes. -/
def write (kind argument : Nat) : Bytes :=
  let first (info : Nat) : UInt8 := UInt8.ofNat (32 * kind + info)
  if argument < 24 then [first argument]
  else if argument < 0x100 then first 24 :: Bytes.ofNat 1 argument
  else if argument < 0x10000 then first 25 :: Bytes.ofNat 2 argument
  else if argument < 0x100000000 then first 26 :: Bytes.ofNat 4 argument
  else first 27 :: Bytes.ofNat 8 argument

/-- Whether the length of the item is left open. -/
def isOpen (head : Head) : Bool :=
  head.info == 31

/-- Reads a head. Only strings, arrays and maps may leave their length open. -/
def read : Bytes → Except Error (Head × Bytes)
  | [] => .error .ended
  | b :: rest =>
    let kind := b.toNat / 32
    let info := b.toNat % 32
    if info < 24 then .ok (⟨kind, info, info⟩, rest)
    else if info < 28 then
      -- One, two, four or eight bytes hold the argument.
      match Bytes.split? (1 <<< (info - 24)) rest with
      | some (argument, rest) => .ok (⟨kind, info, Bytes.toNat argument⟩, rest)
      | none => .error .ended
    else if info = 31 then
      if 2 ≤ kind ∧ kind ≤ 5 then .ok (⟨kind, info, 0⟩, rest)
      else .error (if kind = 7 then .strayBreak else .reserved)
    else .error .reserved

end Head

/-- The byte that ends an item of open length. -/
def stop : UInt8 := 0xff

/-! ## Reading -/

/-- Reads `count` things one after another; `done` holds those read, in reverse. -/
def readMany {α : Type} (read : Bytes → Except Error (α × Bytes)) :
    (count : Nat) → (done : List α) → Bytes → Except Error (List α × Bytes)
  | 0, done, bs => .ok (done.reverse, bs)
  | count + 1, done, bs =>
    match read bs with
    | .ok (x, rest) => readMany read count (x :: done) rest
    | .error e => .error e

/-- Reads things until a break. Each takes a byte at least, so as many rounds as there are bytes are
enough. -/
def readOpen {α : Type} (read : Bytes → Except Error (α × Bytes)) :
    (rounds : Nat) → (done : List α) → Bytes → Except Error (List α × Bytes)
  | 0, _, _ => .error .ended
  | rounds + 1, done, bs =>
    match bs with
    | [] => .error .ended
    | b :: rest =>
      if b = stop then .ok (done.reverse, rest)
      else
        match read bs with
        | .ok (x, rest) => readOpen read rounds (x :: done) rest
        | .error e => .error e

/-- Reads the bytes that a head with a known length announces. -/
def readChunk (head : Head) (bs : Bytes) : Except Error (Bytes × Bytes) :=
  match Bytes.split? head.argument bs with
  | some chunk => .ok chunk
  | none => .error .ended

/-- Reads the chunks of the string that a head announces. -/
def readString (head : Head) (bs : Bytes) : Except Error (List Bytes × Bytes) :=
  if head.isOpen then
    let chunk (bs : Bytes) : Except Error (Bytes × Bytes) := do
      let (inner, bs) ← Head.read bs
      if inner.kind ≠ head.kind ∨ inner.isOpen then .error .chunk
      else readChunk inner bs
    readOpen chunk bs.length [] bs
  else do
    let (chunk, bs) ← readChunk head bs
    .ok ([chunk], bs)

/-- Reads the elements of the array or the pairs of the map that a head announces. -/
def readElements {α : Type} (read : Bytes → Except Error (α × Bytes)) (head : Head) (bs : Bytes) :
    Except Error (List α × Bytes) :=
  if head.isOpen then do
    let (elements, bs) ← readOpen read bs.length [] bs
    -- How many there are is not known before the break.
    if elements.length > maxSize then .error .size else .ok (elements, bs)
  else if head.argument > maxSize then .error .size
  else readMany read head.argument [] bs

/-- Reads a key and its value. -/
def readPair {α : Type} (read : Bytes → Except Error (α × Bytes)) (bs : Bytes) :
    Except Error ((α × α) × Bytes) := do
  let (key, bs) ← read bs
  if bs.head? = some stop then .error .oddMap
  let (value, bs) ← read bs
  .ok ((key, value), bs)

namespace Item

/-- Reads a simple value or a float. -/
def readSimple (head : Head) (bs : Bytes) : Except Error (Item × Bytes) :=
  if head.info < 24 then .ok (.simple head.argument, bs)
  else if head.info = 24 then
    if head.argument < 32 then .error .simple else .ok (.simple head.argument, bs)
  else .ok (.float, bs)

/-- Reads one item inside of which arrays and maps may nest `levels` deep; `tagged` says whether a
tag stands right before it. -/
def read (levels : Nat) (tagged : Bool) (bs : Bytes) : Except Error (Item × Bytes) := do
  let (head, bs) ← Head.read bs
  match head.kind with
  | 0 => .ok (.unsigned head.argument, bs)
  | 1 => .ok (.negative head.argument, bs)
  | 2 =>
    let (chunks, bs) ← readString head bs
    .ok (.bytes chunks, bs)
  | 3 =>
    let (chunks, bs) ← readString head bs
    .ok (.text chunks, bs)
  | 4 =>
    match levels with
    | 0 => .error .depth
    | levels + 1 =>
      let (items, bs) ← readElements (fun bs => read levels false bs) head bs
      .ok (.array items, bs)
  | 5 =>
    match levels with
    | 0 => .error .depth
    | levels + 1 =>
      let (pairs, bs) ← readElements (readPair fun bs => read levels false bs) head bs
      .ok (.map pairs, bs)
  | 6 =>
    -- The first of several tags in a row is free, and each further one takes a level.
    if tagged then
      match levels with
      | 0 => .error .depth
      | levels + 1 =>
        let (content, bs) ← read levels true bs
        .ok (.tag head.argument content, bs)
    else
      let (content, bs) ← read levels true bs
      .ok (.tag head.argument content, bs)
  | _ => readSimple head bs
termination_by 2 * levels + (if tagged then 0 else 1)
decreasing_by
  all_goals subst_vars; simp_all; try omega

/-- The one item that some bytes hold. -/
def ofBytes (bs : Bytes) : Except Error Item := do
  let (item, rest) ← read maxDepth false bs
  if rest.isEmpty then .ok item else .error .trailing

end Item

/-! ## Writing -/

/-- An integer. -/
def writeInt (n : Int) : Bytes :=
  if n < 0 then Head.write 1 (-1 - n).toNat else Head.write 0 n.toNat

/-- A text. -/
def writeText (s : String) : Bytes :=
  let bytes := Bytes.ofText s
  Head.write 3 bytes.length ++ bytes

/-- An array of items that are already written. -/
def writeArray (items : List Bytes) : Bytes :=
  Head.write 4 items.length ++ items.flatten

/-- A map of keys and values that are already written. -/
def writeMap (pairs : List (Bytes × Bytes)) : Bytes :=
  Head.write 5 pairs.length ++ pairs.flatMap fun (key, value) => key ++ value

/-- The simple value for nothing. -/
def null : Bytes := [0xf6]

end StackMachine.Cbor
