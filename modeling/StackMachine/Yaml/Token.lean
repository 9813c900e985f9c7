import StackMachine.Yaml.ScalarText

/-!
# YAML tokens

A text is read as a sequence of tokens. Indentation becomes tokens of its own, which open and close
blocks. A key in front of a colon is recognised only when the colon is found, in the same line and
not too far away; its token is then put in front of what the key consists of.

`Scan` is the state of reading, and `Scan.next` reads one more token or a few that belong together.
Loops over the text are bounded by rounds, of which there are always more than characters left.
`tokens` reads a whole text. Where the text cannot be read any further, the tokens that do not hang
on what follows are still there, for a document that ends before that place.
-/

namespace StackMachine.Yaml

/-- The style of a scalar, as far as it matters for its meaning. -/
inductive Style where
  | plain
  | quoted
  deriving DecidableEq, Repr

/-- A token. -/
inductive Token where
  | version (major minor : Nat)
  | tagShort (handle expansion : String)
  | documentStart
  | documentEnd
  | blockSequence
  | blockMapping
  | blockEnd
  | flowSequence
  | flowSequenceEnd
  | flowMapping
  | flowMappingEnd
  | entry
  | comma
  | key
  | value
  | alias (name : String)
  | anchor (name : String)
  | tag (handle suffix : String)
  | scalar (style : Style) (text : String)
  | streamEnd
  deriving DecidableEq, Repr

/-- A place where a key may have started: how many tokens stand before it, and whether something
other than a key is an error there. -/
structure PendingKey where
  before : Nat
  required : Bool
  position : Position

/-- How far behind its start the colon of a key may stand. -/
def maxKeyLength : Nat := 1024

/-- How deeply blocks, brackets and braces may nest. -/
def maxNesting : Nat := 10000

/-- Whether the colon of a key can still follow at a place. -/
def PendingKey.isOpen (key : PendingKey) (p : Position) : Bool :=
  !(key.position.line < p.line) && !(key.position.index + maxKeyLength < p.index)

/-- The state of reading. -/
structure Scan where
  cursor : Cursor
  /-- The tokens read so far, the last one first. -/
  tokens : List Token := []
  /-- How many tokens have been read. -/
  count : Nat := 0
  /-- The column of the innermost block, `-1` outside of all blocks. -/
  indent : Int := -1
  /-- The columns of the blocks around it. -/
  indents : List Int := []
  /-- Whether a key may start here. -/
  keyAllowed : Bool := true
  /-- Where a key may have started within the innermost bracket or brace. -/
  pending : Option PendingKey := none
  /-- The same for the brackets and braces around it, one for each. -/
  outer : List (Option PendingKey) := []

namespace Scan

/-- Whether reading is inside brackets or braces. -/
def inFlow (s : Scan) : Bool :=
  !s.outer.isEmpty

/-- The column of the next character. -/
def column (s : Scan) : Nat :=
  s.cursor.position.column

/-- Adds a token. -/
def emit (s : Scan) (t : Token) : Scan :=
  { s with tokens := t :: s.tokens, count := s.count + 1 }

/-- Adds a token behind the first `before` tokens. -/
def insert (s : Scan) (before : Nat) (t : Token) : Scan :=
  let after := s.count - before
  { s with tokens := s.tokens.take after ++ t :: s.tokens.drop after, count := s.count + 1 }

/-- Adds a token of `n` characters. -/
def take (s : Scan) (n : Nat) (t : Token) : Scan :=
  { s.emit t with cursor := s.cursor.skip n }

/-! ## Indentation -/

/-- Closes the blocks that are indented by more than `column`. -/
def closeBlocks (column : Int) (s : Scan) : Scan :=
  if s.inFlow then s else go s s.indents
where
  /-- Closes the blocks of the given columns one after another. -/
  go (s : Scan) : List Int → Scan
    | [] => s
    | outer :: indents =>
      if column < s.indent then go { s.emit .blockEnd with indent := outer, indents } indents
      else s

/-- Opens a block at a column, if none is open there yet; its token goes behind the first `before`
tokens. -/
def openBlock (column before : Nat) (t : Token) (s : Scan) : Except Error Scan :=
  if s.inFlow || column ≤ s.indent then .ok s
  else if maxNesting ≤ s.indents.length then .error (.token "exceeded max depth")
  else .ok { s.insert before t with indent := column, indents := s.indent :: s.indents }

/-! ## Keys -/

/-- Gives up the key that may have started, unless there has to be one. -/
def dropKey (s : Scan) : Except Error Scan :=
  match s.pending with
  | some key =>
    if key.required then .error (.token "could not find expected ':'")
    else .ok { s with pending := none }
  | none => .ok s

/-- Notes that a key may start here, if one is allowed to. -/
def saveKey (s : Scan) : Except Error Scan :=
  if s.keyAllowed then do
    let s ← s.dropKey
    .ok { s with
      pending := some {
        before := s.count
        required := !s.inFlow && s.indent == s.column
        position := s.cursor.position } }
  else .ok s

/-- Forbids a key to start before something else has been read. -/
def forbidKey (s : Scan) : Scan :=
  { s with keyAllowed := false }

/-! ## Blanks and comments -/

/-- How far a comment is looked for behind a token or another comment. -/
def maxLookahead : Nat := 512

/-- Passes over a comment in the same line. -/
def skipLineComment (s : Scan) : Scan :=
  let blanks := (s.cursor.rest.takeWhile isBlank).length
  if blanks < maxLookahead && (s.cursor.rest.drop blanks).head? == some '#' then
    { s with cursor := s.cursor.skipLine }
  else s

/-- The place of a comment that follows after the end of a comment, with nothing but blanks and
breaks between. -/
def nextComment? : (rounds : Nat) → Cursor → Option Cursor
  | 0, _ => none
  | rounds + 1, cursor =>
    match cursor.rest with
    | '#' :: _ => some cursor
    | '\r' :: '\n' :: _ =>
      -- Rounds count characters, of which this break has two.
      match rounds with
      | 0 => none
      | rounds + 1 => nextComment? rounds cursor.skipBreak
    | c :: _ =>
      if isBlank c then nextComment? rounds (cursor.skip 1)
      else if c == '\n' || c == '\r' then nextComment? rounds cursor.skipBreak
      else none
    | [] => none

/-- Passes over a comment and those that follow it, up to the end of the last one's line. -/
def skipComments : (rounds : Nat) → Cursor → Cursor
  | 0, cursor => cursor
  | rounds + 1, cursor =>
    let stop := cursor.skipLine
    match nextComment? maxLookahead stop with
    | some next => skipComments rounds next
    | none => stop

/-- Passes over blanks, breaks and comments. Tabs are blanks only where no key may start. -/
def skipGap : (rounds : Nat) → Scan → Scan
  | 0, s => s
  | rounds + 1, s =>
    let cursor := match s.cursor.rest with
      -- A byte order mark at the start of a line means nothing.
      | c :: _ => if s.column == 0 && c == mark then s.cursor.skip 1 else s.cursor
      | [] => s.cursor
    let tabs := s.inFlow || !s.keyAllowed
    let cursor := cursor.skipWhile fun c => c == ' ' || (tabs && c == '\t')
    let cursor := match cursor.rest with
      | '#' :: _ => skipComments (rounds + 1) cursor
      | _ => cursor
    match cursor.rest with
    | c :: _ =>
      if isBreak c then
        skipGap rounds
          { s with cursor := cursor.skipBreak, keyAllowed := s.keyAllowed || !s.inFlow }
      else { s with cursor }
    | [] => { s with cursor }

/-! ## Directives, anchors and tags -/

/-- Reads a number of at most two digits. -/
def readVersionNumber (cursor : Cursor) : Except Error (Nat × Cursor) :=
  let ds := cursor.rest.takeWhile Char.isDigit
  if ds.isEmpty || 2 < ds.length then .error (.token "did not find expected version number")
  else .ok (Nat.ofDigitChars 10 ds 0, cursor.skip ds.length)

/-- Whether a character may stand in the suffix of a tag. -/
def isTagChar (c : Char) : Bool :=
  isWord c || ";/?:@&=+$,.!~*'()[]%".toList.contains c

/-- The width of the character whose first byte is given, zero if none starts so. -/
def leadWidth (b : Nat) : Nat :=
  if b < 0x80 then 1
  else if 0xc0 ≤ b ∧ b < 0xe0 then 2
  else if 0xe0 ≤ b ∧ b < 0xf0 then 3
  else if 0xf0 ≤ b ∧ b < 0xf8 then 4
  else 0

/-- Reads the bytes of one character, each written as a percent sign and two digits. -/
def readOctets : (count : Nat) → List Char → Option (Bytes × List Char)
  | 0, cs => some ([], cs)
  | count + 1, '%' :: cs => do
    let (b, cs) ← Text.Hex.read? 2 cs
    let (bs, cs) ← readOctets count cs
    some (UInt8.ofNat b :: bs, cs)
  | _ + 1, _ => none

/-- Reads a character that is written by its bytes. Bytes that stand for none are read as the
replacement character. -/
def readEscapedChar (cs : List Char) : Except Error (List Char × List Char) :=
  let octets := do
    let (first, _) ← readOctets 1 cs
    let width := leadWidth (Bytes.toNat first)
    if width = 0 then none
    let (bs, cs) ← readOctets width cs
    if bs.tail.all (fun b => 0x80 ≤ b && b < 0xc0) then some (bs, cs) else none
  match octets with
  | some (bs, cs) => .ok (((Bytes.text? bs).getD "�").toList, cs)
  | none => .error (.token "found an incorrect escape in a tag")

/-- Reads the suffix of a tag; `done` holds what stands before, the last character first. As many
rounds as there are characters are enough. -/
def readTagSuffix : (rounds : Nat) → (done cs : List Char) → Except Error (List Char × List Char)
  | 0, done, cs => .ok (done.reverse, cs)
  | _ + 1, done, [] => .ok (done.reverse, [])
  | rounds + 1, done, c :: cs =>
    if c = '%' then do
      let (e, cs) ← readEscapedChar (c :: cs)
      readTagSuffix rounds (e.reverse ++ done) cs
    else if isTagChar c then readTagSuffix rounds (c :: done) cs
    else .ok (done.reverse, c :: cs)

/-- Reads the handle of a tag, which starts with an exclamation mark and may end with one. -/
def readHandle (cs : List Char) : Option (List Char × List Char) :=
  match cs with
  | '!' :: cs =>
    let name := cs.takeWhile isWord
    match cs.drop name.length with
    | '!' :: rest => some ('!' :: (name ++ ['!']), rest)
    | rest => some ('!' :: name, rest)
  | _ => none

/-- The place where the rest of the text is `cs`. -/
def upTo (cursor : Cursor) (cs : List Char) : Cursor :=
  cursor.skip (cursor.rest.length - cs.length)

/-- Reads the numbers of a version directive. -/
def readVersion (cursor : Cursor) : Except Error (Token × Cursor) := do
  let (major, cursor) ← readVersionNumber (cursor.skipWhile isBlank)
  match cursor.rest with
  | '.' :: _ =>
    let (minor, cursor) ← readVersionNumber (cursor.skip 1)
    .ok (.version major minor, cursor)
  | _ => .error (.token "did not find expected digit or '.' character")

/-- Reads the handle and the expansion of a tag directive. -/
def readTagShort (cursor : Cursor) : Except Error (Token × Cursor) := do
  let cursor := cursor.skipWhile isBlank
  match readHandle cursor.rest with
  | none => .error (.token "did not find expected '!'")
  | some (handle, rest) =>
    if handle ≠ ['!'] ∧ handle.getLast? ≠ some '!' then
      .error (.token "did not find expected '!'")
    else
      let cursor := upTo cursor rest
      let start := cursor.skipWhile isBlank
      if cursor.rest.head?.any isBlank then
        let (expansion, rest) ← readTagSuffix (start.rest.length + 1) [] start.rest
        if expansion.isEmpty then .error (.token "did not find expected tag URI")
        else if atGap rest then
          .ok (.tagShort (String.ofList handle) (String.ofList expansion), upTo start rest)
        else .error (.token "did not find expected whitespace or line break")
      else .error (.token "did not find expected whitespace")

/-- Reads a directive behind its percent sign, up to the start of the next line. -/
def readDirective (cursor : Cursor) : Except Error (Token × Cursor) := do
  let name := cursor.rest.takeWhile isWord
  let after := cursor.skip name.length
  if name.isEmpty then .error (.token "could not find expected directive name")
  else if !atGap after.rest then
    .error (.token "found unexpected non-alphabetical character")
  else
    let (t, stop) ← match String.ofList name with
      | "YAML" => readVersion after
      | "TAG" => readTagShort after
      | _ => .error (.token "found unknown directive name")
    let stop := stop.skipWhile isBlank
    let stop := if stop.rest.head? = some '#' then stop.skipLine else stop
    if atLineEnd stop.rest then .ok (t, stop.skipBreak)
    else .error (.token "did not find expected comment or line break")

/-- Reads the name of an anchor or an alias behind its indicator. -/
def readName (cursor : Cursor) : Except Error (String × Cursor) :=
  let name := cursor.rest.takeWhile isWord
  let stop := cursor.skip name.length
  let ends := atGap stop.rest || stop.rest.head?.any ("?:,]\x7d%@`".toList.contains ·)
  if !name.isEmpty && ends then .ok (String.ofList name, stop)
  else .error (.token "did not find expected alphabetic or numeric character")

/-- Reads a tag, which starts with an exclamation mark. -/
def readTag (cursor : Cursor) : Except Error (Token × Cursor) := do
  let cs := cursor.rest
  let rounds := cs.length + 1
  let (handle, suffix, rest) ← match cs with
    -- A tag that is written out stands in angle brackets.
    | '!' :: '<' :: inside => do
      let (suffix, rest) ← readTagSuffix rounds [] inside
      match rest with
      | '>' :: rest =>
        if suffix.isEmpty then .error (.token "did not find expected tag URI")
        else .ok ([], suffix, rest)
      | _ => .error (.token "did not find the expected '>'")
    | _ =>
      match readHandle cs with
      | none => .error (.token "did not find expected '!'")
      | some (handle, rest) =>
        if 1 < handle.length && handle.getLast? == some '!' then do
          let (suffix, rest) ← readTagSuffix rounds [] rest
          if suffix.isEmpty then .error (.token "did not find expected tag URI")
          else .ok (handle, suffix, rest)
        else do
          -- What was taken for a handle is the start of the suffix, its exclamation mark apart.
          let (suffix, rest) ← readTagSuffix rounds handle.tail.reverse rest
          if suffix.isEmpty then .ok ([], ['!'], rest) else .ok (['!'], suffix, rest)
  if atGap rest then .ok (.tag (String.ofList handle) (String.ofList suffix), upTo cursor rest)
  else .error (.token "did not find expected whitespace or line break")

/-! ## Tokens -/

/-- Leaves all blocks, as a mark between documents, a directive or the end of the text does. -/
def leaveBlocks (s : Scan) : Except Error Scan := do
  let s ← (s.closeBlocks (-1)).dropKey
  .ok s.forbidKey

/-- The end of the text. -/
def streamEnd (s : Scan) : Except Error Scan := do
  .ok ((← s.leaveBlocks).emit .streamEnd)

/-- A directive. -/
def directive (s : Scan) : Except Error Scan := do
  let s ← s.leaveBlocks
  let (t, cursor) ← readDirective (s.cursor.skip 1)
  .ok { s.emit t with cursor }

/-- A mark between documents. -/
def documentMark (t : Token) (s : Scan) : Except Error Scan := do
  .ok ((← s.leaveBlocks).take 3 t)

/-- An opening bracket or brace. -/
def openFlow (t : Token) (s : Scan) : Except Error Scan := do
  let s ← s.saveKey
  if maxNesting ≤ s.outer.length then .error (.token "exceeded max depth")
  else .ok { s.take 1 t with outer := s.pending :: s.outer, pending := none, keyAllowed := true }

/-- A closing bracket or brace. -/
def closeFlow (t : Token) (s : Scan) : Except Error Scan := do
  let s ← s.dropKey
  let s := match s.outer with
    | pending :: outer => { s with pending, outer }
    | [] => s
  .ok (s.take 1 t).forbidKey

/-- A comma. -/
def comma (s : Scan) : Except Error Scan := do
  .ok { (← s.dropKey).take 1 .comma with keyAllowed := true }

/-- A dash in front of an entry. -/
def entry (s : Scan) : Except Error Scan := do
  if !s.inFlow && !s.keyAllowed then
    .error (.token "block sequence entries are not allowed in this context")
  else
    let s ← s.openBlock s.column s.count .blockSequence
    .ok { (← s.dropKey).take 1 .entry with keyAllowed := true }

/-- A question mark in front of a key. -/
def explicitKey (s : Scan) : Except Error Scan := do
  if !s.inFlow && !s.keyAllowed then
    .error (.token "mapping keys are not allowed in this context")
  else
    let s ← s.openBlock s.column s.count .blockMapping
    .ok { (← s.dropKey).take 1 .key with keyAllowed := !s.inFlow }

/-- A colon behind what turns out to be a key. -/
def valueOfKey (key : PendingKey) (s : Scan) : Except Error Scan := do
  let s ← (s.insert key.before .key).openBlock key.position.column key.before .blockMapping
  .ok ({ s with pending := none }.take 1 .value).forbidKey

/-- A colon with no key directly before it. -/
def valueAlone (s : Scan) : Except Error Scan := do
  if !s.inFlow && !s.keyAllowed then
    .error (.token "mapping values are not allowed in this context")
  else
    let s ← s.openBlock s.column s.count .blockMapping
    .ok { s.take 1 .value with keyAllowed := !s.inFlow }

/-- A colon in front of a value. -/
def value (s : Scan) : Except Error Scan :=
  match s.pending with
  | some key =>
    if key.isOpen s.cursor.position then s.valueOfKey key
    else if key.required then .error (.token "could not find expected ':'")
    else { s with pending := none }.valueAlone
  | none => s.valueAlone

/-- An alias or an anchor. -/
def named (make : String → Token) (s : Scan) : Except Error Scan := do
  let s ← s.saveKey
  let (name, cursor) ← readName (s.cursor.skip 1)
  .ok ({ s.emit (make name) with cursor }).forbidKey

/-- A tag. -/
def tag (s : Scan) : Except Error Scan := do
  let s ← s.saveKey
  let (t, cursor) ← readTag s.cursor
  .ok ({ s.emit t with cursor }).forbidKey

/-- A block scalar, after which no comment is looked for in the same line. -/
def block (literal : Bool) (s : Scan) : Except Error Scan := do
  let s ← s.dropKey
  let scalar ← readBlock literal s.indent (s.cursor.skip 1)
  .ok { s.emit (.scalar .quoted (String.ofList scalar.text)) with
    cursor := scalar.stop, keyAllowed := true }

/-- A quoted scalar. -/
def quoted (rounds : Nat) (single : Bool) (s : Scan) : Except Error Scan := do
  let s ← s.saveKey
  let scalar ← readQuoted single rounds (s.cursor.skip 1) [] .none
  .ok ({ s.emit (.scalar .quoted (String.ofList scalar.text)) with
    cursor := scalar.stop }).forbidKey

/-- A plain scalar. When it ends in a later line a key may start there, and otherwise a comment may
follow it. -/
def plain (s : Scan) : Except Error Scan := do
  let s ← s.saveKey
  let scalar ← readPlain s.inFlow (s.indent + 1).toNat s.cursor.position [] .none s.cursor.rest
  let s := { s.emit (.scalar .plain (String.ofList scalar.text)) with
    cursor := scalar.stop, keyAllowed := scalar.hasBreak }
  .ok (if scalar.hasBreak then s else s.skipLineComment)

/-- Whether a plain scalar can start with the given text. -/
def startsPlain (flow : Bool) : List Char → Bool
  | [] => false
  | c :: cs =>
    (!isBlank c && !isBreak c && !"-?:,[]\x7b\x7d#&*!|>'\"%@`".toList.contains c) ||
      (c == '-' && !cs.head?.any isBlank) ||
      (!flow && (c == '?' || c == ':') && !atGap cs)

/-- Passes over a comment in the line of the token just read. -/
def thenComment (s : Except Error Scan) : Except Error Scan := do
  .ok (← s).skipLineComment

/-- Reads the token that starts with the given text, which is the rest of the text. -/
def tokenAt (rounds : Nat) (s : Scan) : List Char → Except Error Scan
  | [] => s.streamEnd
  | c :: cs =>
    if s.column == 0 && c == '%' then s.directive
    else if startsMark '-' s.column (c :: cs) then s.documentMark .documentStart
    else if startsMark '.' s.column (c :: cs) then s.documentMark .documentEnd
    else if c == '[' then thenComment (s.openFlow .flowSequence)
    else if c == '\x7b' then thenComment (s.openFlow .flowMapping)
    else if c == ']' then thenComment (s.closeFlow .flowSequenceEnd)
    else if c == '\x7d' then thenComment (s.closeFlow .flowMappingEnd)
    else if c == ',' then thenComment s.comma
    else if c == '-' && atGap cs then s.entry
    else if c == '?' && (s.inFlow || atGap cs) then thenComment s.explicitKey
    else if c == ':' && (s.inFlow || atGap cs) then thenComment s.value
    else if c == '*' then thenComment (s.named .alias)
    else if c == '&' then thenComment (s.named .anchor)
    else if c == '!' then thenComment s.tag
    else if c == '|' && !s.inFlow then s.block true
    else if c == '>' && !s.inFlow then s.block false
    else if c == '\'' then thenComment (s.quoted rounds true)
    else if c == '"' then thenComment (s.quoted rounds false)
    else if startsPlain s.inFlow (c :: cs) then s.plain
    else .error (.token "found character that cannot start any token")

/-- Reads the next token, and with it the ends of the blocks that it leaves. -/
def next (rounds : Nat) (s : Scan) : Except Error Scan :=
  let s := s.skipGap rounds
  -- What stands at this column ends every block that is indented further.
  let s := s.closeBlocks s.column
  s.tokenAt rounds s.cursor.rest

/-- Reads all tokens of a text, and an error if the text cannot be read to its end. Every token but
the last takes a character at least, so as many rounds as there are characters and one are
enough. -/
def all : (rounds : Nat) → Scan → Scan × Option Error
  | 0, s => (s, none)
  | rounds + 1, s =>
    match s.next (rounds + 1) with
    | .ok s =>
      match s.tokens with
      | .streamEnd :: _ => (s, none)
      | _ => s.all rounds
    | .error e => (s, some e)

/-- How many tokens are certain where reading fails: the last two are not, and none from the place
on where a key may have started. -/
def settled (s : Scan) : Nat :=
  (s.pending :: s.outer).foldl
    (fun n key => match key with
      | some key =>
        if key.required || key.isOpen s.cursor.position then min n key.before else n
      | none => n)
    (s.count - 2)

end Scan

/-- The tokens of a text as far as they are certain, and the error at which reading ends, if it ends
with one. -/
def tokens (cs : List Char) : List Token × Option Error :=
  let (s, error?) := Scan.all (cs.length + 1) { cursor := { rest := cs } }
  match error? with
  | none => (s.tokens.reverse, none)
  | some e => (s.tokens.reverse.take s.settled, some e)

end StackMachine.Yaml
