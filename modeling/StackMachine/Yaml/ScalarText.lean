import StackMachine.Text.Hex
import StackMachine.Yaml.Source

/-!
# The text of scalars

A scalar is written plainly, between quotes, or as an indented block. Blanks and breaks inside it
are a gap, whose meaning is known only once something follows: blanks within a line stay, one break
is read as a space, and of several breaks all but the first stay.
-/

namespace StackMachine.Yaml

/-! ## Gaps -/

/-- Blanks and breaks between two pieces of a scalar. Lists hold the last character first. -/
inductive Gap where
  | none
  | blanks (cs : List Char)
  /-- A first break, none if it was escaped, and the breaks after it. -/
  | lines (first : Option Char) (more : List Char)

namespace Gap

/-- The gap with one more blank; at the start of a line it is not kept. -/
def blank (c : Char) : Gap → Gap
  | .none => .blanks [c]
  | .blanks cs => .blanks (c :: cs)
  | .lines first more => .lines first more

/-- The gap with one more break. -/
def lineBreak (c : Char) : Gap → Gap
  | .lines first more => .lines first (normalBreak c :: more)
  | _ => .lines (some (normalBreak c)) []

/-- Whether the gap reaches into a further line. -/
def hasBreak : Gap → Bool
  | .lines _ _ => true
  | _ => false

/-- The text with the gap behind it, both with the last character first. -/
def join (text : List Char) : Gap → List Char
  | .none => text
  | .blanks cs => cs ++ text
  | .lines (some '\n') [] => ' ' :: text
  | .lines (some '\n') more => more ++ text
  | .lines (some c) more => more ++ c :: text
  | .lines Option.none more => more ++ text

end Gap

/-- A scalar that has been read: its text, where it ends, and whether the end was found only in a
later line. -/
structure ScalarText where
  text : List Char
  stop : Cursor
  hasBreak : Bool := false

/-! ## Plain scalars -/

/-- Whether a character ends a plain scalar inside brackets or braces. -/
def isFlowStop (c : Char) : Bool :=
  c == ',' || c == '?' || c == '[' || c == ']' || c == '{' || c == '}'

/-- Whether a plain scalar ends before the given text within a word. -/
def endsWord (flow : Bool) : List Char → Bool
  | [] => true
  | c :: cs => (c == ':' && atGap cs) || (flow && isFlowStop c)

/-- Whether a plain scalar ends at the given text after a gap. -/
def endsPlain (flow : Bool) (indent column : Nat) (cs : List Char) : Bool :=
  (!flow && column < indent) || atMark column cs || cs.head? == some '#'

/-- Reads a plain scalar; lines that continue it are indented by `indent` at least. -/
def readPlain (flow : Bool) (indent : Nat) (p : Position) (text : List Char) (gap : Gap) :
    List Char → Except Error ScalarText
  | [] => .ok ⟨text.reverse, ⟨[], p⟩, gap.hasBreak⟩
  | '\r' :: '\n' :: cs => readPlain flow indent (p.newLine 2) text (gap.lineBreak '\n') cs
  | c :: cs =>
    if isBreak c then readPlain flow indent (p.newLine 1) text (gap.lineBreak c) cs
    else if isBlank c then
      -- Tabs are no indentation.
      if gap.hasBreak && p.column < indent && c == '\t' then
        .error (.token "found a tab character that violates indentation")
      else readPlain flow indent (p.skip 1) text (gap.blank c) cs
    else
      let ends := match gap with
        | .none => false
        | _ => endsPlain flow indent p.column (c :: cs)
      if ends || endsWord flow (c :: cs) then .ok ⟨text.reverse, ⟨c :: cs, p⟩, gap.hasBreak⟩
      else readPlain flow indent (p.skip 1) (c :: gap.join text) .none cs

/-! ## Quoted scalars -/

/-- The character that a letter stands for after a backslash. -/
def escaped? (c : Char) : Option Char :=
  match c with
  | '0' => some (Char.ofNat 0x00)
  | 'a' => some (Char.ofNat 0x07)
  | 'b' => some (Char.ofNat 0x08)
  | 't' => some '\t'
  | '\t' => some '\t'
  | 'n' => some '\n'
  | 'v' => some (Char.ofNat 0x0b)
  | 'f' => some (Char.ofNat 0x0c)
  | 'r' => some '\r'
  | 'e' => some (Char.ofNat 0x1b)
  | ' ' => some ' '
  | '"' => some '"'
  | '\'' => some '\''
  | '\\' => some '\\'
  | 'N' => some (Char.ofNat 0x85)
  | '_' => some (Char.ofNat 0xa0)
  | 'L' => some (Char.ofNat 0x2028)
  | 'P' => some (Char.ofNat 0x2029)
  | _ => none

/-- How many hexadecimal digits follow a letter after a backslash. -/
def escapeWidth? (c : Char) : Option Nat :=
  match c with
  | 'x' => some 2
  | 'u' => some 4
  | 'U' => some 8
  | _ => none

/-- What stands after a backslash: a break, or a character and how much of the text it takes. -/
inductive Escape where
  | lineBreak
  | char (c : Char) (width : Nat)

/-- Reads what stands after a backslash. -/
def Escape.read? (cs : List Char) : Option Escape :=
  match cs with
  | [] => none
  | c :: rest =>
    if isBreak c then some .lineBreak
    else
      match escaped? c, escapeWidth? c with
      | some e, _ => some (.char e 1)
      | none, some width => do
        let (n, _) ← Text.Hex.read? width rest
        let e ← Text.Hex.char? n
        some (.char e (width + 1))
      | none, none => none

/-- Reads a quoted scalar behind its first quote. As many rounds as there are characters are
enough. -/
def readQuoted (single : Bool) :
    (rounds : Nat) → Cursor → (text : List Char) → Gap → Except Error ScalarText
  | 0, _, _, _ => .error (.token "found unexpected end of stream")
  | rounds + 1, cursor, text, gap =>
    match cursor.rest with
    | [] => .error (.token "found unexpected end of stream")
    | c :: cs =>
      if isBreak c then
        readQuoted single rounds cursor.skipBreak text (gap.lineBreak c)
      else if isBlank c then readQuoted single rounds (cursor.skip 1) text (gap.blank c)
      else if atMark cursor.position.column cursor.rest then
        .error (.token "found unexpected document indicator")
      else
        let text := gap.join text
        if single && c == '\'' then
          if cs.head? = some '\'' then
            readQuoted single rounds (cursor.skip 2) ('\'' :: text) .none
          else .ok ⟨text.reverse, cursor.skip 1, false⟩
        else if !single && c == '"' then .ok ⟨text.reverse, cursor.skip 1, false⟩
        else if !single && c == '\\' then
          match Escape.read? cs with
          | some .lineBreak =>
            -- An escaped break joins the lines without a space between them.
            readQuoted single rounds (cursor.skip 1).skipBreak text (.lines none [])
          | some (.char e width) =>
            readQuoted single rounds (cursor.skip (width + 1)) (e :: text) .none
          | none => .error (.token "found unknown escape character")
        else readQuoted single rounds (cursor.skip 1) (c :: text) .none

/-! ## Block scalars -/

/-- What becomes of the breaks at the end of a block. -/
inductive Chomp where
  | clip
  | strip
  | keep
  deriving DecidableEq

/-- The start of a block scalar: how its end is treated and how much it is indented, if that is
said. -/
structure BlockHeader where
  chomp : Chomp := .clip
  increment : Option Nat := none

/-- Reads what is said about the end of a block. -/
def readChomp : List Char → Chomp × List Char
  | '+' :: cs => (.keep, cs)
  | '-' :: cs => (.strip, cs)
  | cs => (.clip, cs)

/-- Reads how much a block is indented. -/
def readIncrement : List Char → Except Error (Option Nat × List Char)
  | [] => .ok (none, [])
  | c :: cs =>
    if c = '0' then .error (.token "found an indentation indicator equal to 0")
    else if c.isDigit then .ok (some (c.toNat - '0'.toNat), cs)
    else .ok (none, c :: cs)

/-- Reads the header behind the indicator of a block scalar up to the start of the next line. -/
def BlockHeader.read (cursor : Cursor) : Except Error (BlockHeader × Cursor) := do
  let (chomp, rest) := readChomp cursor.rest
  let (increment, rest) ← readIncrement rest
  let (chomp, rest) :=
    -- The two indicators come in either order.
    if chomp = .clip ∧ increment.isSome then readChomp rest else (chomp, rest)
  let cursor := (cursor.skip (cursor.rest.length - rest.length)).skipWhile isBlank
  let cursor := if cursor.rest.head? = some '#' then cursor.skipLine else cursor
  if atLineEnd cursor.rest then .ok (⟨chomp, increment⟩, cursor.skipBreak)
  else .error (.token "did not find expected comment or line break")

/-- Where the first line of a block that is not empty stands: its text from behind the indentation
on, the breaks before it with the last one first, and the deepest column reached. -/
structure BlockBreaks where
  stop : Cursor
  breaks : List Char
  deepest : Nat

/-- Passes over empty lines and the indentation of the line after them. An indentation of zero is
not known yet, and all spaces count as such. -/
def BlockBreaks.read (indent : Nat) (p : Position) (breaks : List Char) (deepest : Nat) :
    List Char → Except Error BlockBreaks
  | [] => .ok ⟨⟨[], p⟩, breaks, max deepest p.column⟩
  | '\r' :: '\n' :: cs => read indent (p.newLine 2) ('\n' :: breaks) (max deepest p.column) cs
  | c :: cs =>
    let indenting := indent == 0 || p.column < indent
    if indenting && c == ' ' then read indent (p.skip 1) breaks deepest cs
    else if indenting && c == '\t' then
      .error (.token "found a tab character where an indentation space is expected")
    else if isBreak c then
      read indent (p.newLine 1) (normalBreak c :: breaks) (max deepest p.column) cs
    else .ok ⟨⟨c :: cs, p⟩, breaks, max deepest p.column⟩

/-- The break that stands at a place, none at the end of the text. -/
def breakHere (cs : List Char) : List Char :=
  match cs with
  | [] => []
  | c :: _ => if isBreak c then [normalBreak c] else []

/-- What has been read of a block: its text, the break behind it, and whether the last line started
with a blank. Lists hold the last character first. -/
structure BlockText where
  text : List Char := []
  lead : List Char := []
  startsBlank : Bool := false

/-- The text with the breaks before a next line. In a folded block a single break between lines that
start with no blank is read as a space. -/
def BlockText.join (literal startsBlank : Bool) (block : BlockText) (breaks : List Char) :
    List Char :=
  if !literal && !block.startsBlank && !startsBlank && block.lead == ['\n'] then
    if breaks.isEmpty then ' ' :: block.text else breaks ++ block.text
  else breaks ++ block.lead ++ block.text

/-- Reads the lines of a block scalar. As many rounds as there are characters are enough. -/
def readBlockLines (literal : Bool) (indent : Nat) :
    (rounds : Nat) → BlockText → BlockBreaks → Except Error (BlockText × BlockBreaks)
  | 0, block, breaks => .ok (block, breaks)
  | rounds + 1, block, breaks =>
    match breaks.stop.rest with
    | [] => .ok (block, breaks)
    | c :: _ =>
      if breaks.stop.position.column ≠ indent then .ok (block, breaks)
      else do
        let start := breaks.stop
        let line := start.rest.takeWhile (!isBreak ·)
        let stop := start.skip line.length
        let text := line.reverse ++ block.join literal (isBlank c) breaks.breaks
        let next := stop.skipBreak
        let more ← BlockBreaks.read indent next.position [] 0 next.rest
        readBlockLines literal indent rounds ⟨text, breakHere stop.rest, isBlank c⟩ more

/-- Reads a block scalar behind its indicator; `indent` is the indentation of what it stands in,
negative outside of everything. -/
def readBlock (literal : Bool) (indent : Int) (cursor : Cursor) : Except Error ScalarText := do
  let (header, start) ← BlockHeader.read cursor
  let given := match header.increment with
    | some n => n + indent.toNat
    | none => 0
  let breaks ← BlockBreaks.read given start.position [] 0 start.rest
  -- Where no width is given, it is the deepest column up to the first text.
  let width := if given = 0 then max breaks.deepest (max (indent + 1).toNat 1) else given
  let (block, breaks) ← readBlockLines literal width (start.rest.length + 1) {} breaks
  let text := match header.chomp with
    | .strip => block.text
    | .clip => block.lead ++ block.text
    | .keep => breaks.breaks ++ block.lead ++ block.text
  .ok ⟨text.reverse, breaks.stop, true⟩

end StackMachine.Yaml
