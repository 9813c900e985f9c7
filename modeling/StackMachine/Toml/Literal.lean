import StackMachine.Binary64
import StackMachine.Bytes
import StackMachine.Calendar
import StackMachine.Numeral
import StackMachine.Text.Hex

/-!
# TOML texts

A text is a sequence of statements: headers of tables, and keys with values. `Statement.readAll`
reads them without asking whether they fit together.

Loops over the text are bounded by rounds, of which there are always more than characters left.
-/

namespace StackMachine.Toml

/-- Why a text is not what is looked for. -/
inductive Error where
  | encoding
  | character
  | malformed (what : String)
  | redefined (key : String)
  | mismatch (wanted : String)
  deriving DecidableEq, Repr

/-- The wording of an error. -/
def Error.message : Error → String
  | .encoding => "toml: the bytes are no text"
  | .character => "toml: control characters are not allowed"
  | .malformed what => "toml: malformed " ++ what
  | .redefined key => "toml: key " ++ key ++ " has already been defined"
  | .mismatch wanted => "toml: expected " ++ wanted

/-- The name of a value: the parts of a dotted key. -/
abbrev Key := List String

/-- A value as it is written. Values that are neither numbers nor truth values are told apart no
further than needed. -/
inductive Literal where
  | integer (n : Int)
  | float
  | boolean (b : Bool)
  | datetime
  | string (s : String)
  | array (items : List Literal)
  | inline (pairs : List (Key × Literal))
  deriving Inhabited

/-- A statement. -/
inductive Statement where
  /-- The header of a table. -/
  | table (key : Key)
  /-- The header of a table that is an element of an array. -/
  | element (key : Key)
  | pair (key : Key) (value : Literal)

/-! ## Characters -/

/-- Whether a character may not stand in a text. -/
def isControl (c : Char) : Bool :=
  (c.toNat < 0x20 && c != '\t' && c != '\n') || c.toNat == 0x7f

/-- The text with one character for each line break. A carriage return stands only before a line
feed. -/
def unifyBreaks : List Char → List Char
  | '\r' :: '\n' :: cs => '\n' :: unifyBreaks cs
  | c :: cs => c :: unifyBreaks cs
  | [] => []

/-- Bytes without a byte order mark. -/
def withoutMark : Bytes → Bytes
  | 0xff :: 0xfe :: bs => bs
  | 0xfe :: 0xff :: bs => bs
  | 0xef :: 0xbb :: 0xbf :: bs => bs
  | bs => bs

/-- The characters of a text. -/
def source (bs : Bytes) : Except Error (List Char) :=
  match Bytes.text? (withoutMark bs) with
  | none => .error .encoding
  | some s =>
    let cs := unifyBreaks s.toList
    if cs.any isControl then .error .character else .ok cs

/-- Whether a character is a space or a tab. -/
def isBlank (c : Char) : Bool :=
  c == ' ' || c == '\t'

/-- Whether a character may stand in a key without quotes. -/
def isBare (c : Char) : Bool :=
  c.isAlphanum || c == '_' || c == '-'

/-- Passes over blanks. -/
def skipBlanks (cs : List Char) : List Char :=
  cs.dropWhile isBlank

/-- Passes over a comment, if there is one. -/
def skipComment : List Char → List Char
  | '#' :: cs => cs.dropWhile (· != '\n')
  | cs => cs

/-- Passes over blanks, breaks and comments. -/
def skipGap : (rounds : Nat) → List Char → List Char
  | 0, cs => cs
  | rounds + 1, cs =>
    match skipComment (skipBlanks cs) with
    | '\n' :: cs => skipGap rounds cs
    | cs => cs

/-! ## Strings -/

/-- Reads what stands behind a backslash in one line, with what follows it. -/
def readEscape : List Char → Option (Char × List Char)
  | 'b' :: cs => some (Char.ofNat 0x08, cs)
  | 't' :: cs => some ('\t', cs)
  | 'n' :: cs => some ('\n', cs)
  | 'f' :: cs => some (Char.ofNat 0x0c, cs)
  | 'r' :: cs => some ('\r', cs)
  | 'e' :: cs => some (Char.ofNat 0x1b, cs)
  | '"' :: cs => some ('"', cs)
  | '\\' :: cs => some ('\\', cs)
  | 'x' :: cs => code 2 cs
  | 'u' :: cs => code 4 cs
  | 'U' :: cs => code 8 cs
  | _ => none
where
  /-- Reads a code point of a fixed number of digits. -/
  code (width : Nat) (cs : List Char) : Option (Char × List Char) := do
    let (n, cs) ← Text.Hex.read? width cs
    some (← Text.Hex.char? n, cs)

/-- Reads a string in one line behind its first quote; `done` holds what has been read, the last
character first. -/
def readBasic : (rounds : Nat) → (done cs : List Char) → Except Error (String × List Char)
  | 0, _, _ => .error (.malformed "string")
  | rounds + 1, done, cs =>
    match cs with
    | '"' :: cs => .ok (String.ofList done.reverse, cs)
    | '\\' :: cs =>
      match readEscape cs with
      | some (c, cs) => readBasic rounds (c :: done) cs
      | none => .error (.malformed "escape")
    | c :: cs => if c = '\n' then .error (.malformed "string") else readBasic rounds (c :: done) cs
    | [] => .error (.malformed "string")

/-- Reads a string without escapes in one line behind its first quote. -/
def readRaw (cs : List Char) : Except Error (String × List Char) :=
  let s := cs.takeWhile fun c => c != '\'' && c != '\n'
  match cs.drop s.length with
  | '\'' :: cs => .ok (String.ofList s, cs)
  | _ => .error (.malformed "string")

/-- Passes over a break right behind the opening quotes. -/
def skipFirstBreak : List Char → List Char
  | '\n' :: cs => cs
  | cs => cs

/-- Whether blanks and breaks that stand behind a backslash end a line, so that they mean
nothing. -/
def endsLine (cs : List Char) : Bool :=
  (cs.takeWhile fun c => isBlank c || c == '\n').contains '\n'

/-- Reads a string of several lines behind its opening quotes. Three quotes end it, and up to two
more in front of them belong to it; behind a backslash that stands for itself there may be
three. -/
def readLines (quote : Char) (escapes : Bool) :
    (rounds : Nat) → (done cs : List Char) → (slash : Bool) → Except Error (String × List Char)
  | 0, _, _, _ => .error (.malformed "string")
  | rounds + 1, done, cs, slash =>
    match cs with
    | [] => .error (.malformed "string")
    | c :: rest =>
      if c = quote then
        let run := (cs.takeWhile (· == quote)).length
        -- Fewer than three quotes are part of the text.
        if run < 3 then
          readLines quote escapes rounds (List.replicate run quote ++ done) (cs.drop run) false
        else if 5 + (if slash then 1 else 0) < run then .error (.malformed "string")
        else .ok (String.ofList (List.replicate (run - 3) quote ++ done).reverse, cs.drop run)
      else if escapes && c == '\\' then
        -- A backslash at the end of a line takes the break and the blanks behind it along.
        if endsLine rest then
          readLines quote escapes rounds done
            (rest.dropWhile fun c => isBlank c || c == '\n') false
        else
          match readEscape rest with
          | some (e, after) =>
            readLines quote escapes rounds (e :: done) after (rest.head? == some '\\')
          | none => .error (.malformed "escape")
      else readLines quote escapes rounds (c :: done) rest false

/-! ## Keys -/

/-- Reads one part of a key. -/
def readPart (rounds : Nat) : List Char → Except Error (String × List Char)
  | '"' :: cs => readBasic rounds [] cs
  | '\'' :: cs => readRaw cs
  | cs =>
    let name := cs.takeWhile isBare
    if name.isEmpty then .error (.malformed "key")
    else .ok (String.ofList name, cs.drop name.length)

/-- Reads a key, whose parts are divided by points, and the blanks behind it. -/
def readKey : (rounds : Nat) → (done : Key) → List Char → Except Error (Key × List Char)
  | 0, _, _ => .error (.malformed "key")
  | rounds + 1, done, cs => do
    let (part, cs) ← readPart (rounds + 1) (skipBlanks cs)
    match skipBlanks cs with
    | '.' :: cs => readKey rounds (part :: done) cs
    | cs => .ok ((part :: done).reverse, cs)

/-! ## Numbers and dates -/

/-- Whether a decimal starts with a zero that is not all of it. -/
def hasLeadingZero (cs : List Char) : Bool :=
  match cs with
  | '0' :: _ :: _ => true
  | _ => false

/-- The integer whose sign or letter of a base is `front`, followed by digits with underscores
between them. -/
def integer? (front digits : List Char) : Option Int :=
  if !Numeral.separates true false digits then none
  -- A base has two characters, and digits in a base may start with zeros.
  else if front.length < 2 && hasLeadingZero digits then none
  else (Numeral.signed (front ++ digits.filter (· ≠ '_'))).toOption

/-- Whether every point stands before a digit. -/
def pointsFit : List Char → Bool
  | '.' :: c :: cs => c.isDigit && pointsFit (c :: cs)
  | ['.'] => false
  | _ :: cs => pointsFit cs
  | [] => true

/-- Whether a text is a float. -/
def isFloat (cs : List Char) : Bool :=
  let (negative, ds) := Numeral.sign cs
  let whole := ds.takeWhile fun c => c.isDigit || c == '_'
  let value := do
    let (m, e) ← Decimal.scaled? (ds.filter (· ≠ '_'))
    Binary64.ofDecimal? negative m e
  Numeral.separates false false cs && pointsFit cs && !hasLeadingZero whole && value.isSome

/-- Whether a text is a date. -/
def isDate : List Char → Bool
  | [a, b, c, d, '-', e, f, '-', g, h] =>
    [a, b, c, d, e, f, g, h].all Char.isDigit &&
      Calendar.isDay (Calendar.number [a, b, c, d]) (Calendar.number [e, f])
        (Calendar.number [g, h])
  | _ => false

/-- Reads a time of day, whose seconds may be left out. -/
def readTime : List Char → Option (List Char)
  | a :: b :: ':' :: c :: d :: ':' :: e :: f :: cs =>
    if [a, b, c, d, e, f].all Char.isDigit &&
        Calendar.isTime (Calendar.number [a, b]) (Calendar.number [c, d])
          (Calendar.number [e, f]) then
      some (Calendar.skipFraction cs)
    else none
  | a :: b :: ':' :: c :: d :: cs =>
    if [a, b, c, d].all Char.isDigit &&
        Calendar.isTime (Calendar.number [a, b]) (Calendar.number [c, d]) 0 then some cs
    else none
  | _ => none

/-- Whether a text is a date, a time of day, or both with a zone or without one. Letters are in
either case, and a space may divide date and time. -/
def isDatetime (cs : List Char) : Bool :=
  let cs := cs.map fun c =>
    if c = 't' ∨ c = ' ' then 'T' else if c = 'z' then 'Z' else c
  isDate cs || (readTime cs).any List.isEmpty ||
    match cs.drop 10 with
    | 'T' :: time =>
      isDate (cs.take 10) &&
        (readTime time).any fun rest => rest.isEmpty || Calendar.isZone rest
    | _ => false

/-- Takes the characters at the front that satisfy `p`. -/
def span (p : Char → Bool) (cs : List Char) : List Char × List Char :=
  (cs.takeWhile p, cs.dropWhile p)

/-- Whether a character can go on a date or a time. -/
def isDateChar (c : Char) : Bool :=
  c.isDigit || "-:Tt .Zz+".toList.contains c

/-- Whether a character can go on a float. -/
def isFloatChar (c : Char) : Bool :=
  c.isDigit || "_.-+eE".toList.contains c

/-- Reads a date or a time. Blanks behind it do not belong to it. -/
def readDatetime (cs : List Char) : Except Error (Literal × List Char) :=
  let (text, rest) := span isDateChar cs
  if isDatetime (text.reverse.dropWhile (· == ' ')).reverse then .ok (.datetime, rest)
  else .error (.malformed "date")

/-- Reads a float. -/
def readFloat (cs : List Char) : Except Error (Literal × List Char) :=
  let (text, rest) := span isFloatChar cs
  if isFloat text then .ok (.float, rest) else .error (.malformed "float")

/-- Reads an integer whose digits satisfy `p`, behind what is in front of them. -/
def readInteger (front : List Char) (p : Char → Bool) (cs : List Char) :
    Except Error (Literal × List Char) :=
  let (text, rest) := span (fun c => p c || c == '_') cs
  match integer? front text with
  | some n => .ok (.integer n, rest)
  | none => .error (.malformed "integer")

/-- Reads a decimal with a sign in front of it. -/
def readDecimal (front cs : List Char) : Except Error (Literal × List Char) :=
  match cs.dropWhile fun c => c.isDigit || c == '_' with
  | '.' :: _ => readFloat (front ++ cs)
  | 'e' :: _ => readFloat (front ++ cs)
  | 'E' :: _ => readFloat (front ++ cs)
  | _ => readInteger front Char.isDigit cs

/-- Reads a number or a date, which starts with a digit. -/
def readNumber (cs : List Char) : Except Error (Literal × List Char) :=
  match cs with
  | '0' :: 'b' :: cs => readInteger ['0', 'b'] (fun c => c == '0' || c == '1') cs
  | '0' :: 'o' :: cs => readInteger ['0', 'o'] (fun c => '0' ≤ c && c ≤ '7') cs
  | '0' :: 'x' :: cs => readInteger ['0', 'x'] (fun c => (Text.Hex.value? c).isSome) cs
  | cs =>
    -- What stands behind the first digits tells a date or a time from a number.
    match cs.dropWhile Char.isDigit with
    | '-' :: _ => readDatetime cs
    | ':' :: _ => readDatetime cs
    | _ => readDecimal [] cs

/-- Reads a number behind its sign. -/
def readSigned (sign : Char) (cs : List Char) : Except Error (Literal × List Char) :=
  match cs with
  | 'i' :: 'n' :: 'f' :: cs => .ok (.float, cs)
  | 'n' :: 'a' :: 'n' :: cs => .ok (.float, cs)
  -- A number in another base has no sign.
  | '0' :: 'b' :: _ => .error (.malformed "number")
  | '0' :: 'o' :: _ => .error (.malformed "number")
  | '0' :: 'x' :: _ => .error (.malformed "number")
  | c :: _ => if c.isDigit then readDecimal [sign] cs else .error (.malformed "number")
  | [] => .error (.malformed "number")

/-! ## Values -/

mutual

/-- Reads a value. -/
def Literal.read : (rounds : Nat) → List Char → Except Error (Literal × List Char)
  | 0, _ => .error (.malformed "value")
  | rounds + 1, cs =>
    match skipBlanks cs with
    | '[' :: cs => Literal.readItems rounds [] cs
    | '\x7b' :: cs => Literal.readPairs rounds [] cs
    | '"' :: '"' :: '"' :: cs => do
      let (s, cs) ← readLines '"' true (rounds + 1) [] (skipFirstBreak cs) false
      .ok (.string s, cs)
    | '\'' :: '\'' :: '\'' :: cs => do
      let (s, cs) ← readLines '\'' false (rounds + 1) [] (skipFirstBreak cs) false
      .ok (.string s, cs)
    | '"' :: cs => do
      let (s, cs) ← readBasic (rounds + 1) [] cs
      .ok (.string s, cs)
    | '\'' :: cs => do
      let (s, cs) ← readRaw cs
      .ok (.string s, cs)
    | 'i' :: 'n' :: 'f' :: cs => .ok (.float, cs)
    | 'n' :: 'a' :: 'n' :: cs => .ok (.float, cs)
    | 't' :: 'r' :: 'u' :: 'e' :: cs => .ok (.boolean true, cs)
    | 'f' :: 'a' :: 'l' :: 's' :: 'e' :: cs => .ok (.boolean false, cs)
    | '+' :: cs => readSigned '+' cs
    | '-' :: cs => readSigned '-' cs
    | c :: cs => if c.isDigit then readNumber (c :: cs) else .error (.malformed "value")
    | [] => .error (.malformed "value")

/-- Reads the items of an array behind its bracket. -/
def Literal.readItems :
    (rounds : Nat) → (done : List Literal) → List Char → Except Error (Literal × List Char)
  | 0, _, _ => .error (.malformed "array")
  | rounds + 1, done, cs =>
    match skipGap (rounds + 1) cs with
    | ']' :: cs => .ok (.array done.reverse, cs)
    | cs => do
      let (item, cs) ← Literal.read rounds cs
      match skipGap (rounds + 1) cs with
      | ',' :: cs => Literal.readItems rounds (item :: done) cs
      | ']' :: cs => .ok (.array (item :: done).reverse, cs)
      | _ => .error (.malformed "array")

/-- Reads the pairs of a table behind its brace. -/
def Literal.readPairs :
    (rounds : Nat) → (done : List (Key × Literal)) → List Char → Except Error (Literal × List Char)
  | 0, _, _ => .error (.malformed "table")
  | rounds + 1, done, cs =>
    match skipGap (rounds + 1) cs with
    | '\x7d' :: cs => .ok (.inline done.reverse, cs)
    | cs => do
      let (key, cs) ← readKey (rounds + 1) [] cs
      match cs with
      | '=' :: cs =>
        let (value, cs) ← Literal.read rounds cs
        match skipGap (rounds + 1) cs with
        | ',' :: cs => Literal.readPairs rounds ((key, value) :: done) cs
        | '\x7d' :: cs => .ok (.inline ((key, value) :: done).reverse, cs)
        | _ => .error (.malformed "table")
      | _ => .error (.malformed "key")

end

/-! ## Statements -/

namespace Statement

/-- Reads the header of a table behind its first bracket. -/
def readHeader (rounds : Nat) : List Char → Except Error (Statement × List Char)
  | '[' :: cs => do
    match ← readKey rounds [] cs with
    | (key, ']' :: ']' :: cs) => .ok (.element key, cs)
    | _ => .error (.malformed "table name")
  | cs => do
    match ← readKey rounds [] cs with
    | (key, ']' :: cs) => .ok (.table key, cs)
    | _ => .error (.malformed "table name")

/-- Reads a statement. -/
def read (rounds : Nat) : List Char → Except Error (Statement × List Char)
  | '[' :: cs => readHeader rounds cs
  | cs => do
    match ← readKey rounds [] cs with
    | (key, '=' :: cs) =>
      let (value, cs) ← Literal.read rounds cs
      .ok (.pair key value, cs)
    | _ => .error (.malformed "key")

/-- Reads statements to the end of the text. Each fills its line, a comment apart. -/
def readAll : (rounds : Nat) → (done : List Statement) → List Char → Except Error (List Statement)
  | 0, _, _ => .error (.malformed "text")
  | rounds + 1, done, cs =>
    match skipGap (rounds + 1) cs with
    | [] => .ok done.reverse
    | cs => do
      let (s, cs) ← read (rounds + 1) cs
      match skipComment (skipBlanks cs) with
      | [] => .ok (s :: done).reverse
      | '\n' :: cs => readAll rounds (s :: done) cs
      | _ => .error (.malformed "line")

end Statement

end StackMachine.Toml
