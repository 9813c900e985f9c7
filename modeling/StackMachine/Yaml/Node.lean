import StackMachine.Yaml.Token

/-!
# YAML documents

A document is a tree of scalars, sequences and mappings. An anchor names a part of the tree, and an
alias stands for the part last named so. `Node.ofText` reads the first document of a text; what
follows it is looked at no further than one token, and not judged.
-/

namespace StackMachine.Yaml

/-- A part of a document. A scalar has a tag if one is written, in its short form. An alias within
the part that it names has no target. -/
inductive Node where
  | scalar (tag : Option String) (style : Style) (text : String)
  | sequence (items : List Node)
  | mapping (pairs : List (Node × Node))
  | alias (name : String) (target : Option Node)
  deriving Inhabited

/-- A part that has a name, once it has been read. -/
structure Anchored where
  name : String
  node : Option Node

/-- What is left to read, with the anchors and the abbreviations of tags that are known. -/
structure Reader where
  tokens : List Token
  /-- The anchors met so far, the last one first. -/
  anchors : List Anchored := []
  /-- The handles of tags and what they stand for. -/
  handles : List (String × String) := []
  /-- Why there are no further tokens. -/
  failure : Error := .noDocument

namespace Reader

/-- The next token. -/
def peek (r : Reader) : Except Error Token :=
  match r.tokens with
  | t :: _ => .ok t
  | [] => .error r.failure

/-- The place behind the next token. -/
def skip (r : Reader) : Reader :=
  { r with tokens := r.tokens.tail }

end Reader

/-! ## Tags -/

/-- What the tags of common types start with. -/
def commonTag : String := "tag:yaml.org,2002:"

/-- The short form of a tag. -/
def shortTag (tag : String) : String :=
  if commonTag.toList.isPrefixOf tag.toList then
    "!!" ++ String.ofList (tag.toList.drop commonTag.length)
  else tag

/-- The handles that are known in every document. -/
def commonHandles : List (String × String) :=
  [("!", "!"), ("!!", commonTag)]

/-- What is written in front of a part. -/
structure Properties where
  anchor : Option String := none
  tag : Option String := none

namespace Properties

/-- Whether nothing is written. -/
def isEmpty (p : Properties) : Bool :=
  p.anchor.isNone && p.tag.isNone

/-- The tag of a scalar. A lone exclamation mark stands for none. -/
def scalarTag (p : Properties) : Option String :=
  match p.tag with
  | some "!" => none
  | tag => tag.map shortTag

/-- Reads an anchor, if there is one. -/
def readAnchor (p : Properties) (r : Reader) : Except Error (Properties × Reader) := do
  match ← r.peek with
  | .anchor name => .ok ({ p with anchor := some name }, r.skip)
  | _ => .ok (p, r)

/-- Reads a tag, if there is one. -/
def readTag (p : Properties) (r : Reader) : Except Error (Properties × Reader) := do
  match ← r.peek with
  | .tag handle suffix =>
    if handle.isEmpty then .ok ({ p with tag := some suffix }, r.skip)
    else
      match r.handles.lookup handle with
      | some expansion => .ok ({ p with tag := some (expansion ++ suffix) }, r.skip)
      | none => .error (.shape "found undefined tag handle")
  | _ => .ok (p, r)

/-- Reads an anchor and a tag, in either order. -/
def read (r : Reader) : Except Error (Properties × Reader) := do
  match ← r.peek with
  | .anchor _ =>
    let (p, r) ← readAnchor {} r
    readTag p r
  | .tag _ _ =>
    let (p, r) ← readTag {} r
    readAnchor p r
  | _ => .ok ({}, r)

end Properties

/-! ## Anchors -/

namespace Reader

/-- Reserves the name of a part that is about to be read. -/
def reserve (r : Reader) (p : Properties) : Reader :=
  match p.anchor with
  | some name => { r with anchors := ⟨name, none⟩ :: r.anchors }
  | none => r

/-- Gives the part to the name reserved when `before` anchors were known. -/
def close (r : Reader) (p : Properties) (before : Nat) (node : Node) : Reader :=
  match p.anchor with
  | some name =>
    { r with anchors := r.anchors.set (r.anchors.length - 1 - before) ⟨name, some node⟩ }
  | none => r

end Reader

namespace Node

/-- The part that stands where nothing is written. -/
def empty : Node := .scalar none .plain ""

/-- The part that an alias stands for. -/
def ofAlias (r : Reader) (name : String) : Except Error Node :=
  match r.anchors.find? (·.name == name) with
  | some a => .ok (.alias name a.node)
  | none => .error (.anchor name)

/-! ## Reading -/

/-- The part where nothing is written, which is one only if it has an anchor or a tag. -/
def absent (p : Properties) (r : Reader) : Except Error (Node × Reader) :=
  if p.isEmpty then .error (.shape "did not find expected node content")
  else .ok (.scalar p.scalarTag .plain "", r)

/-- Whether an entry of a block sequence is empty in front of a token. -/
def endsEntry : Token → Bool
  | .entry => true
  | .blockEnd => true
  | _ => false

/-- Whether a key or a value of a block mapping is empty in front of a token. -/
def endsBlockPart : Token → Bool
  | .key => true
  | .value => true
  | .blockEnd => true
  | _ => false

/-- Whether a key between the given closing token and its opening is empty in front of a token. -/
def endsFlowKey (closing : Token) (t : Token) : Bool :=
  t == .value || t == .comma || t == closing

/-- Whether a value between the given closing token and its opening is empty in front of a
token. -/
def endsFlowValue (closing : Token) (t : Token) : Bool :=
  t == .comma || t == closing

/-- The token that starts an item between brackets or braces: behind a comma, unless it is the
first. -/
def flowItem (closing : Token) (first : Bool) (r : Reader) : Except Error (Token × Reader) := do
  let t ← r.peek
  if t == closing || first then .ok (t, r)
  else if t == .comma then .ok (← r.skip.peek, r.skip)
  else .error (.shape "did not find expected ',' or a closing bracket")

mutual

/-- Reads a part. A block may start here if `block` holds, and a sequence without an indentation of
its own if `indentless` holds. -/
def read : (rounds : Nat) → (block indentless : Bool) → Reader → Except Error (Node × Reader)
  | 0, _, _, _ => .error (.shape "nested too deeply")
  | rounds + 1, block, indentless, r => do
    match ← r.peek with
    | .alias name => .ok (← ofAlias r name, r.skip)
    | _ =>
      let before := r.anchors.length
      let (p, r) ← Properties.read r
      -- The anchor is known inside of the part, where an alias of it has nothing to stand for yet.
      let r := r.reserve p
      let (node, r) ← match ← r.peek with
        | .entry =>
          if indentless then readIndentless rounds [] r else absent p r
        | .scalar style text => .ok (.scalar p.scalarTag style text, r.skip)
        | .flowSequence => readFlowSequence rounds true [] r.skip
        | .flowMapping => readFlowMapping rounds true [] r.skip
        | .blockSequence =>
          if block then readSequence rounds [] r.skip else absent p r
        | .blockMapping =>
          if block then readMapping rounds [] r.skip else absent p r
        | _ => absent p r
      .ok (node, r.close p before node)

/-- Reads the entries of a block sequence; `done` holds those read, the last one first. -/
def readSequence : (rounds : Nat) → (done : List Node) → Reader → Except Error (Node × Reader)
  | 0, _, _ => .error (.shape "nested too deeply")
  | rounds + 1, done, r => do
    match ← r.peek with
    | .entry =>
      if endsEntry (← r.skip.peek) then readSequence rounds (empty :: done) r.skip
      else
        let (node, r) ← read rounds true false r.skip
        readSequence rounds (node :: done) r
    | .blockEnd => .ok (.sequence done.reverse, r.skip)
    | _ => .error (.shape "did not find expected '-' indicator")

/-- Reads the entries of a sequence that is indented no further than the mapping around it. -/
def readIndentless : (rounds : Nat) → (done : List Node) → Reader → Except Error (Node × Reader)
  | 0, _, _ => .error (.shape "nested too deeply")
  | rounds + 1, done, r => do
    match ← r.peek with
    | .entry =>
      let t ← r.skip.peek
      if endsEntry t || endsBlockPart t then readIndentless rounds (empty :: done) r.skip
      else
        let (node, r) ← read rounds true false r.skip
        readIndentless rounds (node :: done) r
    | _ => .ok (.sequence done.reverse, r)

/-- Reads a key or a value of a block mapping behind its indicator. -/
def readBlockPart : (rounds : Nat) → Reader → Except Error (Node × Reader)
  | 0, _ => .error (.shape "nested too deeply")
  | rounds + 1, r => do
    if endsBlockPart (← r.peek) then .ok (empty, r) else read rounds true true r

/-- Reads the pairs of a block mapping. -/
def readMapping :
    (rounds : Nat) → (done : List (Node × Node)) → Reader → Except Error (Node × Reader)
  | 0, _, _ => .error (.shape "nested too deeply")
  | rounds + 1, done, r => do
    match ← r.peek with
    | .key =>
      let (key, r) ← readBlockPart rounds r.skip
      match ← r.peek with
      | .value =>
        let (value, r) ← readBlockPart rounds r.skip
        readMapping rounds ((key, value) :: done) r
      | _ => readMapping rounds ((key, empty) :: done) r
    | .blockEnd => .ok (.mapping done.reverse, r.skip)
    | _ => .error (.shape "did not find expected key")

/-- Reads the value of a pair between brackets or braces, if there is one. -/
def readFlowValue :
    (rounds : Nat) → (closing : Token) → Reader → Except Error (Node × Reader)
  | 0, _, _ => .error (.shape "nested too deeply")
  | rounds + 1, closing, r => do
    match ← r.peek with
    | .value =>
      if endsFlowValue closing (← r.skip.peek) then .ok (empty, r.skip)
      else read rounds false false r.skip
    | _ => .ok (empty, r)

/-- Reads the items between brackets. A single pair stands for a mapping. -/
def readFlowSequence :
    (rounds : Nat) → (first : Bool) → (done : List Node) → Reader → Except Error (Node × Reader)
  | 0, _, _, _ => .error (.shape "nested too deeply")
  | rounds + 1, first, done, r => do
    match ← flowItem .flowSequenceEnd first r with
    | (.flowSequenceEnd, r) => .ok (.sequence done.reverse, r.skip)
    | (.key, r) =>
      -- An empty key takes the token behind it along.
      let (key, r) ←
        if endsFlowKey .flowSequenceEnd (← r.skip.peek) then .ok (empty, r.skip.skip)
        else read rounds false false r.skip
      let (value, r) ← readFlowValue rounds .flowSequenceEnd r
      readFlowSequence rounds false (.mapping [(key, value)] :: done) r
    | (_, r) =>
      let (node, r) ← read rounds false false r
      readFlowSequence rounds false (node :: done) r

/-- Reads the pairs between braces. A key may stand without a value. -/
def readFlowMapping :
    (rounds : Nat) → (first : Bool) → (done : List (Node × Node)) → Reader →
      Except Error (Node × Reader)
  | 0, _, _, _ => .error (.shape "nested too deeply")
  | rounds + 1, first, done, r => do
    match ← flowItem .flowMappingEnd first r with
    | (.flowMappingEnd, r) => .ok (.mapping done.reverse, r.skip)
    | (.key, r) =>
      let (key, r) ←
        if endsFlowKey .flowMappingEnd (← r.skip.peek) then .ok (empty, r.skip)
        else read rounds false false r.skip
      let (value, r) ← readFlowValue rounds .flowMappingEnd r
      readFlowMapping rounds false ((key, value) :: done) r
    | (_, r) =>
      let (key, r) ← read rounds false false r
      readFlowMapping rounds false ((key, empty) :: done) r

end

/-! ## Documents -/

/-- Reads the directives in front of a document; `version` says whether one has been read that gives
the version. -/
def readDirectives (version : Bool) (handles : List (String × String)) :
    List Token → Except Error (List (String × String) × List Token)
  | .version major minor :: ts =>
    if version then .error (.shape "found duplicate %YAML directive")
    else if major ≠ 1 ∨ minor ≠ 1 then .error (.shape "found incompatible YAML document")
    else readDirectives true handles ts
  | .tagShort handle expansion :: ts =>
    if (handles.lookup handle).isSome then .error (.shape "found duplicate %TAG directive")
    else readDirectives version (handles ++ [(handle, expansion)]) ts
  | ts => .ok (handles ++ commonHandles, ts)

/-- Whether a document that was announced by a mark is empty in front of a token. -/
def endsDocument : Token → Bool
  | .version _ _ => true
  | .tagShort _ _ => true
  | .documentStart => true
  | .documentEnd => true
  | .streamEnd => true
  | _ => false

/-- Whether a document is announced by a token. -/
def announces : Token → Bool
  | .version _ _ => true
  | .tagShort _ _ => true
  | .documentStart => true
  | _ => false

/-- Reads the document that a mark announces. -/
def readExplicit (rounds : Nat) (r : Reader) : Except Error (Node × Reader) := do
  let (handles, ts) ← readDirectives false [] r.tokens
  let r := { r with tokens := ts, handles }
  match ← r.peek with
  | .documentStart =>
    if endsDocument (← r.skip.peek) then .ok (empty, r.skip) else read rounds true false r.skip
  | _ => .error (.shape "did not find expected <document start>")

/-- Reads the first document. -/
def ofTokens (r : Reader) : Except Error Node := do
  -- A part takes two rounds for each of its tokens at most.
  let rounds := 2 * r.tokens.length + 2
  let t ← r.peek
  if t == .streamEnd then .error .noDocument
  else
    let (node, r) ←
      if announces t then readExplicit rounds r
      else read rounds true false { r with handles := commonHandles }
    let _ ← r.peek
    .ok node

/-- The first document of a text. -/
def ofText (cs : List Char) : Except Error Node :=
  let (ts, failure?) := Yaml.tokens cs
  ofTokens { tokens := ts, failure := failure?.getD .noDocument }

end Node

end StackMachine.Yaml
