import StackMachine.Yaml.Node
import StackMachine.Proofs.Bytes
import StackMachine.Proofs.Lines

/-!
# Documents of lines

A document may consist of lines with a key and a value each, where a value is a plain text, a text
between double quotes or plain texts between brackets. `Line` is such a line. Its tokens are found
by the scanner (`tokens_lines`), and made into a pair by the reader of documents, so that the lines
are read as the mapping that they stand for (`Node.ofText_lines`).
-/

namespace StackMachine.Yaml

open Scan

/-! ## Text -/

/-- The characters of names are allowed in a text. -/
theorem all_isAllowed_of_isWord {cs : List Char} (h : ∀ c ∈ cs, isWord c = true) :
    cs.all isAllowed = true := by
  rw [List.all_eq_true]
  intro c hc
  have hrange := toNat_of_isWord (h c hc)
  simp [isAllowed]
  omega

/-- The parts of a document that plain texts are. -/
def plainItems (items : List (List Char)) : List Node :=
  items.map fun cs => .scalar none .plain (String.ofList cs)

/-- What stands behind a key: a plain text, a text between double quotes, or plain texts between
brackets. -/
inductive Value where
  | plain (cs : List Char) (isPlain : IsPlain cs)
  | quoted (cs : List Char) (isWord : ∀ c ∈ cs, isWord c = true)
  | sequence (items : List (List Char)) (isPlain : ∀ cs ∈ items, IsPlain cs)

namespace Value

/-- How a value is written. -/
def text : Value → List Char
  | .plain cs _ => cs
  | .quoted cs _ => '"' :: (cs ++ ['"'])
  | .sequence items _ => '[' :: (itemsText items ++ [']'])

/-- The tokens of a value. -/
def tokens : Value → List Token
  | .plain cs _ => [.scalar .plain (String.ofList cs)]
  | .quoted cs _ => [.scalar .quoted (String.ofList cs)]
  | .sequence items _ => .flowSequence :: (itemsTokens items ++ [.flowSequenceEnd])

/-- The part of a document that a value is. -/
def node : Value → Node
  | .plain cs _ => .scalar none .plain (String.ofList cs)
  | .quoted cs _ => .scalar none .quoted (String.ofList cs)
  | .sequence items _ => .sequence (plainItems items)

/-- A value starts with a solid character. -/
theorem exists_cons (v : Value) : ∃ c cs, v.text = c :: cs ∧ isSolid c = true := by
  cases v with
  | plain cs hcs => exact hcs.exists_cons
  | quoted cs _ => exact ⟨'"', cs ++ ['"'], rfl, by decide⟩
  | sequence items _ => exact ⟨'[', itemsText items ++ [']'], rfl, by decide⟩

/-- The characters of a value are allowed in a text. -/
theorem all_isAllowed (v : Value) : v.text.all isAllowed = true := by
  cases v with
  | plain cs hcs => exact all_isAllowed_of_isWord hcs.isWord
  | quoted cs hcs => simp [text, all_isAllowed_of_isWord hcs, isAllowed]
  | sequence items hitems =>
    have hplain : ∀ cs ∈ items, cs.all isAllowed = true :=
      fun cs hcs => all_isAllowed_of_isWord (hitems cs hcs).isWord
    cases items with
    | nil => simp [text, itemsText, isAllowed]
    | cons cs items =>
      have hfurther : (furtherText items).all isAllowed = true := by
        rw [furtherText, List.all_flatMap, List.all_eq_true]
        intro ds hds
        simp [hplain ds (List.mem_cons_of_mem cs hds), isAllowed]
      simp [text, itemsText, hplain cs List.mem_cons_self, hfurther, isAllowed]

/-- A value is read up to the next line. -/
theorem leads (v : Value) (ts : List Token) (p : Position) {rest : List Char}
    (hrest : ∀ c ∈ rest.head?, isSolid c = true) :
    ∃ s, Leads (inValue ts ⟨' ' :: (v.text ++ '\n' :: rest), p⟩) s ∧
      StartsLine s true (v.tokens.reverse ++ ts) rest := by
  cases v with
  | plain cs hcs => exact leads_plain hcs ts p hrest
  | quoted cs hcs =>
    obtain ⟨p', hleads⟩ := leads_quoted hcs ts p rest
    refine ⟨_, ?_, startsLine_inValue _ hrest p'⟩
    simpa [text, tokens] using hleads
  | sequence items hitems =>
    obtain ⟨p', hleads⟩ := leads_brackets hitems ts p rest
    refine ⟨_, ?_, startsLine_inValue _ hrest p'⟩
    simpa [text, tokens] using hleads

end Value

/-- A line with a key, which is a plain text that is short enough and does not start with a dash. -/
structure Line where
  key : List Char
  value : Value
  isPlain : IsPlain key
  ne_dash : key.head? ≠ some '-'
  length_le : key.length ≤ maxKeyLength

namespace Line

/-- How a line is written. -/
def text (line : Line) : List Char :=
  line.key ++ ':' :: ' ' :: (line.value.text ++ ['\n'])

/-- The tokens of a line. -/
def tokens (line : Line) : List Token :=
  .key :: .scalar .plain (String.ofList line.key) :: .value :: line.value.tokens

/-- The key and the value of a line. -/
def pair (line : Line) : Node × Node :=
  (.scalar none .plain (String.ofList line.key), line.value.node)

/-- A line starts with a solid character, and so do lines if there are any. -/
theorem isSolid_of_mem_head? (lines : List Line) :
    ∀ c ∈ (lines.flatMap text).head?, isSolid c = true := by
  cases lines with
  | nil => nofun
  | cons line lines =>
    obtain ⟨c, cs, hkey, hc⟩ := line.isPlain.exists_cons
    simpa [text, hkey] using hc

/-- The characters of a line are allowed in a text. -/
theorem all_isAllowed (line : Line) : line.text.all isAllowed = true := by
  simp [text, all_isAllowed_of_isWord line.isPlain.isWord, line.value.all_isAllowed, isAllowed]

/-- A line is read up to the next one. The first line opens the block. -/
theorem leads (line : Line) {s : Scan} {opened : Bool} {ts : List Token} {rest : List Char}
    (hrest : ∀ c ∈ rest.head?, isSolid c = true) (h : StartsLine s opened ts (line.text ++ rest)) :
    ∃ s', Leads s s' ∧ StartsLine s' true
      (line.tokens.reverse ++ if opened then ts else .blockMapping :: ts) rest := by
  obtain ⟨c, cs, hvalue, hc⟩ := line.value.exists_cons
  have htext : line.text ++ rest = line.key ++ ':' :: ' ' :: c :: (cs ++ '\n' :: rest) := by
    simp [text, hvalue]
  rw [htext] at h
  -- A key is one only if a solid character follows it behind a space, and the value starts with
  -- such.
  obtain ⟨p, hkey⟩ := h.leads_key line.isPlain line.ne_dash line.length_le hc
  obtain ⟨s', hleads, hstarts⟩ := line.value.leads (keyTokens opened line.key ts) p hrest
  rw [hvalue] at hleads
  refine ⟨s', hkey.trans hleads, ?_⟩
  simpa [tokens, keyTokens] using hstarts

/-- Lines are read up to the end of the text, once the block is open. -/
theorem leads_all (lines : List Line) {s : Scan} {ts : List Token}
    (h : StartsLine s true ts (lines.flatMap text)) :
    ∃ s', Leads s s' ∧ StartsLine s' true ((lines.flatMap tokens).reverse ++ ts) [] := by
  -- What carries the induction is `StartsLine`: the scan stands at a new line of the open block.
  induction lines generalizing s ts with
  | nil => exact ⟨s, Leads.refl s, h⟩
  | cons line lines ih =>
    obtain ⟨s₁, hfirst, hstarts⟩ := line.leads (isSolid_of_mem_head? lines) h
    obtain ⟨s₂, hfurther, hend⟩ := ih hstarts
    refine ⟨s₂, hfirst.trans hfurther, ?_⟩
    simpa using hend

end Line

/-- No byte order mark starts with a byte of ASCII. -/
theorem decode_of_lt {b : UInt8} (hb : b.toNat < 128) (bs : Bytes) :
    decode (b :: bs) = (Bytes.text? (b :: bs)).map String.toList := by
  have hne {d : UInt8} (hd : 128 ≤ d.toNat) : b ≠ d := by
    rintro rfl
    omega
  unfold decode
  split
  · -- The three patterns are the byte order marks, and each starts with a byte above ASCII.
    next heq => exact absurd (List.cons.inj heq).1 (hne (by decide))
  · next heq => exact absurd (List.cons.inj heq).1 (hne (by decide))
  · next heq => exact absurd (List.cons.inj heq).1 (hne (by decide))
  · rfl

/-- A text that starts with a character of ASCII is read from its bytes as it is. -/
theorem source_ofText {c : Char} {cs : List Char} (hc : c.toNat < 128)
    (hallowed : (c :: cs).all isAllowed = true) :
    source (Bytes.ofText (String.ofList (c :: cs))) = .ok (c :: cs) := by
  have hbytes : Bytes.ofText (String.ofList (c :: cs)) =
      UInt8.ofNat c.toNat :: cs.flatMap String.utf8EncodeChar := by
    have hsmall : c.toNat ≤ 127 := Nat.le_of_lt_succ hc
    simp [Bytes.ofText, List.utf8Encode, String.utf8EncodeChar, hsmall]
  have hfirst : (UInt8.ofNat c.toNat).toNat < 128 := by
    simp
    omega
  have htext := Bytes.text?_ofText (String.ofList (c :: cs))
  have hdecode : decode (Bytes.ofText (String.ofList (c :: cs))) = some (c :: cs) := by
    rw [hbytes] at htext ⊢
    rw [decode_of_lt hfirst, htext, Option.map_some, String.toList_ofList]
  have hfind : (c :: cs).find? (!isAllowed ·) = none := by
    simpa [List.find?_eq_none] using hallowed
  simp only [source, hdecode, hfind]

/-- The bytes of lines are read as their text. -/
theorem source_lines (line : Line) (lines : List Line) :
    source (Bytes.ofText (String.ofList ((line :: lines).flatMap Line.text))) =
      .ok ((line :: lines).flatMap Line.text) := by
  have hallowed : ((line :: lines).flatMap Line.text).all isAllowed = true := by
    rw [List.all_flatMap, List.all_eq_true]
    exact fun line _ => line.all_isAllowed
  obtain ⟨c, cs, hkey, -⟩ := line.isPlain.exists_cons
  have hrange := toNat_of_isWord (line.isPlain.isWord c (by rw [hkey]; exact List.mem_cons_self))
  obtain ⟨rest, hrest⟩ : ∃ rest, (line :: lines).flatMap Line.text = c :: rest := by
    rw [List.flatMap_cons, Line.text, hkey]
    exact ⟨_, rfl⟩
  rw [hrest] at hallowed ⊢
  exact source_ofText (by omega) hallowed

/-- The tokens of lines are those of a block that ends with the text. -/
theorem tokens_lines (line : Line) (lines : List Line) :
    tokens ((line :: lines).flatMap Line.text) =
      (.blockMapping :: ((line :: lines).flatMap Line.tokens ++ [.blockEnd, .streamEnd]),
        none) := by
  have hstart : StartsLine (atLine false [] ⟨(line :: lines).flatMap Line.text, {}⟩) false []
      (line.text ++ lines.flatMap Line.text) :=
    startsLine_atLine [] (Line.isSolid_of_mem_head? (line :: lines)) rfl
  obtain ⟨s₁, hfirst, hstarts⟩ := line.leads (Line.isSolid_of_mem_head? lines) hstart
  obtain ⟨s₂, hfurther, hend⟩ := Line.leads_all lines hstarts
  -- The scan has a round for each character and one more, which is enough to get here with one
  -- left.
  obtain ⟨rounds, hrounds, heq⟩ := (hfirst.trans hfurther) _ (Nat.lt_succ_self _)
  obtain ⟨s₃, hall, htokens⟩ := hend.all_end hrounds
  have hscan : Scan.all (((line :: lines).flatMap Line.text).length + 1)
      { cursor := { rest := (line :: lines).flatMap Line.text } } = (s₃, none) :=
    heq.trans hall
  rw [tokens, hscan]
  simp [htokens]

/-! ## Nodes -/

/-- The reader with some tokens left. -/
def Reader.left (r : Reader) (ts : List Token) : Reader :=
  { r with tokens := ts }

/-- The first token that is left is the next one. -/
@[simp]
theorem Reader.peek_left (r : Reader) (t : Token) (ts : List Token) :
    (r.left (t :: ts)).peek = .ok t :=
  rfl

/-- Passing over a token leaves those behind it. -/
@[simp]
theorem Reader.skip_left (r : Reader) (t : Token) (ts : List Token) :
    (r.left (t :: ts)).skip = r.left ts :=
  rfl

namespace Node

variable (r : Reader)

/-- A scalar is read as one. -/
theorem read_scalar (rounds : Nat) (block indentless : Bool) (style : Style) (text : String)
    (ts : List Token) :
    read (rounds + 1) block indentless (r.left (.scalar style text :: ts)) =
      .ok (.scalar none style text, r.left ts) := by
  rw [read]
  rfl

/-- A scalar between brackets is read as an item. -/
theorem readFlowSequence_scalar {first : Bool} {style : Style} {text : String} {ts ts' : List Token}
    (hitem : flowItem .flowSequenceEnd first (r.left ts) =
      .ok (.scalar style text, r.left (.scalar style text :: ts')))
    (rounds : Nat) (done : List Node) :
    readFlowSequence (rounds + 2) first done (r.left ts) =
      readFlowSequence (rounds + 1) false (.scalar none style text :: done) (r.left ts') := by
  rw [readFlowSequence]
  simp only [hitem, bind, Except.bind, read_scalar]

/-- Further items between brackets are read up to the closing one. -/
theorem readFlowSequence_further (items : List (List Char)) {rounds : Nat}
    (hrounds : items.length < rounds) (done : List Node) (ts : List Token) :
    readFlowSequence (rounds + 1) false done
        (r.left (furtherTokens items ++ .flowSequenceEnd :: ts)) =
      .ok (.sequence (done.reverse ++ plainItems items), r.left ts) := by
  -- Each item takes a round, and the items that are done are kept in reverse.
  induction items generalizing rounds done with
  | nil =>
    rw [readFlowSequence]
    exact congrArg (fun items => Except.ok (Node.sequence items, _)) (List.append_nil _).symm
  | cons cs items ih =>
    rw [List.length_cons] at hrounds
    obtain ⟨rounds, rfl⟩ : ∃ n, rounds = n + 1 := ⟨rounds - 1, by omega⟩
    have hcomma : flowItem .flowSequenceEnd false
        (r.left (furtherTokens (cs :: items) ++ .flowSequenceEnd :: ts)) =
          .ok (.scalar .plain (String.ofList cs), r.left
            (.scalar .plain (String.ofList cs) ::
              (furtherTokens items ++ .flowSequenceEnd :: ts))) :=
      rfl
    rw [readFlowSequence_scalar r hcomma, ih (by omega)]
    simp [plainItems]

/-- Items between brackets are read up to the closing one. -/
theorem readFlowSequence_items (items : List (List Char)) {rounds : Nat}
    (hrounds : items.length < rounds) (ts : List Token) :
    readFlowSequence (rounds + 1) true [] (r.left (itemsTokens items ++ .flowSequenceEnd :: ts)) =
      .ok (.sequence (plainItems items), r.left ts) := by
  cases items with
  | nil =>
    rw [readFlowSequence]
    rfl
  | cons cs items =>
    rw [List.length_cons] at hrounds
    -- The first item has no comma before it, which is why it is read apart from the others.
    obtain ⟨rounds, rfl⟩ : ∃ n, rounds = n + 1 := ⟨rounds - 1, by omega⟩
    have hfirst : flowItem .flowSequenceEnd true
        (r.left (itemsTokens (cs :: items) ++ .flowSequenceEnd :: ts)) =
          .ok (.scalar .plain (String.ofList cs), r.left
            (.scalar .plain (String.ofList cs) ::
              (furtherTokens items ++ .flowSequenceEnd :: ts))) :=
      rfl
    rw [readFlowSequence_scalar r hfirst, readFlowSequence_further r items (by omega)]
    simp [plainItems]

/-- Each item has a token at least. -/
theorem length_le_itemsTokens (items : List (List Char)) :
    items.length ≤ (itemsTokens items).length := by
  have hfurther (items : List (List Char)) : items.length ≤ (furtherTokens items).length := by
    induction items with
    | nil => exact Nat.le_refl 0
    | cons cs items ih =>
      simp only [furtherTokens, List.flatMap_cons, List.length_append, List.length_cons] at ih ⊢
      omega
  cases items with
  | nil => exact Nat.le_refl 0
  | cons cs items => exact Nat.succ_le_succ (hfurther items)

/-- A value is read as a part of the document, in as many rounds as it has tokens and one. -/
theorem read_value (v : Value) {rounds : Nat} (hrounds : v.tokens.length ≤ rounds)
    (block indentless : Bool) (ts : List Token) :
    read (rounds + 1) block indentless (r.left (v.tokens ++ ts)) = .ok (v.node, r.left ts) := by
  cases v with
  | plain cs _ => exact read_scalar r rounds block indentless .plain (String.ofList cs) ts
  | quoted cs _ => exact read_scalar r rounds block indentless .quoted (String.ofList cs) ts
  | sequence items _ =>
    have hlength := length_le_itemsTokens items
    simp only [Value.tokens, List.length_cons, List.length_append] at hrounds
    obtain ⟨rounds, rfl⟩ : ∃ n, rounds = n + 1 := ⟨rounds - 1, by omega⟩
    have hitems := readFlowSequence_items r items (by omega : items.length < rounds) ts
    have htokens : Value.tokens (.sequence items ‹_›) ++ ts =
        .flowSequence :: (itemsTokens items ++ .flowSequenceEnd :: ts) := by
      simp [Value.tokens]
    rw [htokens, read]
    change (readFlowSequence (rounds + 1) true []
      (r.left (itemsTokens items ++ .flowSequenceEnd :: ts)) >>= _) = _
    rw [hitems]
    rfl

/-- A value behind its indicator is read. -/
theorem readBlockPart_value (v : Value) {rounds : Nat} (hrounds : v.tokens.length ≤ rounds)
    (ts : List Token) :
    readBlockPart (rounds + 2) (r.left (v.tokens ++ ts)) = .ok (v.node, r.left ts) := by
  have hread := read_value r v hrounds true true ts
  rw [readBlockPart, hread]
  cases v <;> rfl

/-- Lines are read as the pairs of a mapping, in as many rounds as they have tokens and one. -/
theorem readMapping_lines (lines : List Line) {rounds : Nat}
    (hrounds : (lines.flatMap Line.tokens).length ≤ rounds) (done : List (Node × Node))
    (ts : List Token) :
    readMapping (rounds + 1) done (r.left (lines.flatMap Line.tokens ++ .blockEnd :: ts)) =
      .ok (.mapping (done.reverse ++ lines.map Line.pair), r.left ts) := by
  induction lines generalizing rounds done with
  | nil =>
    rw [readMapping]
    exact congrArg (fun pairs => Except.ok (Node.mapping pairs, _)) (List.append_nil _).symm
  | cons line lines ih =>
    simp only [List.flatMap_cons, List.length_append, Line.tokens, List.length_cons] at hrounds
    -- A line has three tokens besides those of its value, so the key and the value have their
    -- rounds.
    obtain ⟨rounds, rfl⟩ : ∃ n, rounds = n + 3 := ⟨rounds - 3, by omega⟩
    generalize hmore : lines.flatMap Line.tokens ++ .blockEnd :: ts = more
    have htokens : (line :: lines).flatMap Line.tokens ++ .blockEnd :: ts =
        .key :: ((Value.plain line.key line.isPlain).tokens ++
          .value :: (line.value.tokens ++ more)) := by
      rw [← hmore]
      simp [Line.tokens, Value.tokens]
    have hkey := readBlockPart_value r (.plain line.key line.isPlain)
      (Nat.succ_le_succ (Nat.zero_le rounds)) (.value :: (line.value.tokens ++ more))
    have hvalue := readBlockPart_value r line.value (by omega : _ ≤ rounds + 1) more
    have hlines := ih (by omega : _ ≤ rounds + 2) (line.pair :: done)
    rw [htokens, readMapping]
    simp only [Reader.peek_left, Reader.skip_left, bind, Except.bind, hkey, hvalue]
    rw [← hmore]
    exact hlines.trans (by simp)

/-- A block of lines is read as a mapping. -/
theorem read_lines (lines : List Line) {rounds : Nat}
    (hrounds : (lines.flatMap Line.tokens).length ≤ rounds) (ts : List Token) :
    read (rounds + 2) true false
        (r.left (.blockMapping :: (lines.flatMap Line.tokens ++ .blockEnd :: ts))) =
      .ok (.mapping (lines.map Line.pair), r.left ts) := by
  have hmapping := readMapping_lines r lines hrounds [] ts
  rw [read]
  change (readMapping (rounds + 1) []
    (r.left (lines.flatMap Line.tokens ++ .blockEnd :: ts)) >>= _) = _
  rw [hmapping]
  rfl

/-- Lines are read as the mapping that they stand for. -/
theorem ofText_lines (line : Line) (lines : List Line) :
    ofText ((line :: lines).flatMap Line.text) =
      .ok (.mapping ((line :: lines).map Line.pair)) := by
  rw [ofText, tokens_lines]
  generalize line :: lines = all
  have hread := read_lines ⟨[], [], commonHandles, .noDocument⟩ all
    (by omega : (all.flatMap Line.tokens).length ≤ 2 * (all.flatMap Line.tokens).length + 6)
    [.streamEnd]
  -- The reader is given twice as many rounds as there are tokens and two, more than it needs.
  have hlength : 2 * (Token.blockMapping ::
      (all.flatMap Line.tokens ++ [.blockEnd, .streamEnd])).length + 2 =
        2 * (all.flatMap Line.tokens).length + 6 + 2 := by
    simp only [List.length_cons, List.length_append, List.length_nil]
    omega
  simp only [ofTokens, Reader.peek, Option.getD_none, hlength, bind, Except.bind]
  simp only [Reader.left] at hread
  rw [if_neg (by decide), if_neg (by decide), hread]

end Node

end StackMachine.Yaml
