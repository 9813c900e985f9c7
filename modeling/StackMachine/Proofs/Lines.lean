import StackMachine.Proofs.Scanning

/-!
# Lines of a block

The outermost block of a written text has one key a line, with a plain text, a text between double
quotes or numbers between brackets as its value. `Scan.StartsLine` says that the scanner is at the
start of such a line. It reads the key up to the colon (`StartsLine.leads_key`), and from there each
kind of value up to the start of the next line.
-/

namespace StackMachine.Yaml.Scan

/-! ## Keys -/

/-- A text that can be written plainly: it is made of the characters of names and is no single
dash. -/
structure IsPlain (cs : List Char) : Prop where
  isWord : ∀ c ∈ cs, isWord c = true
  ne_nil : cs ≠ []
  ne_dash : cs ≠ ['-']

/-- A plain text starts with a solid character. -/
theorem IsPlain.exists_cons {cs : List Char} (h : IsPlain cs) :
    ∃ c cs', cs = c :: cs' ∧ isSolid c = true := by
  cases cs with
  | nil => exact absurd rfl h.ne_nil
  | cons c cs => exact ⟨c, cs, rfl, isSolid_of_isWord (h.isWord c List.mem_cons_self)⟩

/-- A plain text that does not stand at the start of a line, or does not start with a dash, is read
as a plain scalar. -/
theorem tokenAt_plain {s : Scan} {cs : List Char} (h : IsPlain cs)
    (hcolumn : s.column ≠ 0 ∨ cs.head? ≠ some '-') (rounds : Nat) (rest : List Char) :
    s.tokenAt rounds (cs ++ rest) = s.plain := by
  obtain ⟨hword, hnil, hdash⟩ := h
  cases cs with
  | nil => exact absurd rfl hnil
  | cons c cs =>
    have hc : Yaml.isWord c = true := hword c List.mem_cons_self
    have hne {d : Char} (hd : Yaml.isWord d = false) : (c == d) = false :=
      beq_false_of_ne (ne_of_isWord hc hd)
    -- A dash is an entry of a block only before a gap, and here a character of the text follows it.
    have hgap : (c == '-' && atGap (cs ++ rest)) = false := by
      by_cases hcdash : c = '-'
      · cases cs with
        | nil => exact absurd (by rw [hcdash]) hdash
        | cons d ds =>
          have hd : Yaml.isWord d = true := hword d (by simp)
          simp [atGap, isBlank_of_isWord hd, isBreak_of_isWord hd]
      · simp [hcdash]
    -- Three dashes would end the document, but only in the first column.
    have hmark : startsMark '-' s.column (c :: (cs ++ rest)) = false := by
      rcases hcolumn with hcolumn | hhead
      · simp [startsMark, hcolumn]
      · have hcdash : c ≠ '-' := by simpa using hhead
        simp [startsMark, Ne.symm hcdash]
    have hdots : startsMark '.' s.column (c :: (cs ++ rest)) = false := by
      have hcdot : c ≠ '.' := ne_of_isWord hc (by decide)
      simp [startsMark, Ne.symm hcdot]
    have hplain : startsPlain s.inFlow (c :: (cs ++ rest)) = true := by
      by_cases hcdash : c = '-'
      · rw [hcdash, beq_self_eq_true, Bool.true_and] at hgap
        have hblank : (cs ++ rest).head?.any isBlank = false := by
          cases hrest : cs ++ rest with
          | nil => rfl
          | cons d ds =>
            rw [hrest, atGap, Bool.or_eq_false_iff] at hgap
            exact hgap.1
        simp only [startsPlain, hcdash, beq_self_eq_true, hblank, Bool.not_false, Bool.and_self,
          Bool.or_true, Bool.true_or]
      · -- A check along the list: a statement on every character can be decided by trying them all.
        have hindicators : ("-?:,[]\x7b\x7d#&*!|>'\"%@`".toList.all fun d =>
            d == '-' || !Yaml.isWord d) = true := by decide
        have hfree : "-?:,[]\x7b\x7d#&*!|>'\"%@`".toList.contains c = false := by
          rw [Bool.eq_false_iff, Ne, List.contains_iff_mem]
          intro hmem
          have hindicator := List.all_eq_true.1 hindicators c hmem
          rw [hc, Bool.not_true, Bool.or_false, beq_iff_eq] at hindicator
          exact hcdash hindicator
        simp only [startsPlain, isBlank_of_isWord hc, isBreak_of_isWord hc, hfree]
        rfl
    rw [List.cons_append, tokenAt]
    simp only [hmark, hdots, hgap, hplain, hne (by decide : Yaml.isWord '%' = false),
      hne (by decide : Yaml.isWord '[' = false), hne (by decide : Yaml.isWord ']' = false),
      hne (by decide : Yaml.isWord '\x7b' = false), hne (by decide : Yaml.isWord '\x7d' = false),
      hne (by decide : Yaml.isWord ',' = false), hne (by decide : Yaml.isWord '?' = false),
      hne (by decide : Yaml.isWord ':' = false), hne (by decide : Yaml.isWord '*' = false),
      hne (by decide : Yaml.isWord '&' = false), hne (by decide : Yaml.isWord '!' = false),
      hne (by decide : Yaml.isWord '|' = false), hne (by decide : Yaml.isWord '>' = false),
      hne (by decide : Yaml.isWord '\'' = false), hne (by decide : Yaml.isWord '"' = false),
      Bool.false_and, Bool.and_false, if_neg Bool.false_ne_true, if_pos]

/-- The state at the start of a line of the outermost block, or of the line that opens it. -/
def atLine (opened : Bool) (ts : List Token) (cursor : Cursor) : Scan where
  cursor := cursor
  tokens := ts
  count := ts.length
  indent := if opened then 0 else -1
  indents := if opened then [-1] else []

/-- The state behind the colon of a key of the outermost block. -/
def inValue (ts : List Token) (cursor : Cursor) : Scan where
  cursor := cursor
  tokens := ts
  count := ts.length
  indent := 0
  indents := [-1]
  keyAllowed := false

/-- The tokens of a block's line up to the colon of its key, and of the block's start where the line
opens it, the last one first. -/
def keyTokens (opened : Bool) (key : List Char) (ts : List Token) : List Token :=
  .value :: .scalar .plain (String.ofList key) :: .key :: if opened then ts else .blockMapping :: ts

/-- Reading is about to go on at the start of a line, with breaks to pass over or not. -/
structure StartsLine (s : Scan) (opened : Bool) (ts : List Token) (rest : List Char) : Prop where
  length_le : rest.length ≤ s.cursor.rest.length
  skipGap : ∃ p : Position, p.column = 0 ∧ ∀ rounds, s.cursor.rest.length ≤ rounds →
    s.skipGap (rounds + 1) = atLine opened ts ⟨rest, p⟩

/-- The state behind a key, before its colon is found. -/
def behindKey (opened : Bool) (key : List Char) (ts : List Token) (p : Position)
    (rest : List Char) : Scan :=
  { atLine opened (.scalar .plain (String.ofList key) :: ts) ⟨rest, p.skip key.length⟩ with
    keyAllowed := false
    pending := some { before := ts.length, required := opened, position := p } }

/-- A key is read as a scalar that may be one. -/
theorem StartsLine.next_key {s : Scan} {opened : Bool} {ts : List Token} {key rest : List Char}
    (hkey : IsPlain key) (hdash : key.head? ≠ some '-')
    (h : StartsLine s opened ts (key ++ ':' :: ' ' :: rest)) :
    ∃ p : Position, p.column = 0 ∧ ∀ rounds, s.cursor.rest.length ≤ rounds →
      s.next (rounds + 1) = .ok (behindKey opened key ts p (':' :: ' ' :: rest)) := by
  obtain ⟨p, hp, hgap⟩ := h.skipGap
  refine ⟨p, hp, fun rounds hrounds => ?_⟩
  generalize hline : atLine opened ts ⟨key ++ ':' :: ' ' :: rest, p⟩ = line at hgap
  have hindent : line.indent ≤ line.column := by
    subst hline
    cases opened <;> simp [atLine]
  -- The scalar may be a key, so the place of its token is remembered; in an open block it has to be
  -- one.
  have hsave : line.saveKey = .ok { line with pending := some ⟨ts.length, opened, p⟩ } := by
    rw [saveKey_of_allowed (by rw [← hline]; rfl) (by rw [← hline]; rfl), ← hline]
    cases opened <;> simp [atLine, inFlow, column, hp]
  have hread : readPlain line.inFlow (line.indent + 1).toNat p [] .none
      (key ++ ':' :: ' ' :: rest) = .ok ⟨key, ⟨':' :: ' ' :: rest, p.skip key.length⟩, false⟩ := by
    -- A colon ends a plain text only before a gap.
    have hstop (flow : Bool) : endsWord flow (':' :: ' ' :: rest) = true := by
      simp [endsWord, atGap, isBlank]
    rw [readPlain_append hkey.isWord, readPlain_word (by decide), hstop, if_pos rfl,
      List.append_nil, List.reverse_reverse]
  have hcomment : ((':' :: ' ' :: rest).dropWhile isBlank).head? ≠ some '#' := by
    simp [isBlank]
  have hplain : line.plain = .ok (behindKey opened key ts p (':' :: ' ' :: rest)) := by
    subst hline
    exact plain_of_readPlain hsave hread hcomment
  have hrest : line.cursor.rest = key ++ ':' :: ' ' :: rest := by rw [← hline]; rfl
  rw [next_of_skipGap (hgap rounds hrounds) hindent, hrest, tokenAt_plain hkey (.inr hdash), hplain]

/-- A colon that is near enough to where a key may have started makes it one. -/
theorem value_of_isOpen {s : Scan} {key : PendingKey} (hpending : s.pending = some key)
    (hopen : key.isOpen s.cursor.position = true) : s.value = s.valueOfKey key := by
  rw [value, hpending]
  exact if_pos hopen

/-- A token is added behind the first ones. -/
theorem insert_append {s : Scan} (front : List Token) {ts : List Token}
    (htokens : s.tokens = front ++ ts) (hcount : s.count = ts.length + front.length) (t : Token) :
    s.insert ts.length t = { s with tokens := front ++ t :: ts, count := s.count + 1 } := by
  -- Tokens are kept last first, so that what is inserted at the count of `ts` goes right before it.
  have hfront : s.count - ts.length = front.length := by omega
  rw [insert, hfront, htokens, List.take_left, List.drop_left]

/-- Where the outermost block is open, it is not opened again. -/
theorem openBlock_of_open {s : Scan} (hindent : s.indent = 0) (before : Nat) (t : Token) :
    s.openBlock 0 before t = .ok s := by
  simp [openBlock, hindent]

/-- The outermost block is opened. -/
theorem openBlock_outermost {s : Scan} (hflow : s.outer = []) (hindent : s.indent = -1)
    (hindents : s.indents = []) (before : Nat) (t : Token) :
    s.openBlock 0 before t = .ok { s.insert before t with indent := 0, indents := [-1] } := by
  simp [openBlock, inFlow, hflow, hindent, hindents, maxNesting]

/-- The token of a key goes in front of its scalar, and in the line that opens the block the token
of the block goes in front of both. -/
theorem valueOfKey_behindKey {opened : Bool} {key : List Char} {p : Position} (hp : p.column = 0)
    (ts : List Token) (cs : List Char) :
    (behindKey opened key ts p (':' :: cs)).valueOfKey ⟨ts.length, opened, p⟩ =
      .ok (inValue (keyTokens opened key ts) ⟨cs, p.skip (key.length + 1)⟩) := by
  rw [valueOfKey, hp, insert_append [.scalar .plain (String.ofList key)] rfl rfl]
  cases opened with
  | true =>
    rw [openBlock_of_open rfl]
    rfl
  | false =>
    rw [openBlock_outermost rfl rfl rfl,
      insert_append [.scalar .plain (String.ofList key), .key] rfl rfl]
    rfl

/-- A colon behind a key makes it one. -/
theorem next_colon {opened : Bool} {key : List Char} (hkey : key.length ≤ maxKeyLength)
    {ts : List Token} {p : Position} (hp : p.column = 0) {c : Char} (hc : isSolid c = true)
    (cs : List Char) (rounds : Nat) :
    (behindKey opened key ts p (':' :: ' ' :: c :: cs)).next (rounds + 1) =
      .ok (inValue (keyTokens opened key ts) ⟨' ' :: c :: cs, p.skip (key.length + 1)⟩) := by
  generalize hs : behindKey opened key ts p (':' :: ' ' :: c :: cs) = s
  have hgap : s.skipGap (rounds + 1) = s :=
    skipGap_spaces 0 (by decide : isSolid ':' = true) (by rw [← hs]; rfl) rounds
  have hindent : s.indent ≤ s.column := by
    rw [← hs]
    cases opened <;> simp [behindKey, atLine]
  have hvalue : s.value =
      .ok (inValue (keyTokens opened key ts) ⟨' ' :: c :: cs, p.skip (key.length + 1)⟩) := by
    -- The colon is on the line of the key and no further from its start than a key may be long.
    have hopen : PendingKey.isOpen ⟨ts.length, opened, p⟩ (p.skip key.length) = true := by
      simp [PendingKey.isOpen, Position.skip]
      omega
    rw [value_of_isOpen (by rw [← hs]; rfl) (by rw [← hs]; exact hopen), ← hs]
    exact valueOfKey_behindKey hp ts (' ' :: c :: cs)
  have htoken : s.tokenAt (rounds + 1) s.cursor.rest = thenComment s.value := by
    rw [← hs]
    simp [behindKey, atLine, tokenAt, startsMark, atGap, isBlank]
  have hcomment : ((' ' :: c :: cs).dropWhile isBlank).head? ≠ some '#' := by
    rw [List.dropWhile_cons_of_pos (by decide)]
    exact head?_dropWhile_of_isSolid (by simpa using hc)
  rw [next_of_skipGap hgap hindent, htoken, hvalue]
  exact congrArg Except.ok (skipLineComment_eq hcomment)

/-- The key of a line is read up to its colon. -/
theorem StartsLine.leads_key {s : Scan} {opened : Bool} {ts : List Token} {key : List Char}
    {c : Char} {cs : List Char} (hkey : IsPlain key) (hdash : key.head? ≠ some '-')
    (hlength : key.length ≤ maxKeyLength) (hc : isSolid c = true)
    (h : StartsLine s opened ts (key ++ ':' :: ' ' :: c :: cs)) :
    ∃ p : Position, Leads s (inValue (keyTokens opened key ts) ⟨' ' :: c :: cs, p⟩) := by
  obtain ⟨p, hp, hnext⟩ := h.next_key hkey hdash
  have hlength_le := h.length_le
  have hbehind : Leads s (behindKey opened key ts p (':' :: ' ' :: c :: cs)) := by
    apply Leads.of_next hnext
    · -- The key is not empty, so that less of the text is left than before.
      have hkeylength := List.length_pos_iff.2 hkey.ne_nil
      simp only [List.length_append, List.length_cons] at hlength_le
      simp only [behindKey, atLine, List.length_cons]
      omega
    · simp [behindKey, atLine]
  have hcolon : Leads (behindKey opened key ts p (':' :: ' ' :: c :: cs))
      (inValue (keyTokens opened key ts) ⟨' ' :: c :: cs, p.skip (key.length + 1)⟩) := by
    apply Leads.of_next
    · exact fun rounds _ => next_colon hlength hp hc cs rounds
    · simp [behindKey, atLine, inValue]
    · simp [inValue, keyTokens]
  exact ⟨p.skip (key.length + 1), hbehind.trans hcolon⟩

/-! ## Values -/

/-- A line starts where a solid character stands in the first column, and where the text ends. -/
theorem startsLine_atLine {opened : Bool} (ts : List Token) {rest : List Char}
    (hrest : ∀ c ∈ rest.head?, isSolid c = true) {p : Position} (hp : p.column = 0) :
    StartsLine (atLine opened ts ⟨rest, p⟩) opened ts rest :=
  ⟨Nat.le_refl _, p, hp, fun rounds _ => skipGap_of_isSolid hrest rounds⟩

/-- A line starts behind a line feed that follows a value. -/
theorem startsLine_inValue (ts : List Token) {rest : List Char}
    (hrest : ∀ c ∈ rest.head?, isSolid c = true) (p : Position) :
    StartsLine (inValue ts ⟨'\n' :: rest, p⟩) true ts rest := by
  refine ⟨Nat.le_succ _, p.newLine 1, rfl, fun rounds hrounds => ?_⟩
  obtain ⟨rounds, rfl⟩ : ∃ n, rounds = n + 1 := by
    cases rounds with
    | zero => nomatch hrounds
    | succ n => exact ⟨n, rfl⟩
  rw [skipGap_newLine rfl rfl]
  exact skipGap_of_isSolid hrest rounds

/-- A plain text is read up to the next line. -/
theorem leads_plain {cs : List Char} (hcs : IsPlain cs) (ts : List Token) (p : Position)
    {rest : List Char} (hrest : ∀ c ∈ rest.head?, isSolid c = true) :
    ∃ s, Leads (inValue ts ⟨' ' :: (cs ++ '\n' :: rest), p⟩) s ∧
      StartsLine s true (.scalar .plain (String.ofList cs) :: ts) rest := by
  -- The scan of a plain text goes over the line feed to see whether the text continues, so it ends
  -- at the start of the next line.
  generalize hstop : ((p.skip 1).skip cs.length).newLine 1 = stop
  refine ⟨atLine true (.scalar .plain (String.ofList cs) :: ts) ⟨rest, stop⟩, ?_,
    startsLine_atLine _ hrest (by rw [← hstop]; rfl)⟩
  have hnext (rounds : Nat) : (inValue ts ⟨' ' :: (cs ++ '\n' :: rest), p⟩).next (rounds + 1) =
      .ok (atLine true (.scalar .plain (String.ofList cs) :: ts) ⟨rest, stop⟩) := by
    have hgap : (inValue ts ⟨' ' :: (cs ++ '\n' :: rest), p⟩).skipGap (rounds + 1) =
        inValue ts ⟨cs ++ '\n' :: rest, p.skip 1⟩ := by
      obtain ⟨d, ds, rfl, hd⟩ := hcs.exists_cons
      exact skipGap_spaces 1 hd rfl rounds
    -- Behind a key and a space a text may start with a dash.
    have hcolumn : (inValue ts ⟨cs ++ '\n' :: rest, p.skip 1⟩).column ≠ 0 :=
      Nat.succ_ne_zero p.column
    have hread : readPlain false 1 (p.skip 1) [] .none (cs ++ '\n' :: rest) =
        .ok ⟨cs, ⟨rest, stop⟩, true⟩ := by
      rw [readPlain_append hcs.isWord, readPlain_newLine (by decide) hrest, List.append_nil,
        List.reverse_reverse, hstop]
    have hplain := plain_of_readPlain (s := inValue ts ⟨cs ++ '\n' :: rest, p.skip 1⟩)
      (saveKey_of_forbidden rfl) hread (head?_dropWhile_of_isSolid hrest)
    rw [next_of_skipGap hgap (Int.natCast_nonneg _)]
    exact (tokenAt_plain hcs (.inl hcolumn) _ _).trans hplain
  apply Leads.of_next
  · exact fun rounds _ => hnext rounds
  · simp [inValue, atLine]
    omega
  · simp [atLine]

/-- A text between double quotes is read up to the second one. -/
theorem leads_quoted {cs : List Char} (hcs : ∀ c ∈ cs, isWord c = true) (ts : List Token)
    (p : Position) (rest : List Char) :
    ∃ p' : Position, Leads (inValue ts ⟨' ' :: '"' :: (cs ++ '"' :: '\n' :: rest), p⟩)
      (inValue (.scalar .quoted (String.ofList cs) :: ts) ⟨'\n' :: rest, p'⟩) := by
  generalize hstop : (p.skip 2).skip (cs.length + 1) = stop
  refine ⟨stop, ?_⟩
  have hnext (rounds : Nat) (hrounds : cs.length ≤ rounds) :
      (inValue ts ⟨' ' :: '"' :: (cs ++ '"' :: '\n' :: rest), p⟩).next (rounds + 1) =
        .ok (inValue (.scalar .quoted (String.ofList cs) :: ts) ⟨'\n' :: rest, stop⟩) := by
    have hgap : (inValue ts ⟨' ' :: '"' :: (cs ++ '"' :: '\n' :: rest), p⟩).skipGap (rounds + 1) =
        inValue ts ⟨'"' :: (cs ++ '"' :: '\n' :: rest), p.skip 1⟩ :=
      skipGap_spaces 1 (by decide : isSolid '"' = true) rfl rounds
    generalize hs : inValue ts ⟨'"' :: (cs ++ '"' :: '\n' :: rest), p.skip 1⟩ = s at hgap
    have hread : readQuoted false (rounds + 1) (s.cursor.skip 1) [] .none =
        .ok ⟨cs, ⟨'\n' :: rest, stop⟩, false⟩ := by
      have hcolumn : (p.skip 2).column ≠ 0 := Nat.succ_ne_zero (p.column + 1)
      rw [← hs, ← hstop]
      exact readQuoted_append hcs (Nat.lt_succ_of_le hrounds) hcolumn [] ('\n' :: rest)
    have hquoted : s.quoted (rounds + 1) false =
        .ok (inValue (.scalar .quoted (String.ofList cs) :: ts) ⟨'\n' :: rest, stop⟩) := by
      rw [quoted, saveKey_of_forbidden (by rw [← hs]; rfl)]
      simp only [Bind.bind, Except.bind, hread]
      rw [← hs]
      rfl
    have htoken : s.tokenAt (rounds + 1) s.cursor.rest =
        thenComment (s.quoted (rounds + 1) false) := by
      rw [← hs]
      simp [inValue, tokenAt, startsMark]
    rw [next_of_skipGap hgap (by rw [← hs]; exact Int.natCast_nonneg _), htoken, hquoted]
    exact congrArg Except.ok (skipLineComment_eq (by simp [inValue, isBlank]))
  apply Leads.of_next
  · intro rounds hrounds
    apply hnext
    simp [inValue] at hrounds
    omega
  · simp [inValue]
    omega
  · simp [inValue]

/-! ## Brackets -/

/-- The state between the brackets of a value. -/
def inBrackets (keyAllowed : Bool) (pending : Option PendingKey) (ts : List Token)
    (cursor : Cursor) : Scan :=
  { inValue ts cursor with keyAllowed, pending, outer := [none] }

/-- Between brackets no key has to be there. -/
theorem dropKey_inBrackets {keyAllowed : Bool} {pending : Option PendingKey}
    (hpending : ∀ key ∈ pending, key.required = false) (ts : List Token) (cursor : Cursor) :
    (inBrackets keyAllowed pending ts cursor).dropKey =
      .ok (inBrackets keyAllowed none ts cursor) := by
  -- A plain item may have been a key; between brackets that is never required, so it is dropped.
  cases pending with
  | none => rfl
  | some key =>
    rw [dropKey]
    exact if_neg (by rw [hpending key rfl]; decide)

/-- An opening bracket is read. -/
theorem leads_open (ts : List Token) (p : Position) {c : Char} (hc : isSolid c = true)
    (cs : List Char) :
    Leads (inValue ts ⟨' ' :: '[' :: c :: cs, p⟩)
      (inBrackets true none (.flowSequence :: ts) ⟨c :: cs, p.skip 2⟩) := by
  have hgap (rounds : Nat) : (inValue ts ⟨' ' :: '[' :: c :: cs, p⟩).skipGap (rounds + 1) =
      inValue ts ⟨'[' :: c :: cs, p.skip 1⟩ :=
    skipGap_spaces 1 (by decide : isSolid '[' = true) rfl rounds
  have hopen : (inValue ts ⟨'[' :: c :: cs, p.skip 1⟩).openFlow .flowSequence =
      .ok (inBrackets true none (.flowSequence :: ts) ⟨c :: cs, p.skip 2⟩) := by
    rw [openFlow, saveKey_of_forbidden rfl]
    rfl
  apply Leads.of_next
  · intro rounds _
    rw [next_of_skipGap (hgap rounds) (Int.natCast_nonneg _)]
    have htoken : (inValue ts ⟨'[' :: c :: cs, p.skip 1⟩).tokenAt (rounds + 1) ('[' :: c :: cs) =
        thenComment ((inValue ts ⟨'[' :: c :: cs, p.skip 1⟩).openFlow .flowSequence) := by
      simp [tokenAt, startsMark]
    rw [hopen] at htoken
    have hcomment : ((c :: cs).dropWhile isBlank).head? ≠ some '#' :=
      head?_dropWhile_of_isSolid (by simpa using hc)
    exact htoken.trans (congrArg Except.ok (skipLineComment_eq hcomment))
  · simp [inValue, inBrackets]
  · simp [inValue, inBrackets]

/-- A plain text between brackets is read up to the comma or the bracket behind it. -/
theorem leads_item {cs : List Char} (hcs : IsPlain cs) (ts : List Token) (n : Nat) {p : Position}
    (hp : p.column ≠ 0) {c : Char} (hc : c = ',' ∨ c = ']') (rest : List Char) :
    ∃ pending, pending.required = false ∧
      Leads (inBrackets true none ts ⟨List.replicate n ' ' ++ (cs ++ c :: rest), p⟩)
        (inBrackets false (some pending) (.scalar .plain (String.ofList cs) :: ts)
          ⟨c :: rest, (p.skip n).skip cs.length⟩) := by
  have hsolid : isSolid c = true := by
    rcases hc with rfl | rfl <;> decide
  have hstop : endsWord true (c :: rest) = true := by
    rcases hc with rfl | rfl <;> simp [endsWord, isFlowStop]
  -- The state is named, so that `simp` does not open it where only one field matters.
  generalize hs : inBrackets true none ts ⟨cs ++ c :: rest, p.skip n⟩ = s
  have hgap (rounds : Nat) : (inBrackets true none ts
      ⟨List.replicate n ' ' ++ (cs ++ c :: rest), p⟩).skipGap (rounds + 1) = s := by
    obtain ⟨d, ds, rfl, hd⟩ := hcs.exists_cons
    rw [skipGap_spaces n hd rfl rounds, ← hs]
    simp [inBrackets, inValue, Cursor.skip]
  have hread : readPlain s.inFlow (s.indent + 1).toNat s.cursor.position [] .none s.cursor.rest =
      .ok ⟨cs, ⟨c :: rest, (p.skip n).skip cs.length⟩, false⟩ := by
    rw [← hs]
    change readPlain true _ (p.skip n) [] .none (cs ++ c :: rest) = _
    rw [readPlain_append hcs.isWord, readPlain_word hsolid, hstop, if_pos rfl, List.append_nil,
      List.reverse_reverse]
  have hplain : s.plain =
      .ok (inBrackets false (some ⟨ts.length, false, p.skip n⟩)
        (.scalar .plain (String.ofList cs) :: ts) ⟨c :: rest, (p.skip n).skip cs.length⟩) := by
    rw [plain_of_readPlain (saveKey_of_allowed (by rw [← hs]; rfl) (by rw [← hs]; rfl)) hread
      (head?_dropWhile_of_isSolid (by simpa using hsolid)), ← hs]
    rfl
  have hcolumn : s.column ≠ 0 := by
    rw [← hs]
    change p.column + n ≠ 0
    omega
  refine ⟨⟨ts.length, false, p.skip n⟩, rfl, Leads.of_next ?_ ?_ ?_⟩
  · intro rounds _
    have hrest : s.cursor.rest = cs ++ c :: rest := by rw [← hs]; rfl
    rw [next_of_skipGap (hgap rounds) (by rw [← hs]; exact Int.natCast_nonneg _), hrest,
      tokenAt_plain hcs (.inl hcolumn), hplain]
  · have hlength := List.length_pos_iff.2 hcs.ne_nil
    simp [inBrackets, inValue]
    omega
  · simp [inBrackets, inValue]

/-- A comma between brackets is read. -/
theorem leads_comma {pending : Option PendingKey}
    (hpending : ∀ key ∈ pending, key.required = false) (ts : List Token) (p : Position) {c : Char}
    (hc : isSolid c = true) (cs : List Char) :
    Leads (inBrackets false pending ts ⟨',' :: ' ' :: c :: cs, p⟩)
      (inBrackets true none (.comma :: ts) ⟨' ' :: c :: cs, p.skip 1⟩) := by
  generalize hs : inBrackets false pending ts ⟨',' :: ' ' :: c :: cs, p⟩ = s
  have hcomma : s.comma = .ok (inBrackets true none (.comma :: ts) ⟨' ' :: c :: cs, p.skip 1⟩) := by
    rw [comma, ← hs, dropKey_inBrackets hpending]
    rfl
  have htoken (rounds : Nat) : s.tokenAt (rounds + 1) s.cursor.rest = thenComment s.comma := by
    rw [← hs]
    simp [inBrackets, inValue, tokenAt, startsMark]
  have hcomment : ((' ' :: c :: cs).dropWhile isBlank).head? ≠ some '#' := by
    rw [List.dropWhile_cons_of_pos (by decide)]
    exact head?_dropWhile_of_isSolid (by simpa using hc)
  apply Leads.of_next
  · intro rounds _
    have hgap : s.skipGap (rounds + 1) = s :=
      skipGap_spaces 0 (by decide : isSolid ',' = true) (by rw [← hs]; rfl) rounds
    rw [next_of_skipGap hgap (by rw [← hs]; exact Int.natCast_nonneg _), htoken, hcomma]
    exact congrArg Except.ok (skipLineComment_eq hcomment)
  · simp [← hs, inBrackets, inValue]
  · simp [inBrackets, inValue]

/-- A closing bracket is read. -/
theorem leads_close {keyAllowed : Bool} {pending : Option PendingKey}
    (hpending : ∀ key ∈ pending, key.required = false) (ts : List Token) (p : Position)
    (rest : List Char) :
    Leads (inBrackets keyAllowed pending ts ⟨']' :: '\n' :: rest, p⟩)
      (inValue (.flowSequenceEnd :: ts) ⟨'\n' :: rest, p.skip 1⟩) := by
  generalize hs : inBrackets keyAllowed pending ts ⟨']' :: '\n' :: rest, p⟩ = s
  have hclose : s.closeFlow .flowSequenceEnd =
      .ok (inValue (.flowSequenceEnd :: ts) ⟨'\n' :: rest, p.skip 1⟩) := by
    rw [closeFlow, ← hs, dropKey_inBrackets hpending]
    rfl
  have htoken (rounds : Nat) : s.tokenAt (rounds + 1) s.cursor.rest =
      thenComment (s.closeFlow .flowSequenceEnd) := by
    rw [← hs]
    simp [inBrackets, inValue, tokenAt, startsMark]
  apply Leads.of_next
  · intro rounds _
    have hgap : s.skipGap (rounds + 1) = s :=
      skipGap_spaces 0 (by decide : isSolid ']' = true) (by rw [← hs]; rfl) rounds
    rw [next_of_skipGap hgap (by rw [← hs]; exact Int.natCast_nonneg _), htoken, hclose]
    exact congrArg Except.ok (skipLineComment_eq (by simp [inValue, isBlank]))
  · simp [← hs, inBrackets, inValue]
  · simp [inValue]

/-- The text of further items between brackets. -/
def furtherText (items : List (List Char)) : List Char :=
  items.flatMap fun cs => ',' :: ' ' :: cs

/-- The tokens of further items between brackets. -/
def furtherTokens (items : List (List Char)) : List Token :=
  items.flatMap fun cs => [.comma, .scalar .plain (String.ofList cs)]

/-- An item and the further ones are read up to the end of the line. -/
theorem leads_items {items : List (List Char)} (hitems : ∀ cs ∈ items, IsPlain cs)
    {cs : List Char} (hcs : IsPlain cs) (ts : List Token) (n : Nat) {p : Position}
    (hp : p.column ≠ 0) (rest : List Char) :
    ∃ p' : Position,
      Leads (inBrackets true none ts
          ⟨List.replicate n ' ' ++ (cs ++ (furtherText items ++ ']' :: '\n' :: rest)), p⟩)
        (inValue (.flowSequenceEnd :: ((furtherTokens items).reverse ++
          .scalar .plain (String.ofList cs) :: ts)) ⟨'\n' :: rest, p'⟩) := by
  -- Behind an item stands the bracket, or a comma that leads to a state of the same form.
  induction items generalizing cs ts n p with
  | nil =>
    obtain ⟨key, hkey, hitem⟩ := leads_item hcs ts n hp (.inr rfl) ('\n' :: rest)
    exact ⟨_, hitem.trans (leads_close (by simpa using hkey) _ _ rest)⟩
  | cons ds items ih =>
    have hds : IsPlain ds := hitems ds List.mem_cons_self
    generalize hmore : ds ++ (furtherText items ++ ']' :: '\n' :: rest) = more
    have htext : furtherText (ds :: items) ++ ']' :: '\n' :: rest = ',' :: ' ' :: more := by
      rw [← hmore]
      simp [furtherText]
    have htokens : (furtherTokens (ds :: items)).reverse = (furtherTokens items).reverse ++
        [.scalar .plain (String.ofList ds), .comma] := by
      simp [furtherTokens]
    obtain ⟨key, hkey, hitem⟩ := leads_item hcs ts n hp (.inl rfl) (' ' :: more)
    have hcomma (p : Position) : Leads
        (inBrackets false (some key) (.scalar .plain (String.ofList cs) :: ts)
          ⟨',' :: ' ' :: more, p⟩)
        (inBrackets true none (.comma :: .scalar .plain (String.ofList cs) :: ts)
          ⟨' ' :: more, p.skip 1⟩) := by
      obtain ⟨d, ds', rfl, hd⟩ := hds.exists_cons
      rw [← hmore]
      exact leads_comma (by simpa using hkey) _ p hd _
    have hcolumn : (((p.skip n).skip cs.length).skip 1).column ≠ 0 := Nat.succ_ne_zero _
    obtain ⟨p', hfurther⟩ := ih (fun _ h => hitems _ (List.mem_cons_of_mem ds h)) hds
      (.comma :: .scalar .plain (String.ofList cs) :: ts) 1 hcolumn
    rw [hmore] at hfurther
    rw [htext, htokens, List.append_assoc]
    exact ⟨p', hitem.trans ((hcomma _).trans hfurther)⟩

/-- The text of items between brackets. -/
def itemsText : List (List Char) → List Char
  | [] => []
  | cs :: items => cs ++ furtherText items

/-- The tokens of items between brackets. -/
def itemsTokens : List (List Char) → List Token
  | [] => []
  | cs :: items => .scalar .plain (String.ofList cs) :: furtherTokens items

/-- Items between brackets are read up to the end of the line. -/
theorem leads_brackets {items : List (List Char)} (hitems : ∀ cs ∈ items, IsPlain cs)
    (ts : List Token) (p : Position) (rest : List Char) :
    ∃ p' : Position,
      Leads (inValue ts ⟨' ' :: '[' :: (itemsText items ++ ']' :: '\n' :: rest), p⟩)
        (inValue (.flowSequenceEnd :: ((itemsTokens items).reverse ++ .flowSequence :: ts))
          ⟨'\n' :: rest, p'⟩) := by
  cases items with
  | nil =>
    have hopen := leads_open ts p (by decide : isSolid ']' = true) ('\n' :: rest)
    exact ⟨_, hopen.trans (leads_close (by simp) (.flowSequence :: ts) (p.skip 2) rest)⟩
  | cons cs items =>
    have hcs : IsPlain cs := hitems cs List.mem_cons_self
    have hopen : Leads
        (inValue ts ⟨' ' :: '[' :: (itemsText (cs :: items) ++ ']' :: '\n' :: rest), p⟩)
        (inBrackets true none (.flowSequence :: ts)
          ⟨cs ++ (furtherText items ++ ']' :: '\n' :: rest), p.skip 2⟩) := by
      obtain ⟨d, ds, rfl, hd⟩ := hcs.exists_cons
      rw [itemsText, List.append_assoc]
      exact leads_open ts p hd _
    have hcolumn : (p.skip 2).column ≠ 0 := Nat.succ_ne_zero _
    obtain ⟨p', hitems'⟩ := leads_items (fun _ h => hitems _ (List.mem_cons_of_mem cs h)) hcs
      (.flowSequence :: ts) 0 hcolumn rest
    refine ⟨p', hopen.trans ?_⟩
    rw [itemsTokens, List.reverse_cons, List.append_assoc]
    exact hitems'

/-! ## The end -/

/-- The end of the text closes the outermost block. -/
theorem StartsLine.all_end {s : Scan} {ts : List Token} (h : StartsLine s true ts []) {rounds : Nat}
    (hrounds : s.cursor.rest.length < rounds) :
    ∃ s', s.all rounds = (s', none) ∧ s'.tokens = .streamEnd :: .blockEnd :: ts := by
  obtain ⟨p, hp, hgap⟩ := h.skipGap
  obtain ⟨rounds, rfl⟩ : ∃ n, rounds = n + 1 := ⟨rounds - 1, by omega⟩
  have hnext : s.next (rounds + 1) = (atLine true ts ⟨[], p⟩).streamEnd := by
    rw [next_of_skipGap (hgap rounds (by omega)) (Int.natCast_nonneg _)]
    rfl
  rw [all, hnext]
  exact ⟨_, rfl, rfl⟩

end StackMachine.Yaml.Scan
