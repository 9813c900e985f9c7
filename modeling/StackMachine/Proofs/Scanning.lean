import Mathlib
import StackMachine.Yaml.Token

/-!
# Reading tokens

What the scanner of YAML does at the places that written texts have: it takes the characters of
names for a plain scalar up to what ends one, and for a quoted scalar up to the quote, and it passes
over spaces and line feeds. `Scan.Leads` says that reading goes on from one state as from a later
one, whatever rounds there are, so that lemmas about single tokens are put together by
`Scan.Leads.trans`.
-/

namespace StackMachine.Yaml

/-! ## Characters -/

/-- A character of a name is no other character. -/
theorem ne_of_isWord {c d : Char} (hc : isWord c = true) (hd : isWord d = false) : c ≠ d := by
  rintro rfl
  rw [hc] at hd
  exact Bool.noConfusion hd

/-- Whether a character is neither blank nor a break and starts no comment. -/
def isSolid (c : Char) : Bool :=
  !isBlank c && !isBreak c && c != '#' && c != mark

/-- The range of the characters of names. -/
theorem toNat_of_isWord {c : Char} (h : isWord c = true) : 0x2d ≤ c.toNat ∧ c.toNat ≤ 0x7a := by
  simp only [isWord, Char.isAlphanum, Char.isAlpha, Char.isUpper, Char.isLower, Char.isDigit,
    Bool.or_eq_true, Bool.and_eq_true, decide_eq_true_eq, beq_iff_eq, UInt32.le_iff_toNat_le] at h
  rcases h with ((((⟨h1, h2⟩ | ⟨h1, h2⟩) | ⟨h1, h2⟩) | rfl) | rfl)
  · exact ⟨Nat.le_trans (by decide) h1, Nat.le_trans h2 (by decide)⟩
  · exact ⟨Nat.le_trans (by decide) h1, Nat.le_trans h2 (by decide)⟩
  · exact ⟨Nat.le_trans (by decide) h1, Nat.le_trans h2 (by decide)⟩
  · decide
  · decide

/-- A character of a name ends no line. -/
theorem isBreak_of_isWord {c : Char} (h : isWord c = true) : isBreak c = false := by
  have hrange := toNat_of_isWord h
  have hfeed := ne_of_isWord h (by decide : isWord '\n' = false)
  have hreturn := ne_of_isWord h (by decide : isWord '\r' = false)
  simp [isBreak, hfeed, hreturn]
  omega

/-- A character of a name is no blank. -/
theorem isBlank_of_isWord {c : Char} (h : isWord c = true) : isBlank c = false := by
  have hspace := ne_of_isWord h (by decide : isWord ' ' = false)
  have htab := ne_of_isWord h (by decide : isWord '\t' = false)
  simp [isBlank, hspace, htab]

/-- A character of a name is solid. -/
theorem isSolid_of_isWord {c : Char} (h : isWord c = true) : isSolid c = true := by
  have hhash := ne_of_isWord h (by decide : isWord '#' = false)
  have hmark := ne_of_isWord h (by decide : isWord mark = false)
  simp [isSolid, isBlank_of_isWord h, isBreak_of_isWord h, hhash, hmark]

/-- What it takes to be solid. -/
theorem isSolid_iff {c : Char} :
    isSolid c = true ↔ isBlank c = false ∧ isBreak c = false ∧ c ≠ '#' ∧ c ≠ mark := by
  simp [isSolid, and_assoc]

/-- A solid character starts no break of two characters. -/
theorem ne_return_of_isSolid {c : Char} (h : isSolid c = true) : c ≠ '\r' := by
  rintro rfl
  exact absurd h (by decide)

/-! ## Plain scalars -/

section Plain

variable {flow : Bool} {indent : Nat} {p : Position} {text : List Char} {c : Char}

/-- A solid character within a word either ends a plain scalar or belongs to it. -/
theorem readPlain_word (hc : isSolid c = true) (cs : List Char) :
    readPlain flow indent p text .none (c :: cs) =
      if endsWord flow (c :: cs) then .ok ⟨text.reverse, ⟨c :: cs, p⟩, false⟩
      else readPlain flow indent (p.skip 1) (c :: text) .none cs := by
  obtain ⟨hblank, hbreak, -, -⟩ := isSolid_iff.1 hc
  rw [readPlain]
  · rw [hbreak, if_neg Bool.false_ne_true, hblank, if_neg Bool.false_ne_true]
    rfl
  · exact fun _ h => absurd h (ne_return_of_isSolid hc)

/-- The characters of a name belong to a plain scalar. -/
theorem readPlain_append {cs : List Char} (h : ∀ c ∈ cs, isWord c = true) (rest : List Char) :
    readPlain flow indent p text .none (cs ++ rest) =
      readPlain flow indent (p.skip cs.length) (cs.reverse ++ text) .none rest := by
  -- The scalar's text so far and the position grow with each character, so both are arbitrary.
  induction cs generalizing p text with
  | nil => rfl
  | cons c cs ih =>
    have hc : isWord c = true := h c List.mem_cons_self
    -- Only a colon or an indicator of brackets ends a word, and none is a character of names.
    have hgoes : endsWord flow (c :: (cs ++ rest)) = false := by
      have hne {d : Char} (hd : isWord d = false) : (c == d) = false :=
        beq_false_of_ne (ne_of_isWord hc hd)
      simp only [endsWord, isFlowStop, hne (by decide : isWord ':' = false),
        hne (by decide : isWord ',' = false), hne (by decide : isWord '?' = false),
        hne (by decide : isWord '[' = false), hne (by decide : isWord ']' = false),
        hne (by decide : isWord '\x7b' = false), hne (by decide : isWord '\x7d' = false),
        Bool.false_and, Bool.or_false, Bool.and_false]
    have hposition : (p.skip 1).skip cs.length = p.skip (c :: cs).length := by
      simp only [Position.skip, List.length_cons]
      congr 1 <;> omega
    rw [List.cons_append, readPlain_word (isSolid_of_isWord hc), hgoes, if_neg Bool.false_ne_true,
      ih fun d hd => h d (List.mem_cons_of_mem c hd), hposition, List.reverse_cons,
      List.append_assoc, List.singleton_append]

/-- A plain scalar of a block ends with its line, if the text ends there or the next line is not
indented. -/
theorem readPlain_newLine (hindent : 0 < indent) {rest : List Char}
    (hrest : ∀ c ∈ rest.head?, isSolid c = true) :
    readPlain false indent p text .none ('\n' :: rest) =
      .ok ⟨text.reverse, ⟨rest, p.newLine 1⟩, true⟩ := by
  rw [readPlain, if_pos (by decide), Gap.lineBreak]
  · cases rest with
    | nil => rfl
    | cons c cs =>
      have hc : isSolid c = true := hrest c rfl
      obtain ⟨hblank, hbreak, -, -⟩ := isSolid_iff.1 hc
      -- The next line starts in column zero, which is less than any indentation.
      have hends : endsPlain false indent (p.newLine 1).column (c :: cs) = true := by
        simp [endsPlain, Position.newLine, hindent]
      rw [readPlain, hbreak, if_neg Bool.false_ne_true, hblank, if_neg Bool.false_ne_true]
      · dsimp only
        rw [hends, Bool.true_or, if_pos rfl]
        rfl
      · exact fun _ h => absurd h (ne_return_of_isSolid hc)
      · exact fun h => nomatch h
  · exact fun _ _ h => nomatch h
  · exact fun _ h => absurd h (by decide)

end Plain

/-! ## Quoted scalars -/

/-- The characters of a name between double quotes. -/
theorem readQuoted_append {cs : List Char} (h : ∀ c ∈ cs, isWord c = true) {rounds : Nat}
    (hrounds : cs.length < rounds) {p : Position} (hp : p.column ≠ 0) (text rest : List Char) :
    readQuoted false rounds ⟨cs ++ '"' :: rest, p⟩ text .none =
      .ok ⟨text.reverse ++ cs, ⟨rest, p.skip (cs.length + 1)⟩, false⟩ := by
  -- Past the start of the line nothing is a mark between documents.
  have hmark (cs : List Char) {p : Position} (hp : p.column ≠ 0) : atMark p.column cs = false := by
    simp [atMark, startsMark, hp]
  induction cs generalizing rounds p text with
  | nil =>
    obtain ⟨rounds, rfl⟩ : ∃ n, rounds = n + 1 := ⟨rounds - 1, by omega⟩
    have hsolid : isBreak '"' = false ∧ isBlank '"' = false := by decide
    simp [readQuoted, hsolid, hmark _ hp, Gap.join, Cursor.skip]
  | cons c cs ih =>
    obtain ⟨rounds, rfl⟩ : ∃ n, rounds = n + 1 := ⟨rounds - 1, by omega⟩
    have hc : isWord c = true := h c List.mem_cons_self
    have hquote : (c == '"') = false := beq_false_of_ne (ne_of_isWord hc (by decide))
    have hslash : (c == '\\') = false := beq_false_of_ne (ne_of_isWord hc (by decide))
    have hp' : (p.skip 1).column ≠ 0 := by simp [Position.skip]
    have hrest := ih (fun d hd => h d (List.mem_cons_of_mem c hd))
      (by simpa using hrounds : cs.length < rounds) hp' (c :: text)
    have hposition : (p.skip 1).skip (cs.length + 1) = p.skip ((c :: cs).length + 1) := by
      simp only [Position.skip, List.length_cons]
      congr 1 <;> omega
    rw [List.reverse_cons, List.append_assoc, List.singleton_append, hposition] at hrest
    simp only [readQuoted, List.cons_append, isBreak_of_isWord hc, isBlank_of_isWord hc,
      hmark _ hp, hquote, hslash, Bool.and_false, Bool.false_and, if_neg Bool.false_ne_true]
    exact hrest

/-! ## Steps of the scanner -/

/-- Nothing is passed over. -/
theorem Cursor.skip_zero (cursor : Cursor) : cursor.skip 0 = cursor :=
  rfl

namespace Scan

/-- Spaces are passed over, and so is a break behind them. -/
theorem skipGap_cons {s : Scan} (n : Nat) {c : Char} {cs : List Char} (hblank : isBlank c = false)
    (hhash : c ≠ '#') (hmark : c ≠ mark) (hrest : s.cursor.rest = List.replicate n ' ' ++ c :: cs)
    (rounds : Nat) :
    s.skipGap (rounds + 1) =
      if isBreak c then
        skipGap rounds { s with
          cursor := (s.cursor.skip n).skipBreak, keyAllowed := s.keyAllowed || !s.inFlow }
      else { s with cursor := s.cursor.skip n } := by
  simp only [isBlank, Bool.or_eq_false_iff, beq_eq_false_iff_ne] at hblank
  have hskip (tabs : Bool) :
      s.cursor.skipWhile (fun c => c == ' ' || (tabs && c == '\t')) = s.cursor.skip n := by
    rw [Cursor.skipWhile, hrest, List.takeWhile_append_of_pos (by simp)]
    simp [hblank]
  have hafter : (s.cursor.skip n).rest = c :: cs := by
    simp [Cursor.skip, hrest]
  -- The first character is a space or the one behind the spaces, and not a byte order mark.
  obtain ⟨d, ds, hd, hdmark⟩ : ∃ d ds, s.cursor.rest = d :: ds ∧ d ≠ mark := by
    cases n with
    | zero => exact ⟨c, cs, hrest, hmark⟩
    | succ n => exact ⟨' ', List.replicate n ' ' ++ c :: cs, hrest, by decide⟩
  have hstart : (if (s.column == 0 && d == mark) = true then s.cursor.skip 1 else s.cursor) =
      s.cursor := by
    simp [hdmark]
  rw [skipGap]
  simp only [hd, hstart, hskip, hafter]
  simp [hafter, hhash]

/-- Spaces in front of a solid character are passed over. -/
theorem skipGap_spaces {s : Scan} (n : Nat) {c : Char} {cs : List Char} (hc : isSolid c = true)
    (hrest : s.cursor.rest = List.replicate n ' ' ++ c :: cs) (rounds : Nat) :
    s.skipGap (rounds + 1) = { s with cursor := s.cursor.skip n } := by
  obtain ⟨hblank, hbreak, hhash, hmark⟩ := isSolid_iff.1 hc
  rw [skipGap_cons n hblank hhash hmark hrest, hbreak, if_neg Bool.false_ne_true]

/-- A line feed outside of brackets is passed over, and allows a key. -/
theorem skipGap_newLine {s : Scan} {cs : List Char} (hflow : s.inFlow = false)
    (hrest : s.cursor.rest = '\n' :: cs) (rounds : Nat) :
    s.skipGap (rounds + 1) =
      skipGap rounds
        { s with cursor := ⟨cs, s.cursor.position.newLine 1⟩, keyAllowed := true } := by
  have hbreak : (s.cursor.skip 0).skipBreak = ⟨cs, s.cursor.position.newLine 1⟩ := by
    simp [Cursor.skipBreak, Cursor.skip, hrest, Position.skip, isBreak]
  rw [skipGap_cons 0 (by decide) (by decide) (by decide) hrest, if_pos (by decide), hbreak, hflow,
    Bool.not_false, Bool.or_true]

/-- At the end of the text and in front of a solid character there is nothing to pass over. -/
theorem skipGap_of_isSolid {s : Scan} (hrest : ∀ c ∈ s.cursor.rest.head?, isSolid c = true)
    (rounds : Nat) : s.skipGap (rounds + 1) = s := by
  cases heq : s.cursor.rest with
  | nil =>
    have hskip (p : Char → Bool) : s.cursor.skipWhile p = s.cursor := by
      rw [Cursor.skipWhile, heq]
      exact Cursor.skip_zero s.cursor
    rw [skipGap]
    simp only [heq, hskip]
  | cons c cs =>
    rw [heq] at hrest
    exact skipGap_spaces 0 (hrest c rfl) heq rounds

/-- No block is closed by what is indented as far as the innermost one. -/
theorem closeBlocks_of_le {s : Scan} {column : Int} (h : s.indent ≤ column) :
    s.closeBlocks column = s := by
  unfold closeBlocks
  split
  · rfl
  · unfold closeBlocks.go
    split
    · rfl
    · rw [if_neg (by omega)]

/-- Where no comment follows in the line, none is passed over. -/
theorem skipLineComment_eq {s : Scan} (h : (s.cursor.rest.dropWhile isBlank).head? ≠ some '#') :
    s.skipLineComment = s := by
  have hdrop : s.cursor.rest.drop (s.cursor.rest.takeWhile isBlank).length =
      s.cursor.rest.dropWhile isBlank := by
    calc s.cursor.rest.drop (s.cursor.rest.takeWhile isBlank).length
        = (s.cursor.rest.takeWhile isBlank ++ s.cursor.rest.dropWhile isBlank).drop
            (s.cursor.rest.takeWhile isBlank).length := by rw [List.takeWhile_append_dropWhile]
      _ = s.cursor.rest.dropWhile isBlank := List.drop_left
  unfold skipLineComment
  dsimp only
  rw [hdrop]
  simp [h]

/-- No comment starts with a solid character. -/
theorem head?_dropWhile_of_isSolid {cs : List Char} (h : ∀ c ∈ cs.head?, isSolid c = true) :
    (cs.dropWhile isBlank).head? ≠ some '#' := by
  cases cs with
  | nil => exact nofun
  | cons c cs =>
    obtain ⟨hblank, -, hhash, -⟩ := isSolid_iff.1 (h c rfl)
    rw [List.dropWhile_cons_of_neg (by simp [hblank])]
    simpa using hhash

/-- The next token is looked for behind the gap, if what stands there closes no block. -/
theorem next_of_skipGap {s s' : Scan} {rounds : Nat} (hgap : s.skipGap rounds = s')
    (hindent : s'.indent ≤ s'.column) : s.next rounds = s'.tokenAt rounds s'.cursor.rest := by
  rw [next, hgap, closeBlocks_of_le hindent]

/-- Where a key may start, it is noted. -/
theorem saveKey_of_allowed {s : Scan} (hallowed : s.keyAllowed = true)
    (hpending : s.pending = none) :
    s.saveKey = .ok { s with pending := some {
      before := s.count
      required := !s.inFlow && s.indent == s.column
      position := s.cursor.position } } := by
  rw [saveKey, if_pos hallowed, dropKey, hpending]
  rfl

/-- Where no key may start, none is noted. -/
theorem saveKey_of_forbidden {s : Scan} (hforbidden : s.keyAllowed = false) :
    s.saveKey = .ok s := by
  rw [saveKey, hforbidden]
  rfl

/-- A plain scalar is a token. Behind it a key may start only in a later line. -/
theorem plain_of_readPlain {s s' : Scan} {text : List Char} {stop : Cursor} {hasBreak : Bool}
    (hsave : s.saveKey = .ok s')
    (hread : readPlain s'.inFlow (s'.indent + 1).toNat s'.cursor.position [] .none s'.cursor.rest =
      .ok ⟨text, stop, hasBreak⟩)
    (hcomment : (stop.rest.dropWhile isBlank).head? ≠ some '#') :
    s.plain = .ok { s'.emit (.scalar .plain (String.ofList text)) with
      cursor := stop, keyAllowed := hasBreak } := by
  rw [plain, hsave]
  simp only [Bind.bind, Except.bind, hread]
  cases hasBreak with
  | true => rfl
  | false =>
    rw [if_neg Bool.false_ne_true, skipLineComment_eq]
    exact hcomment

/-- Two states from which the same tokens are read in the end. -/
def Leads (s s' : Scan) : Prop :=
  ∀ rounds, s.cursor.rest.length < rounds →
    ∃ rounds', s'.cursor.rest.length < rounds' ∧ s.all rounds = s'.all rounds'

/-- Reading goes on from the same state. -/
theorem Leads.refl (s : Scan) : Leads s s :=
  fun rounds h => ⟨rounds, h, rfl⟩

/-- Reading goes on and on. -/
theorem Leads.trans {s s' s'' : Scan} (h : Leads s s') (h' : Leads s' s'') : Leads s s'' := by
  intro rounds hrounds
  obtain ⟨rounds', hrounds', heq⟩ := h rounds hrounds
  obtain ⟨rounds'', hrounds'', heq'⟩ := h' rounds' hrounds'
  exact ⟨rounds'', hrounds'', heq.trans heq'⟩

/-- Reading goes on from behind a token that does not end the text. -/
theorem Leads.of_next {s s' : Scan}
    (hnext : ∀ rounds, s.cursor.rest.length ≤ rounds → s.next (rounds + 1) = .ok s')
    (hshorter : s'.cursor.rest.length < s.cursor.rest.length)
    (htoken : s'.tokens.head? ≠ some .streamEnd) : Leads s s' := by
  intro rounds hrounds
  -- The token takes a round and a character at least, so enough rounds are left for the rest.
  obtain ⟨rounds, rfl⟩ : ∃ n, rounds = n + 1 := ⟨rounds - 1, by omega⟩
  refine ⟨rounds, by omega, ?_⟩
  rw [all, hnext rounds (by omega)]
  dsimp only
  split
  · next heq => exact absurd (by rw [heq]; rfl) htoken
  · rfl

end Scan

end StackMachine.Yaml
