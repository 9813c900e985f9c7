import Mathlib.Algebra.Group.Nat.Defs
import Mathlib.Data.List.Basic
import StackMachine.Listing
import StackMachine.Proofs.Instruction
import StackMachine.Proofs.Opcode

/-!
# Listings determine programs

A line of a listing is a few words with blanks between them, its fields: the offset, the name of the
opcode word, the operands, and a remark if some are cut off. `words_line` reads the fields back, and
`fields_injective` the instruction from them.

The title of a listing is not escaped and may look like lines of its own. Still the title line ends
at the last equals sign of the text, since no line has one.
-/

namespace StackMachine.Listing

open Text

/-! ## Fields -/

/-- What the line of an instruction says if operands are cut off. -/
def remark : String := "<truncated>"

/-- The fields of the line of an instruction. -/
def fields (i : Instruction) : List String :=
  Decimal.padded 4 i.offset :: Opcode.nameOfWord i.op ::
    (i.operands.map Decimal.ofWord ++ if i.isTruncated then [remark] else [])

/-- The remark is one word. -/
theorem isWord_remark : IsWord remark := by
  have hall : remark.toList.all isInk = true := by decide +kernel
  exact ⟨by decide, List.all_eq_true.1 hall⟩

/-- The remark is no numeral. -/
theorem remark_ne_ofWord (w : Int64) : Decimal.ofWord w ≠ remark := by
  intro h
  have hmem : '<' ∈ (Decimal.ofWord w).toList := by
    rw [h]
    decide +kernel
  exact absurd (Decimal.isSymbol_of_mem_ofInt hmem) (by decide)

/-- After the first two fields come numerals and perhaps the remark, each of them one word. -/
theorem isWord_of_mem_operands {i : Instruction} {w : String}
    (h : w ∈ i.operands.map Decimal.ofWord ++ if i.isTruncated then [remark] else []) :
    IsWord w := by
  rw [List.mem_append, List.mem_map] at h
  rcases h with ⟨v, -, rfl⟩ | hremark
  · exact Decimal.isWord_ofWord v
  · have heq : w = remark := by
      split at hremark
      · exact List.mem_singleton.1 hremark
      · cases hremark
    rw [heq]
    exact isWord_remark

/-- The fields of a line determine its instruction. -/
theorem fields_injective : Function.Injective fields := by
  intro i j h
  obtain ⟨hoffset, hname, hrest⟩ : Decimal.padded 4 i.offset = Decimal.padded 4 j.offset ∧
      Opcode.nameOfWord i.op = Opcode.nameOfWord j.op ∧
      (i.operands.map Decimal.ofWord ++ if i.isTruncated then [remark] else []) =
        j.operands.map Decimal.ofWord ++ if j.isTruncated then [remark] else [] := by
    simpa only [fields, List.cons.injEq] using h
  -- The operands are what stands before the first remark.
  have htake (i : Instruction) :
      (i.operands.map Decimal.ofWord ++ if i.isTruncated then [remark] else []).takeWhile
        (· != remark) = i.operands.map Decimal.ofWord := by
    have hall : ∀ w ∈ i.operands.map Decimal.ofWord, (w != remark) = true := by
      intro w hw
      obtain ⟨v, -, rfl⟩ := List.mem_map.1 hw
      simpa using remark_ne_ofWord v
    rw [List.takeWhile_append_of_pos hall]
    split <;> simp
  have hoperands : i.operands = j.operands := by
    apply List.map_injective_iff.2 Decimal.ofWord_injective
    rw [← htake i, ← htake j, hrest]
  have hop := Opcode.nameOfWord_injective hname
  have hoffset' := Decimal.padded_injective 4 hoffset
  cases i
  cases j
  simp_all

/-! ## Lines -/

/-- The operands of a line, each after a space. -/
theorem foldl_operands (ws : List Int64) :
    ws.foldl (fun acc w => acc ++ " " ++ Decimal.ofWord w) "" =
      String.join ((ws.map Decimal.ofWord).map (" " ++ ·)) := by
  simp only [String.join, List.foldl_map, String.append_assoc]

/-- A line is made of its fields, with some blanks after the second and one space before each of the
others, as long as there are no more operands than the opcode asks for. -/
theorem line_eq {i : Instruction} (h : i.operands.length ≤ Opcode.operandsOfWord i.op) :
    ∃ n, line i = Decimal.padded 4 i.offset ++ (" " ++ Opcode.nameOfWord i.op) ++
      String.ofList (List.replicate n ' ') ++
      String.join ((i.operands.map Decimal.ofWord ++
        if i.isTruncated then [remark] else []).map (" " ++ ·)) := by
  unfold line
  by_cases hnone : Opcode.operandsOfWord i.op = 0
  · -- Such a line ends with the name.
    have hoperands : i.operands = [] := List.eq_nil_of_length_eq_zero (by omega)
    have hfull : i.isTruncated = false := by
      simp [Instruction.isTruncated, hnone]
    refine ⟨0, ?_⟩
    rw [if_pos hnone, hoperands, hfull]
    simp [String.append_assoc]
  · refine ⟨6 - (Opcode.nameOfWord i.op).length, ?_⟩
    rw [if_neg hnone, foldl_operands, column]
    dsimp only
    cases i.isTruncated with
    | true =>
      apply String.ext
      simp [remark]
    | false => simp [String.append_assoc]

/-- The words of a line are its fields. -/
theorem words_line {i : Instruction} (h : i.operands.length ≤ Opcode.operandsOfWord i.op) :
    words (line i) = fields i := by
  have hoffset := Decimal.isWord_padded 4 i.offset
  have hname := Opcode.isWord_nameOfWord i.op
  obtain ⟨n, hline⟩ := line_eq h
  rw [hline, words_append_join _ fun w => isWord_of_mem_operands, words_append_spaces,
    words_append_space, hoffset.words_eq, hname.words_eq]
  rfl

/-- At an offset inside the code there is the line of the instruction there, and the next line is
where that ends. -/
theorem lineAt_of_lt {code : Array Int64} {offset : Nat} (hcode : code.size < 2^63)
    (h : offset < code.size) :
    lineAt code (Int64.ofNat offset) =
      (line (Instruction.read code offset h),
        Int64.ofNat (Instruction.read code offset h).next) := by
  -- Offsets of the code are words, so that the word of an offset has its value.
  have hvalue : (Int64.ofNat offset).toInt = offset := Int64.toInt_ofNat_of_lt (by omega)
  have hnonneg : ¬ Int64.ofNat offset < 0 := by
    rw [Int64.lt_iff_toInt_lt, hvalue]
    simp
  unfold lineAt
  rw [if_neg hnonneg, hvalue, Int.toNat_natCast, Instruction.read?, dif_pos h]

/-- The line at an offset inside the code has the fields of the instruction there, and the next line
is after the operands or at the end of the code. -/
theorem lineAt_read {code : Array Int64} {offset : Nat} (hcode : code.size < 2^63)
    (h : offset < code.size) :
    words (lineAt code (Int64.ofNat offset)).1 = fields (Instruction.read code offset h) ∧
      (lineAt code (Int64.ofNat offset)).2.toInt =
        min (offset + 1 + Opcode.operandsOfWord code[offset]) code.size := by
  have hnext := Instruction.next_read h
  rw [lineAt_of_lt hcode h]
  constructor
  · exact words_line (Instruction.length_operands_read_le h)
  · rw [Int64.toInt_ofNat_of_lt (by omega), hnext]

/-- A line is written in ink and spaces. -/
theorem ink_of_mem_line {i : Instruction} (h : i.operands.length ≤ Opcode.operandsOfWord i.op)
    {c : Char} (hc : c ∈ (line i).toList) : isInk c = true ∨ c = ' ' := by
  have hoffset := Decimal.isWord_padded 4 i.offset
  have hname := Opcode.isWord_nameOfWord i.op
  obtain ⟨n, hline⟩ := line_eq h
  rw [hline] at hc
  simp only [String.toList_append, String.toList_ofList, String.toList_join, List.mem_append,
    List.flatMap_map, List.mem_flatMap, List.mem_replicate] at hc
  have hspace : c ∈ " ".toList → c = ' ' := by simp
  rcases hc with ((hc | hc | hc) | hc) | ⟨w, hw, hc | hc⟩
  · exact .inl (hoffset.ink c hc)
  · exact .inr (hspace hc)
  · exact .inl (hname.ink c hc)
  · exact .inr hc.2
  · exact .inr (hspace hc)
  · exact .inl ((isWord_of_mem_operands (List.mem_append.2 hw)).ink c hc)

/-! ## Texts -/

/-- The lines of some code. -/
def lines (code : Array Int64) : List String :=
  (Instruction.allFrom code 0).map line

/-- Lines hold neither line breaks nor equals signs. -/
theorem not_mem_of_mem_lines {code : Array Int64} {l : String} (h : l ∈ lines code) :
    '\n' ∉ l.toList ∧ '=' ∉ l.toList := by
  obtain ⟨i, hi, rfl⟩ := List.mem_map.1 h
  have hink {c : Char} (hc : c ∈ (line i).toList) : isInk c = true ∨ c = ' ' :=
    ink_of_mem_line (Instruction.length_operands_le_of_mem hi) hc
  exact ⟨fun hc => absurd (hink hc) (by decide), fun hc => absurd (hink hc) (by decide)⟩

/-- The lines of some code determine it. -/
theorem lines_injective : Function.Injective lines := by
  intro a b h
  have hfields (code : Array Int64) :
      (Instruction.allFrom code 0).map fields = (lines code).map words := by
    rw [lines, List.map_map]
    refine List.map_congr_left fun i hi => ?_
    exact (words_line (Instruction.length_operands_le_of_mem hi)).symm
  have hsame : (Instruction.allFrom a 0).map fields = (Instruction.allFrom b 0).map fields := by
    rw [hfields a, hfields b, h]
  exact Instruction.allFrom_injective (List.map_injective_iff.2 fields_injective hsame)

/-- A listing is the title line and then the lines, each ended by a line break. -/
theorem toList_text (code : Array Int64) (title : String) :
    (text code title).toList = ("== ".toList ++ title.toList ++ " =".toList) ++ '=' :: '\n' ::
      (lines code).flatMap (·.toList ++ ['\n']) := by
  have hbody (is : List Instruction) (start : String) :
      (is.foldl (fun acc i => acc ++ line i ++ "\n") start).toList =
        start.toList ++ (is.map line).flatMap (·.toList ++ ['\n']) := by
    -- What is written before is arbitrary, since each line is added behind it.
    induction is generalizing start with
    | nil => simp
    | cons i is ih => simp [ih]
  rw [text, hbody]
  simp [lines]

/-- Lines that are ended by line breaks, and hold none, are read back by dividing at them. -/
theorem splitOnP_flatMap {ls : List String} (h : ∀ l ∈ ls, '\n' ∉ l.toList) :
    (ls.flatMap (·.toList ++ ['\n'])).splitOnP (· == '\n') = ls.map String.toList ++ [[]] := by
  induction ls with
  | nil => simp [List.splitOnP_nil]
  | cons l ls ih =>
    have hl : ∀ c ∈ l.toList, (c == '\n') = false := by
      intro c hc
      rw [beq_eq_false_iff_ne]
      rintro rfl
      exact h l List.mem_cons_self hc
    have hls : ∀ l ∈ ls, '\n' ∉ l.toList := fun l' hl' => h l' (List.mem_cons_of_mem l hl')
    rw [List.flatMap_cons, List.append_assoc, List.singleton_append,
      List.splitOnP_append_cons_of_forall_mem hl _ (by rfl), ih hls, List.map_cons,
      List.cons_append]

/-- A text is divided at the last place of a character in one way only. -/
theorem append_cons_inj_of_last {c : Char} {xs ys as bs : List Char} (ha : c ∉ as) (hb : c ∉ bs)
    (h : xs ++ c :: as = ys ++ c :: bs) : xs = ys ∧ as = bs := by
  -- If the two places differed, the later one would be in what follows the earlier one.
  rcases List.append_eq_append_iff.1 h with ⟨between, hys, hrest⟩ | ⟨between, hxs, hrest⟩
  · cases between with
    | nil => simp_all
    | cons d between =>
      have hmem : c ∈ as := by
        rw [(List.cons.inj hrest).2]
        simp
      exact absurd hmem ha
  · cases between with
    | nil => simp_all
    | cons d between =>
      have hmem : c ∈ bs := by
        rw [(List.cons.inj hrest).2]
        simp
      exact absurd hmem hb

/-- Two listings are the same text only if they have the same title and list the same code, whatever
words the code holds, wherever it ends and whatever the title looks like. -/
theorem listing_determines_program (a b : Array Int64) (x y : String) :
    text a x = text b y ↔ x = y ∧ a = b := by
  constructor
  · intro h
    have hlist := congrArg String.toList h
    rw [toList_text, toList_text] at hlist
    have hequals (code : Array Int64) :
        '=' ∉ '\n' :: (lines code).flatMap (·.toList ++ ['\n']) := by
      simp only [List.mem_cons, List.mem_flatMap, List.mem_append, List.not_mem_nil, or_false,
        not_or, not_exists, not_and]
      refine ⟨by decide, fun l hl => ⟨(not_mem_of_mem_lines hl).2, by decide⟩⟩
    -- The last equals sign divides the text into the title line and the others.
    obtain ⟨htitle, hbody⟩ := append_cons_inj_of_last (hequals a) (hequals b) hlist
    have hlines : (lines a).map String.toList = (lines b).map String.toList := by
      have hsplit := congrArg (List.splitOnP (· == '\n')) (List.cons.inj hbody).2
      rw [splitOnP_flatMap fun l hl => (not_mem_of_mem_lines hl).1,
        splitOnP_flatMap fun l hl => (not_mem_of_mem_lines hl).1] at hsplit
      exact List.append_cancel_right hsplit
    constructor
    · apply String.ext
      simpa using htitle
    · apply lines_injective
      exact List.map_injective_iff.2 (fun _ _ => String.toList_injective) hlines
  · rintro ⟨rfl, rfl⟩
    rfl

end StackMachine.Listing
