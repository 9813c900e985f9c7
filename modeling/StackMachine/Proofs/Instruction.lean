import StackMachine.Instruction

/-!
# The instructions of some code

Reading instructions one after another from an offset divides the rest of the code: each instruction
starts where the one before it ends, the last ends with the code, and together they hold every word
once. `mem_allFrom_of_mem` and `next_mem` are how the offsets of these instructions are reached.
-/

namespace StackMachine.Instruction

variable {code : Array Int64} {offset : Nat}

/-! ## One instruction -/

/-- The words that an instruction takes up. -/
def words (i : Instruction) : List Int64 :=
  i.op :: i.operands

/-- The operands are the words after the opcode, as many as it asks for and the code has. -/
theorem operands_read (h : offset < code.size) :
    (read code offset h).operands =
      (code.toList.drop (offset + 1)).take (Opcode.operandsOfWord code[offset]) := by
  simp [read, List.extract_eq_take_drop]

/-- One operand, by its place. -/
theorem getElem?_operands_read (h : offset < code.size) (k : Nat) :
    (read code offset h).operands[k]? =
      if k < Opcode.operandsOfWord code[offset] then code[offset + 1 + k]? else none := by
  rw [operands_read, List.getElem?_take, List.getElem?_drop, Array.getElem?_toList]

/-- An instruction ends after its last operand, or with the code. -/
theorem next_read (h : offset < code.size) :
    (read code offset h).next =
      min (offset + 1 + Opcode.operandsOfWord code[offset]) code.size := by
  have hoffset : (read code offset h).offset = offset := rfl
  rw [next, operands_read, hoffset]
  simp only [List.length_take, List.length_drop, Array.length_toList]
  omega

/-- An instruction has no more operands than its opcode asks for. -/
theorem length_operands_read_le (h : offset < code.size) :
    (read code offset h).operands.length ≤ Opcode.operandsOfWord (read code offset h).op := by
  rw [operands_read]
  exact List.length_take_le _ _

/-- An instruction is truncated when its operands would go past the end of the code. -/
theorem isTruncated_read_iff (h : offset < code.size) :
    (read code offset h).isTruncated = true ↔
      code.size < offset + 1 + Opcode.operandsOfWord code[offset] := by
  have hop : (read code offset h).op = code[offset] := rfl
  simp only [isTruncated, operands_read, hop, List.length_take, List.length_drop,
    Array.length_toList, decide_eq_true_eq]
  omega

/-- An instruction takes up at least one word of the code. -/
theorem lt_next_read (h : offset < code.size) :
    offset < (read code offset h).next ∧ (read code offset h).next ≤ code.size := by
  rw [next_read]
  omega

/-- The words of an instruction are those from its offset to its end. -/
theorem words_append_drop_next (h : offset < code.size) :
    (read code offset h).words ++ code.toList.drop (read code offset h).next =
      code.toList.drop offset := by
  have hfirst : code.toList.drop offset = code[offset] :: code.toList.drop (offset + 1) := by
    rw [List.drop_eq_getElem_cons (by simpa using h), Array.getElem_toList]
  have hrest : code.toList.drop (read code offset h).next =
      (code.toList.drop (offset + 1)).drop (Opcode.operandsOfWord code[offset]) := by
    rw [List.drop_drop, next_read]
    -- If the operands are cut short, nothing is left of the code behind them on either side.
    rcases Nat.le_total (offset + 1 + Opcode.operandsOfWord code[offset]) code.size with hle | hle
    · rw [Nat.min_eq_left hle]
    · rw [Nat.min_eq_right hle, List.drop_of_length_le (by simp),
        List.drop_of_length_le (by simpa using hle)]
  have hop : (read code offset h).op = code[offset] := rfl
  rw [hfirst, hrest, words, operands_read, hop, List.cons_append, List.take_append_drop]

/-! ## One after another -/

/-- At an offset inside the code there is an instruction, and the others follow it. -/
theorem allFrom_of_lt (h : offset < code.size) :
    allFrom code offset = read code offset h :: allFrom code (read code offset h).next := by
  rw [allFrom, dif_pos h]

/-- From the end of the code on there are no instructions. -/
theorem allFrom_of_le (h : code.size ≤ offset) : allFrom code offset = [] := by
  rw [allFrom, dif_neg (Nat.not_lt.2 h)]

/-- Together the instructions hold the words of the code, in order. -/
theorem flatMap_words_allFrom (code : Array Int64) (offset : Nat) :
    (allFrom code offset).flatMap words = code.toList.drop offset := by
  -- The induction follows the listing itself: from one instruction to the offset where it ends.
  induction offset using allFrom.induct code with
  | case1 offset h i ih =>
    rw [allFrom_of_lt h, List.flatMap_cons, ih, words_append_drop_next]
  | case2 offset h =>
    rw [allFrom_of_le (Nat.not_lt.1 h), List.drop_of_length_le (by simpa using h)]
    rfl

/-- Code is determined by its instructions. -/
theorem allFrom_injective : Function.Injective fun code => allFrom code 0 := by
  intro a b h
  have hwords := congrArg (List.flatMap words) h
  simp only [flatMap_words_allFrom, List.drop_zero] at hwords
  exact Array.toList_inj.1 hwords

/-- Each of the instructions is the one at its offset, which is inside the code. -/
theorem eq_read_of_mem {i : Instruction} (hi : i ∈ allFrom code offset) :
    offset ≤ i.offset ∧ ∃ h, i = read code i.offset h := by
  induction offset using allFrom.induct code with
  | case1 offset h i' ih =>
    rw [allFrom_of_lt h, List.mem_cons] at hi
    rcases hi with rfl | hi
    · exact ⟨Nat.le_refl _, h, rfl⟩
    · obtain ⟨hle, hread⟩ := ih hi
      exact ⟨Nat.le_trans (Nat.le_of_lt (lt_next_read h).1) hle, hread⟩
  | case2 offset h =>
    rw [allFrom_of_le (Nat.not_lt.1 h)] at hi
    cases hi

/-- Each of the instructions has no more operands than its opcode asks for. -/
theorem length_operands_le_of_mem {i : Instruction} (hi : i ∈ allFrom code offset) :
    i.operands.length ≤ Opcode.operandsOfWord i.op := by
  obtain ⟨-, hlt, hread⟩ := eq_read_of_mem hi
  rw [hread]
  exact length_operands_read_le hlt

/-- The instructions after one of them are those from its end on. -/
theorem mem_allFrom_of_mem {i j : Instruction} (hi : i ∈ allFrom code offset)
    (hj : j ∈ allFrom code i.next) : j ∈ allFrom code offset := by
  induction offset using allFrom.induct code with
  | case1 offset h i' ih =>
    rw [allFrom_of_lt h, List.mem_cons] at hi ⊢
    rcases hi with rfl | hi
    · exact .inr hj
    · exact .inr (ih hi)
  | case2 offset h =>
    rw [allFrom_of_le (Nat.not_lt.1 h)] at hi
    cases hi

/-- Where one of the instructions ends, the code ends too or another of them starts. -/
theorem next_mem {i : Instruction} (hi : i ∈ allFrom code offset) :
    i.next = code.size ∨ ∃ j ∈ allFrom code offset, j.offset = i.next := by
  obtain ⟨-, hlt, hread⟩ := eq_read_of_mem hi
  have hnext : i.next ≤ code.size := by
    rw [hread]
    exact (lt_next_read hlt).2
  -- Inside the code the listing goes on with the instruction at that offset.
  rcases Nat.lt_or_eq_of_le hnext with h | h
  · refine .inr ⟨read code i.next h, mem_allFrom_of_mem hi ?_, rfl⟩
    rw [allFrom_of_lt h]
    exact List.mem_cons_self
  · exact .inl h

/-- The offsets of the instructions grow. -/
theorem pairwise_offset_allFrom (code : Array Int64) (offset : Nat) :
    (allFrom code offset).Pairwise fun i j => i.next ≤ j.offset := by
  induction offset using allFrom.induct code with
  | case1 offset h i ih =>
    rw [allFrom_of_lt h]
    exact .cons (fun j hj => (eq_read_of_mem hj).1) ih
  | case2 offset h =>
    rw [allFrom_of_le (Nat.not_lt.1 h)]
    exact .nil

/-- Every word from the offset on is in one of the instructions. -/
theorem exists_mem_allFrom {x : Nat} (hle : offset ≤ x) (hlt : x < code.size) :
    ∃ i ∈ allFrom code offset, i.offset ≤ x ∧ x < i.next := by
  induction offset using allFrom.induct code with
  | case1 offset h i ih =>
    rw [allFrom_of_lt h]
    rcases Nat.lt_or_ge x i.next with hin | hafter
    · exact ⟨i, List.mem_cons_self, hle, hin⟩
    · obtain ⟨j, hj, hx⟩ := ih hafter
      exact ⟨j, List.mem_cons_of_mem _ hj, hx⟩
  | case2 offset h => omega

/-- An instruction ends where the one after it starts, and the last with the code. -/
theorem next_of_getElem? {k : Nat} {i : Instruction} (h : (allFrom code offset)[k]? = some i) :
    i.next = ((allFrom code offset)[k + 1]?.map (·.offset)).getD code.size := by
  induction offset using allFrom.induct code generalizing k
  case case1 offset hlt first ih =>
    rw [allFrom_of_lt hlt] at h ⊢
    cases k with
    | zero =>
      -- After the first instruction comes the one at its end, unless the code ends there.
      obtain rfl : read code offset hlt = i := Option.some.inj h
      rcases Nat.lt_or_eq_of_le (lt_next_read hlt).2 with hmore | hend
      · rw [List.getElem?_cons_succ, allFrom_of_lt hmore]
        rfl
      · rw [List.getElem?_cons_succ, allFrom_of_le (Nat.le_of_eq hend.symm), hend]
        rfl
    | succ k => exact ih h
  case case2 offset hle =>
    rw [allFrom_of_le (Nat.not_lt.1 hle)] at h
    cases h

/-- No word is in two of the instructions. -/
theorem getElem?_unique {k l x : Nat} {i j : Instruction}
    (hi : (allFrom code offset)[k]? = some i) (hj : (allFrom code offset)[l]? = some j)
    (hxi : i.offset ≤ x ∧ x < i.next) (hxj : j.offset ≤ x ∧ x < j.next) : k = l := by
  have hpairs := List.pairwise_iff_getElem.1 (pairwise_offset_allFrom code offset)
  obtain ⟨hk, rfl⟩ := List.getElem?_eq_some_iff.1 hi
  obtain ⟨hl, rfl⟩ := List.getElem?_eq_some_iff.1 hj
  -- Of two instructions the earlier one ends before the later one starts.
  rcases Nat.lt_trichotomy k l with hlt | heq | hgt
  · have hle := hpairs k l hk hl hlt
    omega
  · exact heq
  · have hle := hpairs l k hl hk hgt
    omega

end StackMachine.Instruction
