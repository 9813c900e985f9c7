import StackMachine.Proofs.Decoding

/-!
# Listings show all that is executed

A listing reads the code from its start, one instruction after another. Execution takes its own way
through the code. Still it only ever comes to offsets that have a line, if it starts at one, the
operands that jumps and calls in the listing lead to are such offsets too, and a return goes back to
where some call said.

One step from an offset with a line leads to another or out of the code (`hasLine_step`). A return
is the one instruction about which the step alone says nothing: the address it goes to lies on the
stack. It was pushed by a call that itself had a line, so the line after that call is the one
returned to (`hasLine_iterate`, by induction over all earlier steps).
-/

namespace StackMachine

/-! ## The offsets of the lines -/

namespace Listing

variable {code : Array Int64}

/-- The offsets of the lines of a listing. -/
def offsets (code : Array Int64) : List Nat :=
  (Instruction.allFrom code 0).map (·.offset)

/-- The end of the line with the given number: the offset of the next line, or the end of the
code. -/
def lineEnd (code : Array Int64) (k : Nat) : Nat :=
  (offsets code)[k + 1]?.getD code.size

/-- An offset of the code that has a line. -/
def HasLine (code : Array Int64) (offset : Int) : Prop :=
  ∃ b ∈ offsets code, (b : Int) = offset

/-- An offset has a line if one of the instructions is there. -/
theorem hasLine_of_mem {i : Instruction} (h : i ∈ Instruction.allFrom code 0) :
    HasLine code i.offset :=
  ⟨i.offset, List.mem_map_of_mem h, rfl⟩

/-- At an offset that has a line the listing has the instruction there. -/
theorem HasLine.read_mem {offset : Nat} (h : HasLine code offset) :
    ∃ hlt, Instruction.read code offset hlt ∈ Instruction.allFrom code 0 := by
  obtain ⟨b, hb, heq⟩ := h
  obtain rfl : b = offset := Int.ofNat_inj.1 heq
  obtain ⟨i, hi, rfl⟩ := List.mem_map.1 hb
  obtain ⟨-, hlt, hread⟩ := Instruction.eq_read_of_mem hi
  exact ⟨hlt, hread ▸ hi⟩

/-- The lines are those at their offsets. -/
theorem lines_eq (hcode : code.size < 2^63) :
    lines code = (offsets code).map fun b => (lineAt code (Int64.ofNat b)).1 := by
  rw [lines, offsets, List.map_map]
  refine List.map_congr_left fun i hi => ?_
  obtain ⟨-, hlt, hread⟩ := Instruction.eq_read_of_mem hi
  rw [Function.comp_apply, lineAt_of_lt hcode hlt, ← hread]

/-- A listing is the title line and then the line at each of the offsets. -/
theorem text_eq (hcode : code.size < 2^63) (title : String) :
    text code title = "== " ++ title ++ " ==\n" ++
      String.join ((offsets code).map fun b => (lineAt code (Int64.ofNat b)).1 ++ "\n") := by
  apply String.toList_injective
  rw [toList_text, lines_eq hcode]
  simp [String.toList_join, List.flatMap_def, Function.comp_def]

/-- The offsets of the lines grow. -/
theorem pairwise_offsets (code : Array Int64) : (offsets code).Pairwise (· < ·) := by
  rw [offsets, List.pairwise_map]
  refine (Instruction.pairwise_offset_allFrom code 0).imp_of_mem fun {i j} hi _ hle => ?_
  obtain ⟨-, hlt, hread⟩ := Instruction.eq_read_of_mem hi
  have hnext := (Instruction.lt_next_read hlt).1
  rw [← hread] at hnext
  exact Nat.lt_of_lt_of_le hnext hle

/-- The first line is at the start of the code. -/
theorem head?_offsets (code : Array Int64) :
    (offsets code).head? = if code.size = 0 then none else some 0 := by
  rw [offsets]
  by_cases h : code.size = 0
  · rw [Instruction.allFrom_of_le (Nat.le_of_eq h), if_pos h]
    rfl
  · rw [Instruction.allFrom_of_lt (Nat.pos_of_ne_zero h), if_neg h]
    rfl

/-- The offset of a line is that of an instruction, which ends where the line does. -/
theorem getElem?_offsets {k b : Nat} (h : (offsets code)[k]? = some b) :
    ∃ i, (Instruction.allFrom code 0)[k]? = some i ∧ i.offset = b ∧ i.next = lineEnd code k := by
  rw [offsets, List.getElem?_map] at h
  obtain ⟨i, hi, hb⟩ := Option.map_eq_some_iff.1 h
  refine ⟨i, hi, hb, ?_⟩
  rw [Instruction.next_of_getElem? hi, lineEnd, offsets, List.getElem?_map]

/-- A line starts with its offset, and the next line is where it ends. -/
theorem lineAt_offset (hcode : code.size < 2^63) {k b : Nat} (h : (offsets code)[k]? = some b) :
    (Text.words (lineAt code (Int64.ofNat b)).1).head? = some (Decimal.padded 4 b) ∧
      (lineAt code (Int64.ofNat b)).2.toInt = lineEnd code k := by
  obtain ⟨i, hi, rfl, hend⟩ := getElem?_offsets h
  obtain ⟨-, hlt, hread⟩ := Instruction.eq_read_of_mem (List.mem_of_getElem? hi)
  obtain ⟨hwords, hnext⟩ := lineAt_read hcode hlt
  constructor
  · rw [hwords]
    rfl
  · rw [hnext, ← Instruction.next_read hlt, ← hread, hend]

/-- Every word of the code belongs to one line. -/
theorem existsUnique_line {x : Nat} (hx : x < code.size) :
    ∃! k, ∃ b ∈ (offsets code)[k]?, b ≤ x ∧ x < lineEnd code k := by
  obtain ⟨i, hi, hin⟩ := Instruction.exists_mem_allFrom (Nat.zero_le x) hx
  obtain ⟨k, hk⟩ := List.mem_iff_getElem?.1 hi
  have hb : (offsets code)[k]? = some i.offset := by
    rw [offsets, List.getElem?_map, hk]
    rfl
  obtain ⟨i', hi', -, hend⟩ := getElem?_offsets hb
  obtain rfl : i = i' := Option.some.inj (hk.symm.trans hi')
  refine ⟨k, ⟨i.offset, hb, hin.1, hend ▸ hin.2⟩, ?_⟩
  -- Another line with this word would be that of an instruction which overlaps with the first.
  rintro l ⟨b, hl, hle, hlt⟩
  obtain ⟨j, hj, rfl, hend'⟩ := getElem?_offsets hl
  exact Instruction.getElem?_unique hj hk ⟨hle, hend' ▸ hlt⟩ hin

end Listing

/-! ## Where execution goes -/

/-- The opcodes whose first operand is an offset to go to. -/
def Opcode.hasTarget : Opcode → Bool
  | .jmp | .jmpt | .jmpf | .call => true
  | _ => false

/-- Every jump and call in the listing that has all its operands leads to a line or out of the
code. -/
def Listing.TargetsListed (code : Array Int64) : Prop :=
  ∀ b ∈ offsets code, ∀ op ∈ code[b]?.bind Opcode.ofWord?, op.hasTarget = true →
    b + op.operands < code.size → ∀ target ∈ code[b + 1]?,
      HasLine code target.toInt ∨ ¬ (0 ≤ target.toInt ∧ target.toInt < code.size)

namespace Machine

open Listing

variable {m : Machine} {op : Opcode} {word : Int64} {k : Nat}

/-- Step `j` of the machine, if it is a return after which the machine runs on, goes to the address
that an earlier call has pushed. -/
def ReturnsToCall (m : Machine) (j : Nat) : Prop :=
  (step^[j] m).opcode? = some .ret → (step^[j + 1] m).status = .running →
    ∃ i < j, (step^[i] m).opcode? = some .call ∧
      (step^[i + 1] m).stack.toList.getLast?.map Int64.toInt = some (step^[j + 1] m).pc

/-- Control is transferred to the first operand, or it is a return. -/
theorem transfer?_eq_some {target : Int} (h : m.transfer? op = some target) :
    op = .ret ∨ op.hasTarget = true ∧ 1 ≤ op.operands ∧ target = (Table.operand m 1).toInt := by
  cases op with
  | ret => exact .inl rfl
  | jmp | call => exact .inr ⟨rfl, by decide, (Option.some.inj h).symm⟩
  | jmpt | jmpf =>
    have htaken := (Option.ite_none_right_eq_some.1 h).2
    exact .inr ⟨rfl, by decide, (Option.some.inj htaken).symm⟩
  | add | sub | mul | div | lt | gt | eq | const | load | store | gload | gstore | print | pop
  | halt => cases h

/-- After an instruction that has a line and all its operands comes another that has one, or the end
of the code. -/
theorem hasLine_next (hline : HasLine m.code m.pc) (hw : m.word? m.pc = some word)
    (hop : Opcode.ofWord? word = some op) (hfits : m.pc + 1 + op.operands ≤ m.code.size) :
    HasLine m.code (m.pc + 1 + op.operands) ∨ ¬ m.Inside (m.pc + 1 + op.operands) := by
  obtain ⟨offset, hpc⟩ := Int.eq_ofNat_of_zero_le (inside_of_word? hw).1
  rw [hpc] at hline
  obtain ⟨hlt, hmem⟩ := hline.read_mem
  obtain ⟨_, hat⟩ := getElem_of_word? (hpc ▸ hw)
  have hnext : (Instruction.read m.code offset hlt).next = offset + 1 + op.operands := by
    rw [Instruction.next_read, hat, Opcode.operandsOfWord, hop]
    dsimp only
    omega
  -- The listing goes on where this instruction ends, or the code ends there.
  rcases Instruction.next_mem hmem with hend | ⟨j, hj, hjoffset⟩
  · right
    omega
  · left
    have hline' := hasLine_of_mem hj
    rw [hjoffset, hnext] at hline'
    rw [hpc]
    exact hline'

/-- A jump or a call that has a line leads to another or out of the code. -/
theorem hasLine_target (htargets : TargetsListed m.code) (hline : HasLine m.code m.pc)
    (hw : m.word? m.pc = some word) (hop : Opcode.ofWord? word = some op)
    (hhas : op.hasTarget = true) (hone : 1 ≤ op.operands)
    (hfits : m.pc + 1 + op.operands ≤ m.code.size) :
    HasLine m.code (Table.operand m 1).toInt ∨ ¬ m.Inside (Table.operand m 1).toInt := by
  obtain ⟨b, hb, hpc⟩ := hline
  have hword : m.code[b]?.bind Opcode.ofWord? = some op := by
    rw [← word?_natCast, hpc, hw]
    exact hop
  have htarget : m.code[b + 1]? = some (Table.operand m 1) := by
    have hlt : b + 1 < m.code.size := by omega
    have hoperand : m.word? (m.pc + (1 : Nat)) = m.code[b + 1]? := by
      rw [← hpc, ← word?_natCast]
      rfl
    rw [Table.operand, hoperand, Array.getElem?_eq_getElem hlt]
    rfl
  exact htargets b hb op hword hhas (by omega) _ htarget

/-- A step from an offset that has a line leads to another or out of the code, if a return does. -/
theorem hasLine_step (htargets : TargetsListed m.code) (hready : m.Ready)
    (hw : m.word? m.pc = some word) (hok : m.step.status.fault? = none)
    (hline : HasLine m.code m.pc)
    (hret : m.opcode? = some .ret → HasLine m.code m.step.pc ∨ ¬ m.Inside m.step.pc) :
    HasLine m.code m.step.pc ∨ ¬ m.Inside m.step.pc := by
  obtain ⟨op, hop, hpc⟩ := pc_of_step hready hw hok
  have hfits := operands_le_of_step hready hw hop hok
  -- Execution goes on behind the instruction, or at a target, or where a return leads.
  cases htransfer : m.transfer? op with
  | none =>
    rw [htransfer, Option.getD_none] at hpc
    rw [hpc]
    exact hasLine_next hline hw hop hfits
  | some target =>
    rcases transfer?_eq_some htransfer with rfl | ⟨hhas, hone, rfl⟩
    · apply hret
      rw [opcode?, hw]
      exact hop
    · rw [htransfer, Option.getD_some] at hpc
      rw [hpc]
      exact hasLine_target htargets hline hw hop hhas hone hfits

/-- A machine that runs after `k` steps has dispatched an instruction in each of them, without a
fault. -/
theorem dispatched_of_iterate {i : Nat} (hrun : (step^[k] m).status = .running) (hi : i < k) :
    (step^[i] m).Ready ∧ (∃ word, (step^[i] m).word? (step^[i] m).pc = some word) ∧
      (step^[i] m).step.status.fault? = none := by
  have hbefore := running_of_iterate hrun (Nat.le_of_lt hi)
  have hafter := running_of_iterate hrun (Nat.succ_le_of_lt hi)
  rw [Function.iterate_succ_apply'] at hafter
  obtain ⟨hready, hin⟩ := (isSome_event?_iff _).1 (isSome_event?_of_running hbefore hafter)
  exact ⟨hready, exists_word? hin, by rw [hafter]; rfl⟩

/-- The return address that a call with a line pushes has a line too, or is the end of the code. -/
theorem hasLine_return (hcode : m.code.size < 2^63) (hready : m.Ready)
    (hop : m.opcode? = some .call) (hok : m.step.status.fault? = none) (hline : HasLine m.code m.pc)
    {target : Int} (htarget : m.step.stack.toList.getLast?.map Int64.toInt = some target) :
    HasLine m.code target ∨ ¬ m.Inside target := by
  obtain ⟨word, hw, hword⟩ := Option.bind_eq_some_iff.1 hop
  obtain rfl := Opcode.eq_word hword
  obtain ⟨argc, fp, returnPc, hstack, hreturn⟩ := stack_of_call hcode hready hw hok
  have hlast : m.step.stack.toList.getLast? = some returnPc := by
    rw [hstack]
    simp
  rw [hlast, Option.map_some, hreturn] at htarget
  obtain rfl := Option.some.inj htarget
  exact hasLine_next hline hw hword (operands_le_of_step hready hw hword hok)

/-- A machine that still runs after some steps is at an offset that has a line, or outside the
code. -/
theorem hasLine_iterate (hcode : m.code.size < 2^63) (htargets : TargetsListed m.code)
    (hentry : HasLine m.code m.pc) (hreturns : ∀ j < k, m.ReturnsToCall j)
    (hrun : (step^[k] m).status = .running) :
    HasLine m.code (step^[k] m).pc ∨ ¬ m.Inside (step^[k] m).pc := by
  -- A return reaches back to any earlier call, so all earlier steps are needed.
  induction k using Nat.strong_induction_on with
  | h k ih =>
    cases k with
    | zero => exact .inl hentry
    | succ k =>
      have hcodes (i : Nat) := code_iterate m i
      -- An earlier step dispatched an instruction, so it was inside the code and hence at a line.
      have hearlier (i : Nat) (hi : i < k + 1) : HasLine m.code (step^[i] m).pc := by
        obtain ⟨-, ⟨word, hw⟩, -⟩ := dispatched_of_iterate hrun hi
        have hin := inside_of_word? hw
        rw [Inside, hcodes] at hin
        have hline := ih i hi (fun j hj => hreturns j (Nat.lt_trans hj hi))
          (running_of_iterate hrun (Nat.le_of_lt hi))
        exact hline.resolve_right (not_not_intro hin)
      obtain ⟨hready, ⟨word, hw⟩, hok⟩ := dispatched_of_iterate hrun (Nat.lt_succ_self k)
      have hstep := hasLine_step (m := step^[k] m) (by rw [hcodes]; exact htargets) hready hw hok
        (by rw [hcodes]; exact hearlier k (Nat.lt_succ_self k)) ?_
      · rw [Function.iterate_succ_apply']
        rw [Inside, hcodes] at hstep
        exact hstep
      · -- The call that pushed the address had a line, and the address is where that line ends.
        intro hret
        obtain ⟨i, hi, hcall, hpushed⟩ := hreturns k (Nat.lt_succ_self k) hret hrun
        have hi' := Nat.lt_succ_of_lt hi
        obtain ⟨hready', -, hok'⟩ := dispatched_of_iterate hrun hi'
        rw [Function.iterate_succ_apply', Function.iterate_succ_apply'] at hpushed
        have hback := hasLine_return (by rw [hcodes]; exact hcode) hready' hcall hok'
          (by rw [hcodes]; exact hearlier i hi') hpushed
        rw [Inside, hcodes] at hback ⊢
        exact hback

/-- An instruction that is dispatched after some steps has a line. -/
theorem hasLine_of_ready (hcode : m.code.size < 2^63) (htargets : TargetsListed m.code)
    (hentry : HasLine m.code m.pc) (hreturns : ∀ j < k, m.ReturnsToCall j)
    (hready : (step^[k] m).Ready) (hin : (step^[k] m).Inside (step^[k] m).pc) :
    HasLine m.code (step^[k] m).pc := by
  rw [Inside, code_iterate] at hin
  have hline := hasLine_iterate hcode htargets hentry hreturns hready.running
  exact hline.resolve_right (not_not_intro hin)

/-- An instruction in a trace was dispatched at its offset after fewer steps. -/
theorem exists_of_mem_trace {event : Event} (h : event ∈ m.trace k) :
    ∃ j < k, (step^[j] m).Ready ∧ (step^[j] m).Inside (step^[j] m).pc ∧
      (event.instruction.offset : Int) = (step^[j] m).pc := by
  obtain ⟨j, hj⟩ := Array.mem_iff_getElem?.1 h
  rw [getElem?_trace] at hj
  obtain ⟨hlt, hevent⟩ := Option.ite_none_right_eq_some.1 hj
  obtain ⟨hready, hin⟩ := (isSome_event?_iff _).1 (Option.isSome_of_eq_some hevent)
  refine ⟨j, hlt, hready, hin, ?_⟩
  rw [event?_of_ready hready hin] at hevent
  obtain rfl := Option.some.inj hevent
  exact Int.toNat_of_nonneg hin.1

end Machine

open Machine Listing

/-- Take code whose offsets are words. Its listing is the title line and then a line for each of
some offsets. They grow, the first is the start of the code, if there is any code, and each line
says its offset and ends where the next one starts, the last with the code. So every word of the
code belongs to one line.

Make a machine for the code with an entry that has a line, and suppose that every jump and call in
the listing that has all its operands leads to a line or out of the code. As long as returns go to
addresses that earlier calls have pushed, every instruction that is dispatched has a line, after any
number of steps, and so has every instruction that is reported in a session of steps and runs. -/
theorem listing_covers_execution {code : Array Int64} (hcode : code.size < 2^63) :
    (∀ title, text code title = "== " ++ title ++ " ==\n" ++
      String.join ((offsets code).map fun b => (lineAt code (Int64.ofNat b)).1 ++ "\n")) ∧
    (offsets code).Pairwise (· < ·) ∧
    (offsets code).head? = (if code.size = 0 then none else some 0) ∧
    (∀ k, ∀ b ∈ (offsets code)[k]?,
      (Text.words (lineAt code (Int64.ofNat b)).1).head? = some (Decimal.padded 4 b) ∧
        (lineAt code (Int64.ofNat b)).2.toInt = lineEnd code k) ∧
    (∀ x < code.size, ∃! k, ∃ b ∈ (offsets code)[k]?, b ≤ x ∧ x < lineEnd code k) ∧
    ∀ entry locals options, HasLine code entry → TargetsListed code →
      let m := Machine.new code entry locals options
      (∀ k, (∀ j < k, m.ReturnsToCall j) → (step^[k] m).Ready →
        (step^[k] m).Inside (step^[k] m).pc → HasLine code (step^[k] m).pc) ∧
      ∀ history m', Session m history m' →
        (∀ answer ∈ history, answer.1 = .step ∨ answer.1 = .run) →
        ∃ k, m' = step^[k] m ∧ ((∀ j < k, m.ReturnsToCall j) →
          ∀ event ∈ history.flatMap (·.2.events), HasLine code event.instruction.offset) := by
  refine ⟨text_eq hcode, pairwise_offsets code, head?_offsets code, fun k b => lineAt_offset hcode,
    fun x => existsUnique_line, ?_⟩
  intro entry locals options hentry htargets m
  have hdispatched (k : Nat) (hreturns : ∀ j < k, m.ReturnsToCall j) (hready : (step^[k] m).Ready)
      (hin : (step^[k] m).Inside (step^[k] m).pc) : HasLine code (step^[k] m).pc :=
    hasLine_of_ready hcode htargets hentry hreturns hready hin
  refine ⟨hdispatched, ?_⟩
  intro history m' hsession hdriven
  obtain ⟨k, hend, hevents⟩ := exists_steps_of_session hsession hdriven
  refine ⟨k, hend, fun hreturns event hevent => ?_⟩
  -- Every event of the session is that of one of its steps.
  rw [hevents, Array.mem_toList_iff] at hevent
  obtain ⟨j, hj, hready, hin, hoffset⟩ := exists_of_mem_trace hevent
  rw [hoffset]
  exact hdispatched j (fun i hi => hreturns i (Nat.lt_trans hi hj)) hready hin

/-- A program that calls its last two instructions and halts when they return. Two of its operands
look like opcodes, and have no lines. The halt is dispatched at a line of the listing. -/
theorem listing_covers_execution_call :
    let code := #[Opcode.call.word, 4, 0, Opcode.halt.word, Opcode.const.word, 12, Opcode.ret.word]
    let m := Machine.new code 0 0 {}
    offsets code = [0, 3, 4, 6] ∧ TargetsListed code ∧ (∀ j < 3, m.ReturnsToCall j) ∧
      (step^[2] m).opcode? = some .ret ∧ (step^[3] m).opcode? = some .halt ∧
      HasLine code (step^[3] m).pc := by
  intro code m
  have hcode : code.size < 2^63 := by decide
  have hoffsets : offsets code = [0, 3, 4, 6] := by cbv
  have hline (offset : Nat) (h : offset ∈ [0, 3, 4, 6]) : HasLine code offset :=
    ⟨offset, by rw [hoffsets]; exact h, rfl⟩
  have htargets : TargetsListed code := by
    intro b hb op hop hhas hfits target htarget
    rw [hoffsets] at hb
    simp only [List.mem_cons, List.not_mem_nil, or_false] at hb
    rcases hb with rfl | rfl | rfl | rfl
    · obtain rfl := Option.some.inj htarget
      exact .inl (hline 4 (by decide))
    all_goals
      obtain rfl := Option.some.inj hop
      cases hhas
  have hreturns : ∀ j < 3, m.ReturnsToCall j := by
    intro j hj hret _
    interval_cases j
    · exact absurd hret (by decide +kernel)
    · exact absurd hret (by decide +kernel)
    · exact ⟨0, by decide, by decide +kernel, by decide +kernel⟩
  obtain ⟨-, -, -, -, -, hruns⟩ := listing_covers_execution hcode
  refine ⟨hoffsets, htargets, hreturns, by decide +kernel, by decide +kernel, ?_⟩
  exact (hruns 0 0 {} (hline 0 (by decide)) htargets).1 3 hreturns
    ⟨by decide +kernel, by decide +kernel⟩ (by decide +kernel)

end StackMachine
