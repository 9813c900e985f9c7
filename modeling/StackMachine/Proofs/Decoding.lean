import StackMachine.Proofs.Budget
import StackMachine.Proofs.Discipline
import StackMachine.Proofs.Listing

/-!
# One reading of the code

How many operands an instruction has is said in three places: in the table of operands, which the
trace and the listing go by, and in the fetches of each instruction. Here they are shown to agree,
at every offset and in particular where the code ends before the last operand.

What an instruction does to the program counter is read off its row of the instruction table
(`effect_pc`). Loads and stores follow their rows only within the bounds of a machine in use, so for
these two the fetches are counted (`Action.Advances`), and nothing here needs the bounds.
-/

namespace StackMachine

namespace Action

variable {α β : Type}

/-! ## How far an action reads -/

/-- Wherever the action succeeds, the program counter has moved on by `k` words. -/
def Advances (a : Action α) (k : Nat) : Prop :=
  ∀ m x m', a m = .ok x m' → m'.pc = m.pc + k

namespace Advances

/-- Returning a value reads nothing. -/
theorem pure (x : α) : (Pure.pure x : Action α).Advances 0 := by
  intro m y m' h
  cases h
  exact (Int.add_zero m.pc).symm

/-- Two actions in a row read what both of them read. -/
theorem bind {a : Action α} {f : α → Action β} {j k : Nat} (ha : a.Advances j)
    (hf : ∀ x, (f x).Advances k) : (a >>= f).Advances (j + k) := by
  intro m y m'' h
  cases hrun : a m with
  | ok x m' =>
    rw [bind_ok hrun] at h
    have hfirst := ha m x m' hrun
    have hsecond := hf x m' y m'' h
    omega
  | error e m' =>
    rw [bind_error hrun] at h
    cases h

/-- A fetch reads one word. -/
theorem fetch : Action.fetch.Advances 1 := by
  intro m v m' h
  unfold Action.fetch at h
  split at h
  · cases h
    rfl
  · cases h

/-- An action that makes one check and then leaves the program counter alone reads nothing. -/
theorem of_check {c : Machine → Prop} [DecidablePred c] {x : ∀ m, c m → α}
    {next : ∀ m, c m → Machine} {reason : Machine → Reason} (hpc : ∀ m h, (next m h).pc = m.pc) :
    Advances (fun m => if h : c m then .ok (x m h) (next m h) else fail (reason m) m) 0 := by
  intro m y m' h
  dsimp only at h
  split at h
  · cases h
    rw [hpc]
    exact (Int.add_zero m.pc).symm
  · cases h

/-- A push reads nothing. -/
theorem push (v : Int64) : (Action.push v).Advances 0 := of_check fun _ _ => rfl

/-- A pop reads nothing. -/
theorem pop : Action.pop.Advances 0 := of_check fun _ _ => rfl

/-- A read relative to the frame pointer reads nothing of the code. -/
theorem readRelative (offset : Int64) : (Action.readRelative offset).Advances 0 := by
  intro m x m' h
  unfold Action.readRelative at h
  split at h
  · cases h
    exact (Int.add_zero m.pc).symm
  · cases h

/-- A write relative to the frame pointer reads nothing of the code. -/
theorem writeRelative (offset v : Int64) : (Action.writeRelative offset v).Advances 0 := by
  intro m x m' h
  unfold Action.writeRelative at h
  split at h
  · cases h
    exact (Int.add_zero m.pc).symm
  · cases h

/-- A load reads its one operand. -/
theorem load : (execute .load).Advances 1 :=
  fetch.bind fun offset => (readRelative offset).bind fun v => (push v).bind fun _ => pure false

/-- A store reads its one operand. -/
theorem store : (execute .store).Advances 1 :=
  fetch.bind fun offset => pop.bind fun v => (writeRelative offset v).bind fun _ => pure false

end Advances

end Action

/-! ## The next program counter -/

namespace Machine

variable {m left : Machine} {op : Opcode} {word : Int64} {halted : Bool}

/-- Where an instruction leads if it does not go on to the next one: jumps that are taken and calls
lead to their first operand, a return to the address in its frame. -/
def transfer? (m : Machine) : Opcode → Option Int
  | .jmp => some (Table.operand m 1).toInt
  | .jmpt => if Table.top m ≠ 0 then some (Table.operand m 1).toInt else none
  | .jmpf => if Table.top m = 0 then some (Table.operand m 1).toInt else none
  | .call => some (Table.operand m 1).toInt
  | .ret => some (m.stack.slot m.fp).toInt
  | _ => none

/-- The rows of the table go on after the operands, except where control is transferred. -/
theorem effect_pc (m : Machine) (op : Opcode) :
    (Table.row m op).effect.pc = (m.transfer? op).getD (m.pc + 1 + op.operands) := by
  cases op with
  | jmpt =>
    by_cases htop : Table.top m = 0
    · simp [Table.row, Table.branch, transfer?, htop, Opcode.operands]
      omega
    · simp [Table.row, Table.branch, transfer?, htop]
  | jmpf =>
    by_cases htop : Table.top m = 0
    · simp [Table.row, Table.branch, transfer?, htop]
    · simp [Table.row, Table.branch, transfer?, htop, Opcode.operands]
      omega
  | jmp => rfl
  | call => rfl
  | ret => rfl
  | add | sub | mul | div | lt | gt | eq | gload | print | pop | halt =>
    simp [Table.row, Table.binary, Table.replace, transfer?, Opcode.operands]
  | const | load | store | gstore =>
    simp [Table.row, Table.replace, transfer?, Opcode.operands]
    omega

/-- An instruction that succeeds goes on after its operands or leads where it transfers control. -/
theorem pc_of_execute (h : Action.execute op (m.decoded word) = .ok halted left) :
    left.pc = (m.transfer? op).getD (m.pc + 1 + op.operands) := by
  -- The rows of a load and a store hold within bounds only, so their fetches are counted instead.
  by_cases hload : op = .load
  · subst hload
    exact Action.Advances.load _ _ _ h
  by_cases hstore : op = .store
  · subst hstore
    exact Action.Advances.store _ _ _ h
  have hagrees : (Table.row m op).Agrees (Action.execute op (m.decoded word)) :=
    Table.execute_agrees_of_ne hload hstore
  rw [h] at hagrees
  rw [← effect_pc]
  exact congrArg View.pc hagrees.of_ok.2

/-- An instruction with an operand missing fails to fetch it; only a store into a local looks for
its word on the stack first. -/
theorem execute_of_truncated (word : Int64) (hin : m.Inside m.pc)
    (h : m.code.size < m.pc + 1 + op.operands) :
    ∃ fault left, Action.execute op (m.decoded word) = .error fault left ∧
      fault.kind = if op = .gstore ∧ m.stack.size = 0 then .stackUnderflow
        else .invalidProgramCounter := by
  have hnone {k : Nat} (hk : m.code.size ≤ m.pc + k) : m.word? (m.pc + k) = none := by
    rw [word?_eq_none_iff]
    omega
  have hfirst (hone : m.code.size ≤ m.pc + 1) :=
    Action.fetch_of_none (m := m.decoded word) (hnone (k := 1) hone)
  cases op with
  | add | sub | mul | div | lt | gt | eq | gload | print | pop | halt | ret =>
    simp only [Opcode.operands] at h
    omega
  | jmp | const | load | store =>
    simp only [Opcode.operands] at h
    exact ⟨_, _, Action.bind_error (hfirst (by omega)), rfl⟩
  | jmpt | jmpf =>
    simp only [Opcode.operands] at h
    exact ⟨_, _, Action.bind_error (Action.bind_error (hfirst (by omega))), rfl⟩
  | gstore =>
    -- The word to store is popped before the operand is fetched.
    simp only [Opcode.operands] at h
    by_cases hempty : m.stack.size = 0
    · have hpop := Action.pop_of_empty (m := m.decoded word) hempty
      exact ⟨_, _, Action.bind_error hpop, by rw [if_pos ⟨rfl, hempty⟩]; rfl⟩
    · have hpop := Action.pop_of_pos (m := m.decoded word) (Nat.pos_of_ne_zero hempty)
      refine ⟨_, _, (Action.bind_ok hpop).trans (Action.bind_error (Action.fetch_of_none ?_)), ?_⟩
      · exact hnone (k := 1) (by omega)
      · rw [if_neg (fun h => hempty h.2)]
        rfl
  | call =>
    -- Both operands may be missing, or only the second.
    simp only [Opcode.operands] at h
    by_cases hone : m.code.size ≤ m.pc + 1
    · exact ⟨_, _, Action.bind_error (Action.bind_error (hfirst hone)), rfl⟩
    · have hinner : m.Inside (m.pc + 1) := by omega
      obtain ⟨target, htarget⟩ := exists_word? hinner
      have hfetch := Action.fetch_of_some (m := m.decoded word) htarget
      refine ⟨_, _, Action.bind_error ((Action.bind_ok hfetch).trans
        (Action.bind_error (Action.fetch_of_none ?_))), rfl⟩
      have hlast := hnone (k := 2) (by omega)
      rw [← Table.pc_operand] at hlast
      exact hlast

/-- A dispatch at a word that does not fault executes the opcode it stands for, and the step leaves
the state that this leaves. -/
theorem execute_of_step (hready : m.Ready) (hw : m.word? m.pc = some word)
    (hok : m.step.status.fault? = none) :
    ∃ op halted left, Opcode.ofWord? word = some op ∧
      Action.execute op (m.decoded word) = .ok halted left ∧ m.step.view = left.view := by
  rw [step_of_ready hready, step.advance, dispatch_of_some hw] at hok ⊢
  cases hop : Opcode.ofWord? word with
  | none =>
    rw [hop] at hok
    cases hok
  | some op =>
    rw [hop] at hok
    dsimp only at hok ⊢
    cases hrun : Action.execute op (m.decoded word) with
    | error fault left =>
      rw [hrun] at hok
      cases hok
    | ok halted left =>
      refine ⟨op, halted, left, rfl, hrun, ?_⟩
      cases halted with
      | true => rfl
      | false => rfl

/-- A step that does not fault goes on after the operands or leads where it transfers control. -/
theorem pc_of_step (hready : m.Ready) (hw : m.word? m.pc = some word)
    (hok : m.step.status.fault? = none) :
    ∃ op, Opcode.ofWord? word = some op ∧
      m.step.pc = (m.transfer? op).getD (m.pc + 1 + op.operands) := by
  obtain ⟨op, halted, left, hop, hrun, hview⟩ := execute_of_step hready hw hok
  refine ⟨op, hop, ?_⟩
  rw [← pc_of_execute hrun]
  exact congrArg View.pc hview

/-- A step at an opcode with an operand missing faults for want of it; only a store into a local
looks for its word on the stack first. -/
theorem fault_of_truncated (hready : m.Ready) (hw : m.word? m.pc = some word)
    (hop : Opcode.ofWord? word = some op) (h : m.code.size < m.pc + 1 + op.operands) :
    ∃ fault, m.step.status = .faulted fault ∧
      fault.kind = if op = .gstore ∧ m.stack.size = 0 then .stackUnderflow
        else .invalidProgramCounter := by
  obtain ⟨fault, left, hrun, hkind⟩ := execute_of_truncated word (inside_of_word? hw) h
  refine ⟨fault, ?_, hkind⟩
  rw [step_of_ready hready, step.advance, dispatch_of_some hw, hop]
  dsimp only
  rw [hrun]

/-- An instruction that does not fault has all its operands. -/
theorem operands_le_of_step (hready : m.Ready) (hw : m.word? m.pc = some word)
    (hop : Opcode.ofWord? word = some op) (hok : m.step.status.fault? = none) :
    m.pc + 1 + op.operands ≤ m.code.size := by
  by_contra hmissing
  obtain ⟨fault, hfault, -⟩ := fault_of_truncated hready hw hop (by omega)
  rw [hfault] at hok
  cases hok

/-- A call that does not fault pushes the argument count, the frame pointer and the offset after its
operands. -/
theorem stack_of_call (hcode : m.code.size < 2^63) (hready : m.Ready)
    (hw : m.word? m.pc = some Opcode.call.word) (hok : m.step.status.fault? = none) :
    ∃ argc fp returnPc, m.step.stack.toList = m.stack.toList ++ [argc, fp, returnPc] ∧
      returnPc.toInt = m.pc + 1 + Opcode.call.operands := by
  refine ⟨Table.operand m 2, Int64.ofNat m.fp, Int64.ofInt (m.pc + 3), ?_, ?_⟩
  · obtain ⟨op, halted, left, hop, hrun, hview⟩ := execute_of_step hready hw hok
    cases hop
    have hagrees : (Table.row m .call).Agrees
        (Action.execute .call (m.decoded Opcode.call.word)) := Table.call_agrees
    rw [hrun] at hagrees
    have hstack := congrArg View.stack (hview.trans hagrees.of_ok.2)
    simpa [Table.row, Table.replace, view] using hstack
  · -- All operands are there, so the offset after them is one of the code or its end.
    have hin := inside_of_word? hw
    have hfits := operands_le_of_step hready hw rfl hok
    simp only [Opcode.operands] at hfits ⊢
    rw [Int64.toInt_ofInt_of_le (by omega) (by omega)]
    omega

/-! ## Events -/

/-- The instruction at the program counter, where there is a word. -/
theorem event?_of_ready (hready : m.Ready) (hin : m.Inside m.pc) :
    m.event? = some
      { step := m.steps
        instruction := Instruction.read m.code m.pc.toNat (by omega)
        sp := m.sp
        fp := m.fp
        depth := m.depth } := by
  have hlt : m.pc.toNat < m.code.size := by omega
  have hnonneg : ¬ m.pc < 0 := by omega
  unfold event?
  rw [hready.running]
  simp [hready.unspent, hnonneg, Instruction.read?, hlt]

/-- A step emits an event exactly if it dispatches an opcode. -/
theorem isSome_event?_iff (m : Machine) : m.event?.isSome ↔ m.Ready ∧ m.Inside m.pc := by
  constructor
  · intro h
    unfold event? at h
    cases hs : m.status with
    | running =>
      rw [hs] at h
      dsimp only at h
      split at h
      · cases h
      · rename_i hleft
        rw [not_or, Bool.not_eq_true] at hleft
        refine ⟨⟨hs, hleft.1⟩, Int.not_lt.1 hleft.2, ?_⟩
        rw [Option.isSome_map, Instruction.read?] at h
        split at h
        · omega
        · cases h
    | halted =>
      rw [hs] at h
      cases h
    | faulted fault =>
      rw [hs] at h
      cases h
  · rintro ⟨hready, hin⟩
    rw [event?_of_ready hready hin]
    rfl

/-- A step after which the machine runs on has emitted an event. -/
theorem isSome_event?_of_running (hrun : m.status = .running) (hnext : m.step.status = .running) :
    m.event?.isSome := by
  have hready : m.Ready := ready_of_step hrun fun fault => by rw [hnext]; exact nofun
  refine (isSome_event?_iff m).2 ⟨hready, ?_⟩
  by_contra hout
  -- Without a word to fetch the step would have faulted.
  have hnone := (m.word?_eq_none_iff m.pc).2 hout
  rw [step_of_ready hready, step.advance, dispatch_of_none hnone] at hnext
  cases hnext

/-- A step at a word emits one event, and its operands are the words after the opcode. -/
theorem stepTraced_of_ready (hready : m.Ready) {offset : Nat} (hpc : m.pc = offset)
    (h : offset < m.code.size) :
    m.stepTraced #[] = (m.step, #[
      { step := m.steps
        instruction := Instruction.read m.code offset h
        sp := m.sp
        fp := m.fp
        depth := m.depth }]) ∧
    ∀ k, (Instruction.read m.code offset h).operands[k]? =
      if k < Opcode.operandsOfWord m.code[offset] then m.word? (m.pc + 1 + k) else none := by
  constructor
  · have hevent := event?_of_ready hready (by omega)
    simp only [hpc, Int.toNat_natCast] at hevent
    rw [stepTraced, hevent]
    rfl
  · intro k
    have hword : m.word? (m.pc + 1 + k) = m.code[offset + 1 + k]? := by
      rw [← word?_natCast, hpc]
      push_cast
      rfl
    rw [Instruction.getElem?_operands_read, hword]

/-! ## Traces -/

/-- As long as the machine runs, every step has emitted an event. -/
theorem size_trace_of_running {k : Nat} (h : (step^[k] m).status = .running) :
    (m.trace k).size = k := by
  induction k with
  | zero => rfl
  | succ k ih =>
    have hrun := running_of_iterate h (Nat.le_succ k)
    rw [Function.iterate_succ_apply'] at h
    obtain ⟨event, hevent⟩ := Option.isSome_iff_exists.1 (isSome_event?_of_running hrun h)
    rw [trace, stepTraced, hevent]
    simp [ih hrun]

/-- No more events are emitted than steps are made. -/
theorem size_trace_le (m : Machine) (k : Nat) : (m.trace k).size ≤ k := by
  induction k with
  | zero => exact Nat.le_refl 0
  | succ k ih =>
    rw [trace, stepTraced]
    split
    · simp [ih]
    · exact Nat.le_succ_of_le ih

/-- The events of a trace are those of its steps, in order. -/
theorem getElem?_trace (m : Machine) (k j : Nat) :
    (m.trace k)[j]? = if j < k then (step^[j] m).event? else none := by
  induction k with
  | zero => rfl
  | succ k ih =>
    rw [trace, stepTraced]
    rcases Nat.lt_trichotomy j k with hlt | rfl | hgt
    · -- An earlier event stays where it is.
      rw [if_pos hlt] at ih
      rw [if_pos (Nat.lt_succ_of_lt hlt), ← ih]
      split
      · rename_i event hevent
        have hready := ((isSome_event?_iff (step^[k] m)).1 (by rw [hevent]; rfl)).1
        have hsize := size_trace_of_running hready.running
        rw [Array.getElem?_push, if_neg (by omega)]
      · rfl
    · rw [if_pos (Nat.lt_succ_self j)]
      cases hevent : (step^[j] m).event? with
      | some event =>
        have hready := ((isSome_event?_iff (step^[j] m)).1 (by rw [hevent]; rfl)).1
        have hsize := size_trace_of_running hready.running
        rw [Array.getElem?_push, if_pos hsize.symm]
      | none =>
        rw [if_neg (Nat.lt_irrefl j)] at ih
        exact ih
    · have hsize := size_trace_le m (k + 1)
      rw [trace, stepTraced] at hsize
      rw [if_neg (by omega)]
      exact Array.getElem?_eq_none (by omega)

/-- Every step that is counted has emitted an event, except for a last one that found no word at the
program counter. -/
theorem steps_eq_size_trace (m : Machine) (k : Nat) :
    (step^[k] m).steps = m.steps + (m.trace k).size ∨
      (step^[k] m).steps = m.steps + (m.trace k).size + 1 ∧ (step^[k] m).status ≠ .running ∧
        ¬ (step^[k] m).Inside (step^[k] m).pc := by
  induction k with
  | zero => exact .inl rfl
  | succ k ih =>
    rw [trace, Function.iterate_succ_apply']
    by_cases hrun : (step^[k] m).status = .running
    · replace ih := ih.resolve_right fun hstop => hstop.2.1 hrun
      by_cases hspent : (step^[k] m).isSpent = true
      · -- The budget is spent: nothing is dispatched and nothing is counted.
        obtain ⟨limit, -, hstep⟩ := step_of_spent hrun hspent
        left
        rw [stepTraced, event?_of_spent hspent, hstep]
        exact ih
      have hready : (step^[k] m).Ready := ⟨hrun, Bool.eq_false_of_not_eq_true hspent⟩
      obtain ⟨hcode, -, -, -, hcount⟩ := setup_of_step hready
      by_cases hin : (step^[k] m).Inside (step^[k] m).pc
      · left
        rw [stepTraced, event?_of_ready hready hin, hcount, ih]
        simp [Nat.add_assoc]
      · have hnone := (word?_eq_none_iff _ _).2 hin
        have hevent : (step^[k] m).event? = none := by
          rw [← Option.not_isSome_iff_eq_none, isSome_event?_iff]
          exact fun h => hin h.2
        right
        rw [stepTraced, hevent]
        refine ⟨by rw [hcount, ih], ?_, ?_⟩
        · rw [step_of_ready hready, step.advance, dispatch_of_none hnone]
          exact Status.noConfusion
        · rw [step_of_ready hready, step.advance, dispatch_of_none hnone]
          exact hin
    · rw [stepTraced_of_stopped hrun, step_of_stopped hrun]
      exact ih

end Machine

open Machine

/-- On code whose offsets are words, take any machine that is running, has a step left and is at a
word of its code. The next step emits one event, with the state before it and the instruction at the
program counter: the word as the opcode and the words after it as operands, as many as the table of
operands says and the code has. The line of the listing at that offset has these operands in this
order, has the remark that some are cut off exactly if the code ends before the last, and the next
line is after the operands or at the end of the code. If an opcode has an operand missing, the step
faults for want of it, or of a word on the stack if it is a store into a local. If the step does not
fault, execution goes on after the operands, or where a jump that is taken, a call or a return
leads, and a call pushes the offset after its operands as the return address.

In a run the events are those of the steps that dispatch an opcode, one each and in order, and all
that are counted do so, except for a last one that found no word to dispatch. -/
theorem decoding_agrees {m : Machine} {word : Int64} (hcode : m.code.size < 2^63)
    (hready : m.Ready) (hword : m.word? m.pc = some word) :
    (∃ i : Instruction,
      m.stepTraced #[] = (m.step, #[
        { step := m.steps, instruction := i, sp := m.sp, fp := m.fp, depth := m.depth }]) ∧
      i.offset = m.pc ∧ i.op = word ∧
      (∀ k, i.operands[k]? =
        if k < Opcode.operandsOfWord word then m.word? (m.pc + 1 + k) else none) ∧
      Text.words (Listing.lineAt m.code (Int64.ofInt m.pc)).1 =
        Decimal.padded 4 m.pc :: Opcode.nameOfWord word :: (i.operands.map Decimal.ofWord ++
          if m.code.size < m.pc + 1 + Opcode.operandsOfWord word then ["<truncated>"] else []) ∧
      (Listing.lineAt m.code (Int64.ofInt m.pc)).2.toInt =
        min (m.pc + 1 + Opcode.operandsOfWord word) m.code.size) ∧
    (∀ op, Opcode.ofWord? word = some op → m.code.size < m.pc + 1 + op.operands →
      ∃ fault, m.step.status = .faulted fault ∧
        fault.kind = if op = .gstore ∧ m.stack.size = 0 then .stackUnderflow
          else .invalidProgramCounter) ∧
    (m.step.status.fault? = none → ∃ op, Opcode.ofWord? word = some op ∧
      m.step.pc = (m.transfer? op).getD (m.pc + 1 + op.operands) ∧
      (op = .call → ∃ argc fp returnPc,
        m.step.stack.toList = m.stack.toList ++ [argc, fp, returnPc] ∧
        returnPc.toInt = m.pc + 1 + op.operands)) ∧
    (∀ reply m', Answers .run m reply m' → ∃ k events,
      m' = step^[k] m ∧ reply = .outcome m'.status events ∧
      (∀ j, events[j]? = if j < k then (step^[j] m).event? else none) ∧
      (∀ j, (step^[j] m).event?.isSome ↔
        (step^[j] m).Ready ∧ (step^[j] m).Inside (step^[j] m).pc) ∧
      (m'.steps = m.steps + events.size ∨
        m'.steps = m.steps + events.size + 1 ∧ ¬ m'.Inside m'.pc)) := by
  have hin : m.Inside m.pc := inside_of_word? hword
  obtain ⟨offset, hpc⟩ := Int.eq_ofNat_of_zero_le hin.1
  obtain ⟨hlt, hat⟩ := getElem_of_word? (hpc ▸ hword)
  refine ⟨?_, ?_, ?_, ?_⟩
  · obtain ⟨htraced, hoperands⟩ := stepTraced_of_ready hready hpc hlt
    obtain ⟨hwords, hnext⟩ := Listing.lineAt_read hcode hlt
    have htruncated : (Instruction.read m.code offset hlt).isTruncated = true ↔
        (m.code.size : Int) < offset + 1 + Opcode.operandsOfWord word := by
      rw [Instruction.isTruncated_read_iff hlt, hat]
      omega
    rw [hat] at hoperands hnext
    refine ⟨Instruction.read m.code offset hlt, htraced, hpc.symm, hat, hoperands, ?_, ?_⟩
    · rw [hpc, Int64.ofInt_eq_ofNat, hwords, Listing.fields,
        if_congr htruncated rfl rfl, ← hat]
      rfl
    · rw [hpc, Int64.ofInt_eq_ofNat, hnext]
      omega
  · intro op hop htruncated
    exact fault_of_truncated hready hword hop htruncated
  · intro hok
    obtain ⟨op, hop, hpc'⟩ := pc_of_step hready hword hok
    refine ⟨op, hop, hpc', ?_⟩
    rintro rfl
    rw [Opcode.eq_word hop] at hword
    exact stack_of_call hcode hready hword hok
  · intro reply m' hanswer
    obtain ⟨k, hstop, rfl, rfl⟩ := exists_steps_of_run hanswer
    refine ⟨k, m.trace k, rfl, rfl, getElem?_trace m k, fun j => isSome_event?_iff _, ?_⟩
    exact (steps_eq_size_trace m k).imp_right fun h => ⟨h.1, h.2.2⟩

/-- A call at the end of the code with one of its two operands: the event has that one, the listing
ends there, and the step faults. -/
theorem decoding_agrees_truncated_call :
    let m := Machine.new #[Opcode.halt.word, Opcode.call.word, 7] 1 0 {}
    m.Ready ∧ m.word? m.pc = some Opcode.call.word ∧
    (∃ i : Instruction, (m.stepTraced #[]).2.map (·.instruction) = #[i] ∧ i.operands[0]? = some 7 ∧
      i.operands[1]? = none) ∧
    (Listing.lineAt m.code 1).2.toInt = 3 ∧
    ∃ fault, m.step.status = .faulted fault ∧ fault.kind = .invalidProgramCounter := by
  intro m
  have hready : m.Ready := ⟨rfl, rfl⟩
  have hword : m.word? m.pc = some Opcode.call.word := by decide +kernel
  obtain ⟨⟨i, hevent, -, -, hoperands, -, hnext⟩, htruncated, -⟩ :=
    decoding_agrees (by decide) hready hword
  refine ⟨hready, hword, ⟨i, ?_, ?_, ?_⟩, hnext, htruncated .call rfl (by decide)⟩
  · simp [hevent]
  · exact hoperands 0
  · exact hoperands 1

end StackMachine
