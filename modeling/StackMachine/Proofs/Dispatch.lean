import StackMachine.Proofs.Agreement
import StackMachine.Proofs.Invariant

/-!
# Dispatch follows the instruction table

Each instruction is opened action by action and compared with its row of the table: a check that
fails has to be the first one that does, and after the last the state has to be the row's effect.
`execute_agrees` collects the instructions, and `step_of_passes` and `faults_iff` are what the rest
of the theory uses of a step. Both need the machine within its bounds, for the addresses of loads
and stores.
-/

namespace StackMachine

/-- The machine with the opcode `word` fetched and its instruction begun. -/
abbrev Machine.decoded (m : Machine) (word : Int64) : Machine :=
  (m.withPc (m.pc + 1)).withSite ⟨m.pc, word⟩

namespace Table

open StackMachine.Action

variable {m : Machine} {word : Int64}

/-- An operand that is there. -/
theorem operand_eq {k : Nat} {v : Int64} (h : m.word? (m.pc + k) = some v) : operand m k = v := by
  rw [operand, h, Option.getD_some]

/-- The machine that an instruction leaves, by the parts of it that the view shows. -/
theorem view_replaced {k width : Nat} {words : List Int64} (left : Machine)
    (hstack : left.stack.toList = m.stack.toList.take (m.stack.size - k) ++ words)
    (hpc : left.pc = m.pc + width) (hlocals : left.locals = m.locals) (hfp : left.fp = m.fp)
    (hdepth : left.depth = m.depth) (hout : left.out = m.out) :
    left.view = replace m k words width :=
  View.ext hstack (congrArg Array.toList hlocals) hpc hfp hdepth hout

/-- The program counter after one operand. -/
theorem pc_operand : m.pc + 1 + 1 = m.pc + (2 : Nat) := by omega

/-- The program counter after two operands. -/
theorem pc_operands : m.pc + 1 + 1 + 1 = m.pc + 3 := by omega

/-- The first pop of an instruction takes the topmost word. -/
theorem agrees_top {next : Int64 → Action Bool} {rest : List Check} {effect : View} {halts : Bool}
    (left : Machine) (hstack : left.stack = m.stack)
    (h : ∀ s, 0 < m.stack.size → m.stack.Cut (m.stack.size - 1) s →
      Row.Agrees ⟨rest, effect, halts⟩ (next (top m) (left.withStack s))) :
    Row.Agrees ⟨fewer m 1 :: rest, effect, halts⟩ ((pop >>= next) left) :=
  agrees_pop (by rw [hstack]; exact Stack.Cut.refl m.stack) rfl rfl h

/-! ## Jumps and constants -/

/-- A jump follows its row. -/
theorem jmp_agrees : (row m .jmp).Agrees (execute .jmp (m.decoded word)) := by
  rw [row, execute]
  refine agrees_fetch rfl rfl fun v hv => ?_
  rw [operand_eq hv]
  refine agrees_jump v rfl rfl fun _ => ?_
  exact Row.agrees_of_done rfl

/-- A constant follows its row. -/
theorem const_agrees : (row m .const).Agrees (execute .const (m.decoded word)) := by
  rw [row, execute]
  refine agrees_fetch rfl rfl fun v hv => ?_
  rw [operand_eq hv]
  refine agrees_push v rfl rfl fun hroom => Row.agrees_of_done ?_
  exact view_replaced _ (by simp) pc_operand rfl rfl rfl rfl

/-- A conditional jump follows its row, whichever words make it jump. -/
theorem branch_agrees (taken : Bool) :
    (branch m ((top m != 0) == taken)).Agrees
      ((Action.branch taken >>= fun _ => pure false) (m.decoded word)) := by
  rw [branch, Action.branch]
  simp only [bind_assoc]
  refine agrees_fetch rfl rfl fun v hv => ?_
  rw [operand_eq hv]
  refine agrees_top _ rfl fun s _ hcut => ?_
  -- A jump that is not taken passes the check of its target, whatever that is.
  cases (top m != 0) == taken with
  | true =>
    rw [if_pos rfl]
    refine agrees_jump v rfl rfl fun _ => Row.agrees_of_done ?_
    exact View.ext (by simp [replace, Machine.view, hcut.toList_eq]) rfl rfl rfl rfl rfl
  | false =>
    rw [if_neg Bool.false_ne_true]
    refine Row.agrees_of_passes rfl (Row.agrees_of_done ?_)
    exact View.ext (by simp [replace, Machine.view, hcut.toList_eq]) rfl pc_operand rfl rfl rfl

/-! ## Operations on the two topmost words -/

/-- With fewer than two words an operation fails for lack of words. -/
theorem binary_of_fewer (f : Int64 → Int64 → Action Int64) (h : m.stack.size < 2) :
    ∃ fault left, Action.binary f m = .error fault left ∧ fault.kind = .stackUnderflow := by
  unfold Action.binary
  -- The first or the second of the two pops is the one that fails, for the same reason.
  by_cases hpos : 0 < m.stack.size
  · have hempty : (m.stack.pop hpos).size = 0 := by
      rw [Stack.size_pop]
      omega
    refine ⟨{ m.site with reason := .empty }, m.withStack (m.stack.pop hpos), ?_, rfl⟩
    rw [bind_ok (pop_of_pos hpos), bind_error (pop_of_empty hempty), Machine.withStack_site]
  · refine ⟨{ m.site with reason := .empty }, m, ?_, rfl⟩
    rw [bind_error (pop_of_empty (by omega))]

/-- With two words on the stack an operation takes both and pushes its result. -/
theorem binary_of_two (f : Int64 → Int64 → Action Int64) (h : 2 ≤ m.stack.size) :
    ∃ s : Stack, m.stack.Cut (m.stack.size - 2) s ∧
      Action.binary f m = (f (below m) (top m) >>= push) (m.withStack s) := by
  have hpos : 0 < m.stack.size := by omega
  have hcut := (Stack.Cut.refl m.stack).pop hpos
  have hpos' : 0 < (m.stack.pop hpos).size := by
    rw [hcut.size_eq]
    omega
  refine ⟨(m.stack.pop hpos).pop hpos', hcut.pop hpos', ?_⟩
  have htop : m.stack.top hpos = top m := Stack.top_eq_slot _ _
  have hbelow : (m.stack.pop hpos).top hpos' = below m := hcut.top_eq hpos'
  unfold Action.binary
  rw [bind_ok (pop_of_pos hpos), bind_ok (pop_of_pos hpos'), htop]
  dsimp only [Machine.withStack_stack]
  rw [hbelow]

/-- An operation on the two topmost words goes with a check that there are two. -/
theorem agrees_binary {rest : List Check} {effect : View} (f : Int64 → Int64 → Action Int64)
    (h : ∀ s, m.stack.Cut (m.stack.size - 2) s → s.size < s.capacity →
      Row.Agrees ⟨rest, effect, false⟩
        (((f (below m) (top m) >>= push) >>= fun _ => pure false)
          ((m.decoded word).withStack s))) :
    Row.Agrees ⟨fewer m 2 :: rest, effect, false⟩
      ((Action.binary f >>= fun _ => pure false) (m.decoded word)) := by
  by_cases hfewer : m.stack.size < 2
  · obtain ⟨fault, left, hrun, hkind⟩ := binary_of_fewer (m := m.decoded word) f hfewer
    rw [bind_error hrun]
    exact Row.agrees_of_fails (decide_eq_true hfewer) hkind
  · obtain ⟨s, hcut, hrun⟩ := binary_of_two (m := m.decoded word) f (Nat.not_lt.1 hfewer)
    -- The two words that were popped leave room for the result.
    have hroom : s.size < s.capacity := hcut.size_lt_capacity (by dsimp only; omega)
    rw [bind_eq_bind _ hrun]
    exact Row.agrees_of_passes (decide_eq_false hfewer) (h s hcut hroom)

/-- The result of an operation takes the place of the two words. -/
theorem agrees_result {s : Stack} (hcut : m.stack.Cut (m.stack.size - 2) s)
    (hroom : s.size < s.capacity) (v : Int64) :
    Row.Agrees ⟨[], replace m 2 [v] 1, false⟩
      ((push v >>= fun _ => pure false) ((m.decoded word).withStack s)) := by
  rw [bind_ok (push_of_lt v hroom)]
  refine Row.agrees_of_done (view_replaced _ ?_ rfl rfl rfl rfl rfl)
  dsimp only [Machine.withStack_stack]
  rw [Stack.toList_push, hcut.toList_eq]

/-- An operation that cannot fail follows its row. -/
theorem binary_agrees (f : Int64 → Int64 → Int64) :
    (binary m f).Agrees
      ((Action.binary (fun a b => pure (f a b)) >>= fun _ => pure false) (m.decoded word)) := by
  rw [binary]
  refine agrees_binary _ fun s hcut hroom => ?_
  rw [pure_bind]
  exact agrees_result hcut hroom _

/-- A comparison follows its row. -/
theorem compare_agrees (r : Int64 → Int64 → Bool) :
    (binary m fun a b => if r a b then 1 else 0).Agrees
      ((Action.compare r >>= fun _ => pure false) (m.decoded word)) :=
  binary_agrees fun a b => flag (r a b)

/-- The division follows its row. -/
theorem div_agrees : (row m .div).Agrees (execute .div (m.decoded word)) := by
  rw [row, execute]
  refine agrees_binary divide fun s hcut hroom => ?_
  rw [divide, bind_assoc]
  refine agrees_guard rfl rfl fun _ => ?_
  rw [pure_bind]
  exact agrees_result hcut hroom _

/-! ## Loads, stores and the rest of the stack -/

/-- A load from the stack follows its row. -/
theorem load_agrees (hb : m.Bounded) :
    (row m .load).Agrees (execute .load (m.decoded word)) := by
  rw [row, execute]
  refine agrees_fetch rfl rfl fun v hv => ?_
  rw [address, operand_eq hv]
  -- Neither the fetches nor the site touch what `Bounded` is about.
  have hb' : ((m.decoded word).withPc (m.pc + 1 + 1)).Bounded := ⟨hb.capacity_le, hb.fp_lt⟩
  refine agrees_readRelative hb' v rfl rfl ?_
  refine agrees_push _ rfl rfl fun hroom => Row.agrees_of_done ?_
  exact view_replaced _ (by simp) pc_operand rfl rfl rfl rfl

/-- A store into the stack follows its row. -/
theorem store_agrees (hb : m.Bounded) :
    (row m .store).Agrees (execute .store (m.decoded word)) := by
  rw [row, execute]
  refine agrees_fetch rfl rfl fun offset hoffset => ?_
  rw [address, operand_eq hoffset]
  refine agrees_top _ rfl fun s _ hcut => ?_
  have hb' : (((m.decoded word).withPc (m.pc + 1 + 1)).withStack s).Bounded :=
    ⟨Nat.le_trans (Nat.le_of_eq hcut.capacity_eq) hb.capacity_le, hb.fp_lt⟩
  refine agrees_writeRelative hb' offset (top m) ?_ rfl fun hlt => Row.agrees_of_done ?_
  · -- The address is checked against the stack without the word that is stored.
    dsimp only [unoccupied, Machine.withStack_stack]
    rw [hcut.size_eq]
  · refine View.ext ?_ rfl pc_operand rfl rfl rfl
    dsimp only [Machine.view, Machine.withStack_stack]
    rw [Stack.toList_set, hcut.toList_eq]

/-- A load of a local follows its row. -/
theorem gload_agrees : (row m .gload).Agrees (execute .gload (m.decoded word)) := by
  rw [row, execute]
  refine agrees_top _ rfl fun s hpos hcut => ?_
  refine agrees_readLocal (top m) rfl rfl ?_
  -- The word that was popped leaves room for the one that is pushed.
  have hroom : s.size < s.capacity := hcut.size_lt_capacity (by omega)
  rw [bind_ok (push_of_lt _ hroom)]
  refine Row.agrees_of_done (view_replaced _ ?_ rfl rfl rfl rfl rfl)
  dsimp only [Machine.withStack_stack]
  rw [Stack.toList_push, hcut.toList_eq]

/-- A store into a local follows its row. -/
theorem gstore_agrees : (row m .gstore).Agrees (execute .gstore (m.decoded word)) := by
  rw [row, execute]
  refine agrees_top _ rfl fun s _ hcut => ?_
  refine agrees_fetch rfl rfl fun index hindex => ?_
  rw [operand_eq hindex]
  refine agrees_writeLocal index (top m) rfl rfl fun hlt => Row.agrees_of_done ?_
  exact View.ext (by simp [Machine.view, replace, hcut.toList_eq]) (by simp [Machine.view])
    pc_operand rfl rfl rfl

/-- Printing follows its row. -/
theorem print_agrees : (row m .print).Agrees (execute .print (m.decoded word)) := by
  rw [row, execute]
  refine agrees_top _ rfl fun s _ hcut => ?_
  refine agrees_print (top m) rfl rfl (Row.agrees_of_done ?_)
  exact View.ext (by simp [Machine.view, replace, hcut.toList_eq]) rfl rfl rfl rfl rfl

/-- A pop follows its row. -/
theorem pop_agrees : (row m .pop).Agrees (execute .pop (m.decoded word)) := by
  rw [row, execute]
  refine agrees_top _ rfl fun s _ hcut => Row.agrees_of_done ?_
  exact view_replaced _ (by simp [hcut.toList_eq]) rfl rfl rfl rfl rfl

/-- The halt follows its row. -/
theorem halt_agrees : (row m .halt).Agrees (execute .halt (m.decoded word)) := by
  rw [row, execute]
  refine Row.agrees_of_done ?_
  exact view_replaced _ (by simp) rfl rfl rfl rfl rfl

/-! ## Calls and returns -/

/-- The three words of a frame, pushed one after the other onto a stack that has room for them. -/
theorem pushFrame_of_room (argc : Int64) (h : m.stack.size + 3 ≤ m.stack.capacity) :
    ∃ s : Stack, s.toList = m.stack.toList ++ [argc, Int64.ofNat m.fp, Int64.ofInt m.pc] ∧
      s.size = m.stack.size + 3 ∧ ∀ next : Action Bool,
        (do
          push argc
          push (Int64.ofNat (← get).fp)
          push (Int64.ofInt (← get).pc)
          next : Action Bool) m = next (m.withStack s) := by
  have h₁ : m.stack.size < m.stack.capacity := by omega
  have h₂ : (m.stack.push argc h₁).size < (m.stack.push argc h₁).capacity := by
    rw [Stack.size_push, Stack.capacity_push]
    omega
  have h₃ : ((m.stack.push argc h₁).push (Int64.ofNat m.fp) h₂).size <
      ((m.stack.push argc h₁).push (Int64.ofNat m.fp) h₂).capacity := by
    simp only [Stack.size_push, Stack.capacity_push]
    omega
  refine ⟨((m.stack.push argc h₁).push (Int64.ofNat m.fp) h₂).push (Int64.ofInt m.pc) h₃,
    by simp, rfl, fun next => ?_⟩
  rw [bind_ok (push_of_lt argc h₁), get_bind, bind_ok (push_of_lt _ h₂), get_bind,
    bind_ok (push_of_lt _ h₃)]

/-- The three words of a frame, pushed one after the other onto a stack that lacks room for one of
them. -/
theorem pushFrame_of_full (argc : Int64) (h : m.stack.capacity < m.stack.size + 3)
    (next : Action Bool) :
    ∃ fault left,
      (do
        push argc
        push (Int64.ofNat (← get).fp)
        push (Int64.ofInt (← get).pc)
        next : Action Bool) m = .error fault left ∧
      fault.kind = .stackOverflow := by
  -- Whichever of the three pushes has no room, the row has one check for all of them.
  by_cases h₁ : m.stack.size < m.stack.capacity
  · rw [bind_ok (push_of_lt argc h₁), get_bind]
    by_cases h₂ : (m.stack.push argc h₁).size < (m.stack.push argc h₁).capacity
    · have hfull : ((m.stack.push argc h₁).push (Int64.ofNat m.fp) h₂).capacity ≤
          ((m.stack.push argc h₁).push (Int64.ofNat m.fp) h₂).size := by
        simp only [Stack.size_push, Stack.capacity_push]
        omega
      rw [bind_ok (push_of_lt _ h₂), get_bind, bind_error (push_of_full _ hfull)]
      exact ⟨_, _, rfl, rfl⟩
    · rw [bind_error (push_of_full _ (Nat.not_lt.1 h₂))]
      exact ⟨_, _, rfl, rfl⟩
  · rw [bind_error (push_of_full argc (Nat.not_lt.1 h₁))]
    exact ⟨_, _, rfl, rfl⟩

/-- A call follows its row. -/
theorem call_agrees : (row m .call).Agrees (execute .call (m.decoded word)) := by
  rw [row, execute, call]
  simp only [bind_assoc]
  refine agrees_fetch rfl rfl fun target htarget => ?_
  rw [operand_eq htarget]
  have hfetch : (missing m 2).fails = (m.word? (m.pc + 1 + 1)).isNone := by
    rw [pc_operand]
    rfl
  refine agrees_fetch hfetch rfl fun argc hargc => ?_
  have hoperand : operand m 2 = argc := by
    refine operand_eq ?_
    rw [← pc_operand]
    exact hargc
  rw [hoperand, get_bind]
  refine agrees_guard rfl rfl fun _ => ?_
  simp only [bind_assoc]
  by_cases hfull : m.stack.capacity < m.stack.size + 3
  · obtain ⟨fault, left, hrun, hkind⟩ :=
      pushFrame_of_full (m := (m.decoded word).withPc (m.pc + 1 + 1 + 1)) argc hfull _
    rw [hrun]
    exact Row.agrees_of_fails (decide_eq_true hfull) hkind
  · obtain ⟨s, hs, hsize, hrun⟩ :=
      pushFrame_of_room (m := (m.decoded word).withPc (m.pc + 1 + 1 + 1)) argc (Nat.not_lt.1 hfull)
    refine Row.agrees_of_passes (decide_eq_false hfull) ?_
    rw [hrun, modify_bind]
    refine agrees_jump target rfl rfl fun _ => Row.agrees_of_done ?_
    refine View.ext ?_ rfl rfl ?_ rfl rfl
    · have hpc : (m.pc + 1 + 1 + 1 : Int) = m.pc + 3 := pc_operands
      dsimp only [Machine.view, replace, Machine.withPc_stack, Machine.link_stack] at hs ⊢
      rw [hs, Nat.sub_zero, Stack.take_size_toList, hpc]
    · have hfp : s.size - 1 = m.stack.size + 2 := by
        rw [hsize]
        rfl
      exact hfp

/-- A return follows its row. -/
theorem ret_agrees : (row m .ret).Agrees (execute .ret (m.decoded word)) := by
  rw [row, execute, ret]
  simp only [bind_assoc]
  rw [get_bind]
  refine agrees_guard rfl rfl fun _ => ?_
  simp only [bind_assoc]
  refine agrees_top _ rfl fun s₀ _ hcut₀ => ?_
  rw [get_bind, get_bind]
  dsimp only [Machine.withStack_stack]
  rw [hcut₀.size_eq]
  refine agrees_guard rfl rfl fun habove => ?_
  have hfp : m.fp + 1 ≤ m.stack.size - 1 := Nat.not_le.1 habove
  simp only [bind_assoc]
  rw [modify_bind]
  -- The frame is now on top, and its words are popped from where the call left them.
  obtain ⟨s₁, hcut₁, hreturn⟩ :=
    pop_of_cut (m := (m.decoded word).withStack (s₀.truncate (m.fp + 1))) (hcut₀.truncate hfp)
      (Nat.succ_pos _)
  rw [bind_ok hreturn, Nat.add_sub_cancel]
  refine agrees_pop hcut₁ rfl rfl fun s₂ _ hcut₂ => ?_
  rw [Nat.add_sub_cancel] at hcut₂
  -- The row counts from the frame pointer, and the pop from what is left of the stack.
  have hcount : decide (m.fp < 2) = decide (m.fp - 1 < 1) := by
    rw [decide_eq_decide]
    omega
  refine agrees_pop hcut₂ hcount rfl fun s₃ _ hcut₃ => ?_
  replace hcut₃ : m.stack.Cut (m.fp - 2) s₃ := hcut₃
  rw [get_bind]
  dsimp only [Machine.withStack_stack]
  rw [hcut₃.size_eq]
  refine agrees_guard rfl rfl fun hargc => ?_
  simp only [bind_assoc]
  rw [modify_bind]
  refine agrees_guard rfl rfl fun _ => ?_
  simp only [bind_assoc]
  rw [modify_bind]
  refine agrees_jump _ rfl rfl fun _ => ?_
  -- Where the frame was, there is room for the value.
  have hcut₄ := hcut₃.truncate (Nat.sub_le (m.fp - 2) (m.stack.slot (m.fp - 2)).toInt.toNat)
  have hroom := hcut₄.size_lt_capacity (by omega)
  rw [bind_ok (push_of_lt _ hroom)]
  refine Row.agrees_of_done (View.ext ?_ rfl rfl rfl rfl rfl)
  dsimp only [Machine.view, Machine.withStack_stack]
  rw [Stack.toList_push]
  exact congrArg (· ++ [top m]) hcut₄.toList_eq

/-! ## All instructions -/

/-- Every instruction but a load and a store follows its row, on whatever machine. -/
theorem execute_agrees_of_ne {op : Opcode} (hload : op ≠ .load) (hstore : op ≠ .store) :
    (row m op).Agrees (execute op (m.decoded word)) := by
  cases op with
  | add => exact binary_agrees fun a b => a + b
  | sub => exact binary_agrees fun a b => a - b
  | mul => exact binary_agrees fun a b => a * b
  | div => exact div_agrees
  | lt =>
    simpa only [row, execute, decide_eq_true_eq] using compare_agrees fun a b => decide (a < b)
  | gt =>
    simpa only [row, execute, decide_eq_true_eq] using compare_agrees fun a b => decide (b < a)
  | eq =>
    simpa only [row, execute, beq_iff_eq] using compare_agrees fun a b => a == b
  | jmp => exact jmp_agrees
  | jmpt =>
    have htaken : ((top m != 0) == true) = (top m != 0) := by simp
    rw [row, ← htaken]
    exact branch_agrees true
  | jmpf =>
    have htaken : ((top m != 0) == false) = (top m == 0) := by simp [bne]
    rw [row, ← htaken]
    exact branch_agrees false
  | const => exact const_agrees
  | load => exact absurd rfl hload
  | store => exact absurd rfl hstore
  | gload => exact gload_agrees
  | gstore => exact gstore_agrees
  | print => exact print_agrees
  | pop => exact pop_agrees
  | halt => exact halt_agrees
  | call => exact call_agrees
  | ret => exact ret_agrees

/-- Within its bounds, a machine follows the row of every instruction. -/
theorem execute_agrees (hb : m.Bounded) (op : Opcode) :
    (row m op).Agrees (execute op (m.decoded word)) := by
  -- Only loads and stores need the bounds, since only they add an offset to the frame pointer.
  by_cases hload : op = .load
  · rw [hload]
    exact load_agrees hb
  by_cases hstore : op = .store
  · rw [hstore]
    exact store_agrees hb
  exact execute_agrees_of_ne hload hstore

end Table

/-! ## Steps -/

namespace Machine

variable {m : Machine}

/-- Where there is no word, a dispatch fails. -/
theorem dispatch_of_none (hw : m.word? m.pc = none) :
    Action.dispatch m =
      .error { pc := m.pc, op := 0, reason := .fetch m.pc m.code.size }
        (m.withSite ⟨m.pc, 0⟩) := by
  unfold Action.dispatch
  rw [Action.modify_bind, Action.bind_error (Action.fetch_of_none (m := m.withSite ⟨m.pc, 0⟩) hw)]

/-- Where there is a word, a dispatch moves past it and executes the opcode it stands for, or fails
if it stands for none. -/
theorem dispatch_of_some {word : Int64} (hw : m.word? m.pc = some word) :
    Action.dispatch m =
      match Opcode.ofWord? word with
      | some op => Action.execute op (m.decoded word)
      | none => .error { pc := m.pc, op := word, reason := .noOpcode word } (m.decoded word) := by
  unfold Action.dispatch
  rw [Action.modify_bind, Action.bind_ok (Action.fetch_of_some (m := m.withSite ⟨m.pc, 0⟩) hw),
    Action.modify_bind]
  cases Opcode.ofWord? word with
  | some op => rfl
  | none => rfl

/-- A dispatch follows the row of the next instruction. -/
theorem dispatch_agrees (hb : m.Bounded) : m.row.Agrees (Action.dispatch m) := by
  rw [row]
  cases hw : m.word? m.pc with
  | none =>
    rw [dispatch_of_none hw]
    exact Row.agrees_of_fails rfl rfl
  | some word =>
    rw [dispatch_of_some hw]
    dsimp only
    cases Opcode.ofWord? word with
    | none => exact Row.agrees_of_fails rfl rfl
    | some op => exact Table.execute_agrees hb op

/-- A step changes nothing of the setup and counts one instruction. -/
theorem setup_of_step (h : m.Ready) :
    m.step.code = m.code ∧ m.step.entry = m.entry ∧ m.step.budget = m.budget ∧
      m.step.stack.capacity = m.stack.capacity ∧ m.step.steps = m.steps + 1 := by
  obtain ⟨left, status, hsame, hstep⟩ :=
    step_of_ensures h (SameSetup.leads m).dispatch (SameSetup.refl m)
  rw [hstep]
  exact ⟨hsame.code, hsame.entry, hsame.budget, hsame.capacity, congrArg (· + 1) hsame.steps⟩

/-- No step changes the code. -/
theorem code_step (m : Machine) : m.step.code = m.code := by
  obtain hstep | ⟨limit, -, hstep⟩ | hready := m.step_cases
  · rw [hstep]
  · rw [hstep]
  · exact (setup_of_step hready).1

/-- A step has the effect of a row that the dispatch agrees with, if all checks of the row pass, and
halts the machine if the row says so. -/
theorem step_of_agrees {row : Row} (h : m.Ready) (hagrees : row.Agrees (Action.dispatch m))
    (hpass : row.fault? = none) :
    m.step.view = row.effect ∧ m.step.status = if row.halts then .halted else .running := by
  have hsame := (SameSetup.leads m).dispatch m (SameSetup.refl m)
  unfold Row.Agrees at hagrees
  rw [hpass] at hagrees
  rw [step_of_ready h, step.advance]
  cases hrun : Action.dispatch m with
  | error fault left =>
    rw [hrun] at hagrees
    exact hagrees.elim
  | ok halted left =>
    rw [hrun] at hagrees hsame
    obtain ⟨hview, rfl⟩ := hagrees
    cases row.halts with
    | true => exact ⟨hview, rfl⟩
    -- Without a halt the status is the one before the dispatch.
    | false => exact ⟨hview, hsame.status.trans h.running⟩

/-- If all checks of the row pass, a step has its effect, and halts the machine if it says so. -/
theorem step_of_passes (hb : m.Bounded) (h : m.Ready) (hpass : m.row.fault? = none) :
    m.step.view = m.row.effect ∧ m.step.status = if m.row.halts then .halted else .running :=
  step_of_agrees h (dispatch_agrees hb) hpass

/-- If a check of the row fails, a step faults with the kind of the first that does. -/
theorem step_of_fails (hb : m.Bounded) (h : m.Ready) {kind : FaultKind}
    (hfail : m.row.fault? = some kind) :
    ∃ fault, m.step.status = .faulted fault ∧ fault.kind = kind := by
  have hagrees := dispatch_agrees hb
  unfold Row.Agrees at hagrees
  rw [hfail] at hagrees
  rw [step_of_ready h, step.advance]
  cases hrun : Action.dispatch m with
  | error fault left =>
    rw [hrun] at hagrees
    exact ⟨fault, rfl, hagrees⟩
  | ok halted left =>
    rw [hrun] at hagrees
    exact hagrees.elim

/-- A step faults with some kind exactly if that is the kind of the first check that fails. -/
theorem faults_iff (hb : m.Bounded) (h : m.Ready) (kind : FaultKind) :
    (∃ fault, m.step.status = .faulted fault ∧ fault.kind = kind) ↔
      m.row.fault? = some kind := by
  constructor
  · rintro ⟨fault, hstatus, rfl⟩
    cases hrow : m.row.fault? with
    | none =>
      have hstatus' := (step_of_passes hb h hrow).2
      rw [hstatus] at hstatus'
      split at hstatus' <;> cases hstatus'
    | some kind =>
      obtain ⟨fault', hstatus', rfl⟩ := step_of_fails hb h hrow
      rw [hstatus] at hstatus'
      cases hstatus'
      rfl
  · exact step_of_fails hb h

end Machine

/-- One step of a machine in use that is running and has a step left does what the instruction table
says. It faults exactly if a check of the table fails, with the kind of the first one that does.
Otherwise the stack, the locals, the program counter, the frame pointer, the depth and the output
are the table's, the step is counted, the run state changes only on a halt, and all that the machine
was made with stays. -/
theorem step_matches_table {m : Machine} (hreach : m.Reachable) (hready : m.Ready) :
    (∀ kind, (∃ fault, m.step.status = .faulted fault ∧ fault.kind = kind) ↔
      m.row.fault? = some kind) ∧
    (m.row.fault? = none →
      m.step.view = m.row.effect ∧
      m.step.status = (if m.row.halts then .halted else .running) ∧
      m.step.code = m.code ∧ m.step.entry = m.entry ∧ m.step.budget = m.budget ∧
      m.step.stack.capacity = m.stack.capacity ∧ m.step.steps = m.steps + 1) := by
  refine ⟨Machine.faults_iff hreach.bounded hready, fun hpass => ?_⟩
  obtain ⟨hview, hstatus⟩ := Machine.step_of_passes hreach.bounded hready hpass
  exact ⟨hview, hstatus, Machine.setup_of_step hready⟩

/-- On an empty stack and without its operand, a store into a local lacks the word and a store into
the stack the operand. A call that ends the code links a frame that returns to that end. -/
theorem step_matches_table_order :
    (∃ fault, (Machine.new #[Opcode.gstore.word] 0 1).step.status = .faulted fault ∧
      fault.kind = .stackUnderflow) ∧
    (∃ fault, (Machine.new #[Opcode.store.word] 0 1).step.status = .faulted fault ∧
      fault.kind = .invalidProgramCounter) ∧
    (Machine.new #[Opcode.call.word, 0, 0] 0 1).step.view =
      { stack := [0, 0, 3], locals := [0], pc := 0, fp := 2, depth := 1, out := {} } := by
  have hready (code : Array Int64) : (Machine.new code 0 1).Ready := ⟨rfl, rfl⟩
  have hreach (code : Array Int64) := Machine.reachable_new code 0 1 {}
  refine ⟨?_, ?_, ?_⟩
  · exact ((step_matches_table (hreach _) (hready _)).1 _).2 (by decide +kernel)
  · exact ((step_matches_table (hreach _) (hready _)).1 _).2 (by decide +kernel)
  · rw [((step_matches_table (hreach _) (hready _)).2 (by decide +kernel)).1]
    decide +kernel

end StackMachine
