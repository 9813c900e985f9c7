import StackMachine.Proofs.Dispatch

/-!
# Frame discipline

Frames lie on the operand stack among the data, so an instruction may pop or overwrite them. A
machine is disciplined when its next instruction leaves the frames alone: it pops only above the
frame pointer, stores only there or into the arguments of its own frame, and calls only with
arguments from there. Returns are free.

`Moves` lists what a disciplined step that does not fault can do to the frames, in terms of slots:
it stays in the frame, opens one, or closes one. `moves_of_step` derives this from the instruction
table once for all instructions.
-/

namespace StackMachine

/-! ## The discipline -/

/-- How many words an instruction other than a return takes off the stack. -/
def Opcode.pops : Opcode → Nat
  | .add | .sub | .mul | .div | .lt | .gt | .eq => 2
  | .jmpt | .jmpf | .store | .gload | .gstore | .print | .pop => 1
  | .jmp | .const | .load | .halt | .call | .ret => 0

namespace Machine

/-- The opcode at the program counter, if there is one. -/
def opcode? (m : Machine) : Option Opcode :=
  (m.word? m.pc).bind Opcode.ofWord?

/-- Where there is a word, the opcode is that of the word. -/
theorem opcode?_of_word {m : Machine} {word : Int64} (hw : m.word? m.pc = some word) :
    m.opcode? = Opcode.ofWord? word := by
  rw [opcode?, hw, Option.bind_some]

/-- The `k` topmost slots are above the frame pointer. -/
abbrev Above (m : Machine) (k : Nat) : Prop :=
  k = 0 ∨ m.fp + k < m.stack.size

/-- A slot that holds an argument of the current frame, by the count in the frame. -/
abbrev OwnArgument (m : Machine) (i : Int) : Prop :=
  m.fp - 2 - (m.stack.slot (m.fp - 2)).toInt ≤ i ∧ i ≤ m.fp - 3

/-- The next instruction leaves the frames alone, if any is open. -/
structure Disciplined (m : Machine) : Prop where
  /-- Only a return pops at or below the frame pointer. -/
  pops : 0 < m.depth → ∀ op ∈ m.opcode?, op ≠ .ret → m.Above op.pops
  /-- A store writes above the frame pointer or into an argument. -/
  store : 0 < m.depth → .store ∈ m.opcode? →
    m.fp < Table.address m ∨ m.OwnArgument (Table.address m)
  /-- The arguments of a call are above the frame pointer. -/
  call : 0 < m.depth → .call ∈ m.opcode? → m.Above (Table.operand m 2).toInt.toNat

/-- Discipline can be checked. -/
instance (m : Machine) : Decidable m.Disciplined :=
  decidable_of_iff
    ((0 < m.depth → ∀ op ∈ m.opcode?, op ≠ .ret → m.Above op.pops) ∧
      (0 < m.depth → .store ∈ m.opcode? →
        m.fp < Table.address m ∨ m.OwnArgument (Table.address m)) ∧
      (0 < m.depth → .call ∈ m.opcode? → m.Above (Table.operand m 2).toInt.toNat))
    ⟨fun ⟨pops, store, call⟩ => ⟨pops, store, call⟩, fun h => ⟨h.pops, h.store, h.call⟩⟩

end Machine

/-- The three words of a frame at slot `f` that was opened from the frame pointer `saved` with
`argc` arguments: the argument count, the saved frame pointer, and a return address at most `limit`.
The arguments fit below. -/
structure Frame (s : Stack) (limit f saved argc : Nat) : Prop where
  argc_eq : (s.slot (f - 2)).toInt = argc
  saved_eq : (s.slot (f - 1)).toInt = saved
  return_nonneg : 0 ≤ (s.slot f).toInt
  return_le : (s.slot f).toInt ≤ limit
  args_le : argc + 2 ≤ f

namespace Machine

/-- From `m` to `m'` the machine stays in its frame. If one is open, the words up to the frame
pointer are kept, except for the frame's arguments. -/
structure Stays (m m' : Machine) : Prop where
  depth_eq : m'.depth = m.depth
  fp_eq : m'.fp = m.fp
  fp_lt : 0 < m.depth → m.fp < m.stack.size → m.fp < m'.stack.size
  kept : 0 < m.depth → m.fp < m.stack.size →
    ∀ i ≤ m.fp, ¬ m.OwnArgument i → m'.stack.slot i = m.stack.slot i

/-- From `m` to `m'` the machine opens a frame with `argc` arguments on top of its stack. -/
structure Opens (m m' : Machine) (argc : Nat) : Prop where
  depth_eq : m'.depth = m.depth + 1
  fp_eq : m'.fp = m.stack.size + 2
  size_eq : m'.stack.size = m.stack.size + 3
  kept : ∀ i < m.stack.size, m'.stack.slot i = m.stack.slot i
  frame : Frame m'.stack m.code.size (m.stack.size + 2) m.fp argc
  return_eq : (m'.stack.slot (m.stack.size + 2)).toInt = m.pc + 3

/-- From `m` to `m'` the machine closes its frame and drops the arguments, as the words of the frame
say, and only the value above the frame is left of it. -/
structure Closes (m m' : Machine) : Prop where
  opcode_eq : m.opcode? = some .ret
  depth_eq : m.depth = m'.depth + 1
  value_above : m.fp + 1 < m.stack.size
  stack_eq : m'.stack.toList =
    m.stack.toList.take (m.fp - 2 - (m.stack.slot (m.fp - 2)).toInt.toNat) ++ [Table.top m]
  fp_eq : (m'.fp : Int) = (m.stack.slot (m.fp - 1)).toInt
  pc_eq : m'.pc = (m.stack.slot m.fp).toInt

/-- What a disciplined step can do to the frames. The arguments of a frame that it opens are above
the frame that was open before. -/
inductive Moves (m m' : Machine) : Prop where
  | stays (h : Stays m m')
  | opens (argc : Nat) (h : Opens m m' argc)
      (above : 0 < m.depth → m.fp < m.stack.size → m.fp + argc < m.stack.size)
  | closes (h : Closes m m')

end Machine

/-! ## Steps that do not fault -/

/-- A row has no fault exactly if all its checks pass. -/
theorem Row.fault?_eq_none_iff (row : Row) :
    row.fault? = none ↔ ∀ check ∈ row.checks, check.fails = false := by
  unfold Row.fault?
  simp only [Option.map_eq_none_iff, List.find?_eq_none, Bool.not_eq_true]

namespace Machine

variable {m m' : Machine}

/-- The row of the next instruction is that of its opcode. -/
theorem row_of_opcode {op : Opcode} (h : m.opcode? = some op) : m.row = Table.row m op := by
  obtain ⟨word, hw, hop⟩ := Option.bind_eq_some_iff.1 h
  rw [row, hw]
  dsimp only
  rw [hop]

/-- If a running machine steps without a fault, there was an instruction, all its checks passed, and
the step had its effect. -/
theorem row_of_step (hb : m.Bounded) (hrun : m.status = .running)
    (hok : m.step.status.fault? = none) :
    ∃ op, m.opcode? = some op ∧ (∀ check ∈ (Table.row m op).checks, check.fails = false) ∧
      m.step.view = (Table.row m op).effect := by
  -- A spent budget would have been a fault.
  have hready : m.Ready := by
    refine ready_of_step hrun fun fault hfault => ?_
    rw [hfault] at hok
    cases hok
  have hpass : m.row.fault? = none := by
    cases hrow : m.row.fault? with
    | none => rfl
    | some kind =>
      obtain ⟨fault, hfault, -⟩ := step_of_fails hb hready hrow
      rw [hfault] at hok
      cases hok
  have hview := (step_of_passes hb hready hpass).1
  cases hop : m.opcode? with
  | some op =>
    rw [row_of_opcode hop] at hpass hview
    exact ⟨op, rfl, (Row.fault?_eq_none_iff _).1 hpass, hview⟩
  | none =>
    -- Without an opcode the row has one check, and it fails.
    exfalso
    unfold row at hpass
    cases hw : m.word? m.pc with
    | none =>
      rw [hw] at hpass
      cases hpass
    | some word =>
      rw [opcode?_of_word hw] at hop
      rw [hw] at hpass
      dsimp only at hpass
      rw [hop] at hpass
      cases hpass

/-- No other instruction halts the machine. -/
theorem halts_of_ne {op : Opcode} (hop : op ≠ .halt) : (Table.row m op).halts = false := by
  cases op with
  | halt => exact absurd rfl hop
  | add | sub | mul | div | lt | gt | eq | jmp | jmpt | jmpf | const | load | store | gload | gstore
  | print | pop | call | ret => rfl

/-- A machine halts at a halt. -/
theorem opcode?_of_halted (hb : m.Bounded) (hrun : m.status = .running)
    (hhalted : m.step.status = .halted) : m.opcode? = some .halt := by
  have hok : m.step.status.fault? = none := by
    rw [hhalted]
    rfl
  have hready : m.Ready := by
    refine ready_of_step hrun fun fault hfault => ?_
    rw [hfault] at hhalted
    cases hhalted
  obtain ⟨op, hop, hchecks, -⟩ := row_of_step hb hrun hok
  have hpass : m.row.fault? = none := by
    rw [row_of_opcode hop]
    exact (Row.fault?_eq_none_iff _).2 hchecks
  have hstatus := (step_of_passes hb hready hpass).2
  rw [hhalted, row_of_opcode hop] at hstatus
  by_cases hhalt : op = .halt
  · rw [hop, hhalt]
  · rw [halts_of_ne hhalt] at hstatus
    cases hstatus

/-- An instruction other than a store, a call and a return takes its words off the stack and may
push others. -/
theorem effect_of_plain {op : Opcode} (hstore : op ≠ .store) (hcall : op ≠ .call)
    (hret : op ≠ .ret) :
    ∃ words, (Table.row m op).effect.stack =
        m.stack.toList.take (m.stack.size - op.pops) ++ words ∧
      (Table.row m op).effect.fp = m.fp ∧ (Table.row m op).effect.depth = m.depth := by
  cases op with
  | store => exact absurd rfl hstore
  | call => exact absurd rfl hcall
  | ret => exact absurd rfl hret
  | jmp => exact ⟨[], by simp [Table.row, Opcode.pops, view], rfl, rfl⟩
  | add | sub | mul | div | lt | gt | eq | jmpt | jmpf | const | load | gload | gstore | print
  | pop | halt => exact ⟨_, rfl, rfl, rfl⟩

/-- A call that does not fault opens a frame with as many arguments as its operand says. -/
theorem opens_of_call (hb : m.Bounded) (hcode : m.code.size < 2^63) (hrun : m.status = .running)
    (hok : m.step.status.fault? = none) (hop : m.opcode? = some .call) :
    ∃ argc : Nat, (Table.operand m 2).toInt = argc ∧ m.Opens m.step argc := by
  obtain ⟨op, hop', hpass, hview⟩ := row_of_step hb hrun hok
  rw [hop] at hop'
  cases hop'
  simp only [Table.row, List.forall_mem_cons] at hpass
  obtain ⟨-, hoperand, hargc, hroom, -, -⟩ := hpass
  simp only [decide_eq_false_iff_not, not_or, not_lt] at hargc
  -- The count has been checked, so that it is a natural number.
  obtain ⟨argc, hargc'⟩ := Int.eq_ofNat_of_zero_le hargc.1
  -- The return address is an offset of the code or its end, so it is a word.
  have hend : 0 ≤ m.pc + 3 ∧ m.pc + 3 ≤ m.code.size := by
    obtain ⟨word, hw, -⟩ := Option.bind_eq_some_iff.1 hop
    have hpc := inside_of_word? hw
    have hlast : m.Inside (m.pc + (2 : Nat)) := by
      have hnone : (m.word? (m.pc + (2 : Nat))).isNone = false := hoperand
      rw [← word?_isSome_iff, ← Option.not_isNone, hnone]
      rfl
    omega
  have hreturn : (Int64.ofInt (m.pc + 3)).toInt = m.pc + 3 :=
    Int64.toInt_ofInt_of_le (by omega) (by omega)
  have hsaved : (Int64.ofNat m.fp).toInt = m.fp :=
    Int64.toInt_ofNat_of_lt (Nat.lt_trans hb.fp_lt (by decide))
  have hstack : m.step.stack.toList = m.stack.toList ++
      [Table.operand m 2, Int64.ofNat m.fp, Int64.ofInt (m.pc + 3)] := by
    have heq := congrArg View.stack hview
    simpa [Table.row, Table.replace, view] using heq
  have hslot := Stack.slot_add_of_append hstack
  have htake : m.step.stack.toList = m.stack.toList.take m.stack.size ++
      [Table.operand m 2, Int64.ofNat m.fp, Int64.ofInt (m.pc + 3)] := by
    rw [hstack, Stack.take_size_toList]
  have hreturn' : (m.step.stack.slot (m.stack.size + 2)).toInt = m.pc + 3 := by
    rw [hslot 2]
    exact hreturn
  refine ⟨argc, hargc', ?_⟩
  exact
    { depth_eq := congrArg View.depth hview
      fp_eq := congrArg View.fp hview
      size_eq := Stack.size_of_append (Nat.le_refl _) htake
      kept := fun i hi => Stack.slot_of_append (Nat.le_refl _) htake hi
      frame :=
        { argc_eq := (congrArg Int64.toInt (hslot 0)).trans hargc'
          saved_eq := (congrArg Int64.toInt (hslot 1)).trans hsaved
          return_nonneg := hreturn' ▸ hend.1
          return_le := hreturn' ▸ hend.2
          args_le := by omega }
      return_eq := hreturn' }

/-- A return that does not fault sets the frame pointer to the saved word itself: the word has been
checked, so that nothing is cut off where it is read as a slot. -/
theorem fp_of_ret (hpass : ∀ check ∈ (Table.row m .ret).checks, check.fails = false)
    (hview : m'.view = (Table.row m .ret).effect) :
    (m'.fp : Int) = (m.stack.slot (m.fp - 1)).toInt := by
  simp only [Table.row, List.forall_mem_cons, decide_eq_false_iff_not, not_or, not_lt] at hpass
  obtain ⟨-, -, -, -, -, -, hsaved, -⟩ := hpass
  have hfp : m'.fp = (m.stack.slot (m.fp - 1)).toInt.toNat := congrArg View.fp hview
  rw [hfp, Int.toNat_of_nonneg hsaved.1]

/-- A return that does not fault closes the frame. -/
theorem closes_of_ret (hop : m.opcode? = some .ret)
    (hpass : ∀ check ∈ (Table.row m .ret).checks, check.fails = false)
    (hview : m'.view = (Table.row m .ret).effect) : m.Closes m' := by
  have hfp := fp_of_ret hpass hview
  simp only [Table.row, List.forall_mem_cons, decide_eq_false_iff_not, not_le] at hpass
  obtain ⟨hdepth, -, habove, -⟩ := hpass
  have hdepth' : m'.depth = m.depth - 1 := congrArg View.depth hview
  exact
    { opcode_eq := hop
      depth_eq := by omega
      value_above := by omega
      stack_eq := congrArg View.stack hview
      fp_eq := hfp
      pc_eq := congrArg View.pc hview }

/-- A disciplined store stays in the frame. -/
theorem stays_of_store (hd : m.Disciplined) (hop : m.opcode? = some .store)
    (hpass : ∀ check ∈ (Table.row m .store).checks, check.fails = false)
    (hview : m'.view = (Table.row m .store).effect) : m.Stays m' := by
  simp only [Table.row, List.forall_mem_cons, Table.unoccupied, decide_eq_false_iff_not,
    not_not] at hpass
  obtain ⟨-, -, haddress, -⟩ := hpass
  have hstack : m'.stack.toList =
      (m.stack.toList.take (m.stack.size - 1)).set (Table.address m).toNat (Table.top m) :=
    congrArg View.stack hview
  have habove (hopen : 0 < m.depth) : m.fp + 1 < m.stack.size := by
    have hpops := hd.pops hopen .store hop (by decide)
    exact hpops.resolve_left (by decide)
  refine ⟨congrArg View.depth hview, congrArg View.fp hview, fun hopen _ => ?_, ?_⟩
  · have hlt := habove hopen
    rw [← m'.stack.length_toList, hstack, List.length_set, List.length_take,
      Stack.length_toList]
    omega
  · intro hopen _ i hi hown
    have hlt := habove hopen
    -- The slot that is written is above the frame pointer or an argument, so it is not this one.
    have hne : (Table.address m).toNat ≠ i := by
      rintro rfl
      rw [Int.toNat_of_nonneg haddress.1] at hown
      rcases hd.store hopen hop with hlt | hmem
      · omega
      · exact hown hmem
    rw [Stack.slot, hstack, List.getElem?_set_ne hne, List.getElem?_take, if_pos (by omega),
      Stack.slot]

/-- Any other disciplined instruction stays in the frame. -/
theorem stays_of_plain {op : Opcode} (hd : m.Disciplined) (hop : m.opcode? = some op)
    (hstore : op ≠ .store) (hcall : op ≠ .call) (hret : op ≠ .ret)
    (hview : m'.view = (Table.row m op).effect) : m.Stays m' := by
  obtain ⟨words, hstack, hfp, hdepth⟩ := effect_of_plain (m := m) hstore hcall hret
  replace hstack : m'.stack.toList = m.stack.toList.take (m.stack.size - op.pops) ++ words :=
    (congrArg View.stack hview).trans hstack
  -- What is popped lies above the frame pointer, and what is pushed comes on top of the rest.
  have habove (hopen : 0 < m.depth) (hlt : m.fp < m.stack.size) :
      m.fp < m.stack.size - op.pops := by
    rcases hd.pops hopen op hop hret with hzero | hpops
    · rw [hzero]
      exact hlt
    · omega
  refine ⟨(congrArg View.depth hview).trans hdepth, (congrArg View.fp hview).trans hfp, ?_, ?_⟩
  · intro hopen hlt
    rw [Stack.size_of_append (Nat.sub_le _ _) hstack]
    exact Nat.lt_add_right _ (habove hopen hlt)
  · intro hopen hlt i hi _
    exact Stack.slot_of_append (Nat.sub_le _ _) hstack (Nat.lt_of_le_of_lt hi (habove hopen hlt))

/-- A disciplined step that does not fault stays in the frame, opens one or closes one. -/
theorem moves_of_step (hb : m.Bounded) (hcode : m.code.size < 2^63) (hd : m.Disciplined)
    (hok : m.step.status.fault? = none) : m.Moves m.step := by
  by_cases hrun : m.status = .running
  · obtain ⟨op, hop, hpass, hview⟩ := row_of_step hb hrun hok
    -- Three opcodes have rules of their own, and the others share one.
    by_cases hcall : op = .call
    · subst hcall
      obtain ⟨argc, hargc, hopens⟩ := opens_of_call hb hcode hrun hok hop
      refine .opens argc hopens fun hopen hlt => ?_
      have habove := hd.call hopen hop
      rw [Above, hargc, Int.toNat_natCast] at habove
      omega
    by_cases hret : op = .ret
    · subst hret
      exact .closes (closes_of_ret hop hpass hview)
    by_cases hstore : op = .store
    · subst hstore
      exact .stays (stays_of_store hd hop hpass hview)
    · exact .stays (stays_of_plain hd hop hstore hcall hret hview)
  · -- A machine that has stopped does not move at all.
    rw [step_of_stopped hrun]
    exact .stays ⟨rfl, rfl, fun _ hlt => hlt, fun _ _ _ _ _ => rfl⟩

end Machine

end StackMachine
