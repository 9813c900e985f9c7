import StackMachine.Proofs.Supply

/-!
# More resources do no harm

A program that halts has never fallen short of anything, so it halts in the same way with more code
after it, more locals, a larger stack and any budget that its steps fit in. A program that faults
for another reason than a full stack faults in the same way with a larger one. Sizes that are asked
for are moved into their range first, which keeps their order.
-/

namespace StackMachine

namespace Machine

/-! ## New machines with a supply -/

/-- Moving sizes into their range keeps their order. -/
theorem clamp_le_clamp (limit : Nat) {size size' : Int} (h : size ≤ size') :
    clamp limit size ≤ clamp limit size' := by
  unfold clamp
  omega

/-- What a machine is supplied with when larger sizes are asked for. -/
def supplyFor (ext : Array Int64) (locals locals' : Int) (options options' : Options) : Supply where
  code := ext
  locals := clamp maxLocals locals' - clamp maxLocals locals
  cells := clamp maxCapacity options'.stackCapacity - clamp maxCapacity options.stackCapacity
  budget := budgetOf options'.maxSteps

/-- Asking for larger sizes makes the same machine as supplying it with what they add. -/
theorem supply_new (code ext : Array Int64) (entry : Int) {locals locals' : Int}
    {options options' : Options} (hlocals : locals ≤ locals')
    (hcapacity : options.stackCapacity ≤ options'.stackCapacity)
    (hout : options'.out = options.out) :
    (new code entry locals options).supply (supplyFor ext locals locals' options options') =
      new (code ++ ext) entry locals' options' := by
  have hl := clamp_le_clamp maxLocals hlocals
  have hc := clamp_le_clamp maxCapacity hcapacity
  unfold supply new supplyFor
  dsimp only
  rw [Stack.extend_empty, Array.replicate_append_replicate, Nat.add_sub_cancel' hl,
    Nat.add_sub_cancel' hc, hout]
  rfl

/-! ## Programs that halt -/

variable {m : Machine} {s : Supply} {k : Nat}

/-- A machine that halts after `k` steps is the same with any supply whose budget they fit in. -/
theorem iterate_supply_of_halted (hhalted : (step^[k] m).status = .halted)
    (hfits : ∀ limit, s.budget = some limit → (step^[k] m).steps ≤ limit) :
    step^[k] (m.supply s) = (step^[k] m).supply s := by
  refine iterate_supply fun j hj => ?_
  rw [Function.iterate_succ_apply']
  by_cases hrun : (step^[j] m).status = .running
  · -- The step does not fault, or the machine would not have halted later.
    have hok : ∀ fault, (step^[j] m).step.status ≠ .faulted fault := by
      intro fault hfault
      rw [← Function.iterate_succ_apply' step] at hfault
      have hlater := faulted_iterate hfault (Nat.succ_le_of_lt hj)
      rw [hhalted] at hlater
      cases hlater
    have hready := ready_of_step hrun hok
    -- It is counted, and no more steps are counted in all than the budget allows.
    have hunspent : ((step^[j] m).supply s).isSpent = false := by
      refine isSpent_supply fun limit hbudget => ?_
      obtain ⟨-, -, -, -, hcount⟩ := setup_of_step hready
      have hle := steps_le_iterate (m := m) (Nat.succ_le_of_lt hj)
      have hlimit := hfits limit hbudget
      rw [Nat.succ_eq_add_one, Function.iterate_succ_apply', hcount] at hle
      omega
    refine (step_supply hready hunspent).resolve_left ?_
    rintro ⟨fault, hfault, -⟩
    exact hok fault hfault
  · exact step_supply_of_stopped hrun

/-- The steps of a run fit in any budget that is none or no less. -/
theorem le_of_budgetOf {steps limit : Nat} {maxSteps : Int} (h : maxSteps ≤ 0 ∨ steps ≤ maxSteps)
    (hlimit : budgetOf maxSteps = some limit) : steps ≤ limit := by
  unfold budgetOf at hlimit
  split at hlimit
  · obtain rfl := Option.some.inj hlimit
    omega
  · cases hlimit

/-- More cells alone avert no fault but a full stack. -/
theorem averts_cells {cells : Nat} {budget : Option Nat} {kind : FaultKind}
    (h : Supply.Averts { cells, budget } kind) : kind = .stackOverflow := by
  cases kind <;> simp [Supply.Averts] at h ⊢

end Machine

open Machine

/-- A run that halts does so with any supply whose budget its steps fit in. -/
theorem Answers.halted_supply {m m' : Machine} {s : Supply} {events : Array Event}
    (h : Answers .run m (.outcome .halted events) m')
    (hfits : ∀ limit, s.budget = some limit → m'.steps ≤ limit) :
    ∃ events', Answers .run (m.supply s) (.outcome .halted events') (m'.supply s) := by
  obtain ⟨k, -, hreply, rfl⟩ := exists_steps_of_run h
  have hhalted : (Machine.step^[k] m).status = .halted := (Reply.outcome.inj hreply).1.symm
  have hsame := iterate_supply_of_halted hhalted hfits
  have hhalted' : (Machine.step^[k] (m.supply s)).status = .halted := by
    rw [hsame]
    exact hhalted
  refine ⟨(m.supply s).trace k, ?_⟩
  rw [answers_run_iff (k := k) (by rw [hhalted']; exact nofun), hhalted', hsame]
  exact ⟨rfl, rfl⟩

/-- A run that faults for another reason than a full stack does so with any number of further
cells. -/
theorem Answers.faulted_supply {m m' : Machine} {cells : Nat} {fault : Fault}
    {events : Array Event} (h : Answers .run m (.outcome (.faulted fault) events) m')
    (hkind : fault.kind ≠ .stackOverflow) :
    Answers .run (m.supply { cells, budget := m.budget }) (.outcome (.faulted fault) events)
      (m'.supply { cells, budget := m.budget }) := by
  refine h.run_supply rfl rfl ?_
  rintro ⟨fault', hfault', haverts⟩
  obtain ⟨k, -, hreply, rfl⟩ := exists_steps_of_run h
  rw [← (Reply.outcome.inj hreply).1] at hfault'
  cases hfault'
  exact hkind (averts_cells haverts)

/-- If a run halts, it halts as well with any words after the code, no fewer locals, no smaller
stack and a budget that is none or no less than the steps taken; steps, program counter, frame
pointer, depth, stack and sink are the same at the end, and the locals are those of the first run,
with zeros after them. If a run faults for another reason than a full stack, then with no smaller
stack it faults in the same way, after the same instructions and with the same state. -/
theorem resources_monotone (code : Array Int64) (entry locals : Int) (options : Machine.Options) :
    (∀ events m, Answers .run (Machine.new code entry locals options) (.outcome .halted events) m →
      ∀ (ext : Array Int64) (locals' : Int) (options' : Machine.Options), locals ≤ locals' →
      options.stackCapacity ≤ options'.stackCapacity → options'.out = options.out →
      (options'.maxSteps ≤ 0 ∨ m.steps ≤ options'.maxSteps) →
      ∃ events' n,
        Answers .run (Machine.new (code ++ ext) entry locals' options')
          (.outcome .halted events') n ∧
        n.steps = m.steps ∧ n.pc = m.pc ∧ n.fp = m.fp ∧ n.depth = m.depth ∧
        n.stack.toList = m.stack.toList ∧ n.out = m.out ∧
        n.locals = m.locals ++
          Array.replicate (clamp maxLocals locals' - clamp maxLocals locals) 0) ∧
    (∀ fault events m,
      Answers .run (Machine.new code entry locals options) (.outcome (.faulted fault) events) m →
      fault.kind ≠ .stackOverflow → ∀ capacity, options.stackCapacity ≤ capacity →
      ∃ n,
        Answers .run (Machine.new code entry locals { options with stackCapacity := capacity })
          (.outcome (.faulted fault) events) n ∧
        n.steps = m.steps ∧ n.pc = m.pc ∧ n.fp = m.fp ∧ n.depth = m.depth ∧
        n.stack.toList = m.stack.toList ∧ n.out = m.out ∧ n.locals = m.locals) := by
  constructor
  · intro events m hrun ext locals' options' hlocals hcapacity hout hbudget
    have hnew := supply_new code ext entry hlocals hcapacity hout
    obtain ⟨events', hanswer⟩ := hrun.halted_supply
      (s := supplyFor ext locals locals' options options') fun _ hlimit =>
        le_of_budgetOf hbudget hlimit
    rw [hnew] at hanswer
    exact ⟨events', _, hanswer, rfl, rfl, rfl, rfl, Stack.toList_extend _ _, rfl, rfl⟩
  · intro fault events m hrun hkind capacity hcapacity
    -- Only the stack is larger, so the supply has nothing but cells.
    let options' := { options with stackCapacity := capacity }
    have hcapacity' : options.stackCapacity ≤ options'.stackCapacity := hcapacity
    have hnew := supply_new code #[] entry (Int.le_refl locals) hcapacity' rfl
    unfold supplyFor at hnew
    rw [Array.append_empty, Nat.sub_self] at hnew
    rw [← hnew]
    exact ⟨_, hrun.faulted_supply hkind, rfl, rfl, rfl, rfl, Stack.toList_extend _ _, rfl,
      m.supply_locals rfl⟩

/-- A program that stores a word in its only local, on a stack with one cell and with a budget of
its three steps, ends in the same way with three locals, more cells, a word after it and no budget.
One that divides by zero on a stack with two cells does so on a larger one. -/
theorem resources_monotone_tight :
    (∃ events n,
      Answers .run
        (Machine.new (#[Opcode.const.word, 6, Opcode.gstore.word, 0, Opcode.halt.word] ++ #[9]) 0 3
          { stackCapacity := 8 }) (.outcome .halted events) n ∧
      n.steps = 3 ∧ n.pc = 5 ∧ n.locals = #[6, 0, 0]) ∧
    ∃ fault events n,
      Answers .run
        (Machine.new #[Opcode.const.word, 6, Opcode.const.word, 0, Opcode.div.word] 0 0
          { stackCapacity := 8 }) (.outcome (.faulted fault) events) n ∧
      fault.kind = .divisionByZero ∧ fault.detail = "6 / 0" ∧ n.steps = 3 := by
  constructor
  · let m := Machine.new #[Opcode.const.word, 6, Opcode.gstore.word, 0, Opcode.halt.word] 0 1
      { stackCapacity := 1, maxSteps := 3 }
    have hhalted : (step^[3] m).status = .halted := by decide +kernel
    have hrun := (answers_run_iff (m := m) (k := 3) (by decide +kernel)).2 ⟨rfl, rfl⟩
    rw [hhalted] at hrun
    obtain ⟨events, n, hanswer, hsteps, hpc, -, -, -, -, hlocals⟩ :=
      (resources_monotone _ 0 1 _).1 _ _ hrun #[9] 3 { stackCapacity := 8 } (by decide) (by decide)
        rfl (.inl (by decide))
    refine ⟨events, n, hanswer, hsteps.trans (by decide +kernel), hpc.trans (by decide +kernel), ?_⟩
    rw [hlocals]
    decide +kernel
  · let m := Machine.new #[Opcode.const.word, 6, Opcode.const.word, 0, Opcode.div.word] 0 0
      { stackCapacity := 2 }
    let fault : Fault := { pc := 4, op := Opcode.div.word, reason := .zeroDivisor 6 }
    have hfaulted : (step^[3] m).status = .faulted fault := by decide +kernel
    have hrun := (answers_run_iff (m := m) (k := 3) (by decide +kernel)).2 ⟨rfl, rfl⟩
    rw [hfaulted] at hrun
    obtain ⟨n, hanswer, hsteps, -⟩ :=
      (resources_monotone _ 0 0 _).2 _ _ _ hrun (by decide) 8 (by decide)
    exact ⟨fault, _, n, hanswer, rfl, by decide +kernel, hsteps.trans (by decide +kernel)⟩

end StackMachine
