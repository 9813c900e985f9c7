import StackMachine.Proofs.Stable

/-!
# Steps and runs

A machine is ready when it is running and its budget leaves a step. Only then does a step dispatch
an instruction; the equations here say what it does in each case. What no dispatch changes is
collected in `SameSetup`, and `step_of_ensures` carries a property of the dispatch over to the step.
-/

namespace StackMachine.Machine

variable {m m' : Machine}

/-- A machine whose next step dispatches an instruction. -/
structure Ready (m : Machine) : Prop where
  running : m.status = .running
  unspent : m.isSpent = false

/-- A machine without a budget has a step left. -/
theorem isSpent_of_unlimited (h : m.budget = none) : m.isSpent = false := by
  unfold isSpent
  rw [h]
  rfl

/-! ## One step -/

/-- A machine that has stopped stays as it is. -/
theorem step_of_stopped (h : m.status ≠ .running) : m.step = m := by
  unfold step
  cases hs : m.status with
  | running => exact absurd hs h
  | halted => rfl
  | faulted fault => rfl

/-- A ready machine dispatches one instruction. -/
theorem step_of_ready (h : m.Ready) : m.step = step.advance m := by
  obtain ⟨hrun, hspent⟩ := h
  unfold step
  rw [hrun]
  dsimp only
  -- The status is settled, so that what is left of the step is its look at the budget.
  cases hb : m.budget with
  | none => rfl
  | some limit =>
    have hlt : ¬ limit ≤ m.steps := by
      simpa [isSpent, hb] using hspent
    exact if_neg hlt

/-- A running machine without a step left faults and dispatches nothing. -/
theorem step_of_spent (hrun : m.status = .running) (hspent : m.isSpent = true) :
    ∃ limit, m.budget = some limit ∧ m.step =
      { m with
        site := ⟨m.pc, 0⟩
        status := .faulted { pc := m.pc, op := 0, reason := .budget limit } } := by
  unfold isSpent at hspent
  cases hb : m.budget with
  | none =>
    rw [hb] at hspent
    cases hspent
  | some limit =>
    have hle : limit ≤ m.steps := by
      simpa [hb] using hspent
    refine ⟨limit, rfl, ?_⟩
    unfold step
    rw [hrun, hb]
    exact if_pos hle

/-- A step finds the machine stopped, finds its budget spent, or dispatches an instruction. -/
theorem step_cases (m : Machine) :
    m.step = m ∨
    (∃ limit, m.budget = some limit ∧ m.step =
      { m with
        site := ⟨m.pc, 0⟩
        status := .faulted { pc := m.pc, op := 0, reason := .budget limit } }) ∨
    m.Ready := by
  -- The step looks at the status first and at the budget only of a running machine.
  by_cases hrun : m.status = .running
  · by_cases hspent : m.isSpent = true
    · exact .inr (.inl (step_of_spent hrun hspent))
    · exact .inr (.inr ⟨hrun, Bool.eq_false_of_not_eq_true hspent⟩)
  · exact .inl (step_of_stopped hrun)

/-- A running machine is ready as long as its next step does not exceed the budget, in particular
if that step does not fault. -/
theorem ready_of_step (hrun : m.status = .running) (hok : ∀ f, m.step.status ≠ .faulted f) :
    m.Ready := by
  refine ⟨hrun, ?_⟩
  by_contra hspent
  obtain ⟨limit, -, hstep⟩ := step_of_spent hrun (by simpa using hspent)
  exact hok _ (by rw [hstep])

/-- What the dispatch ensures holds of the machine that is left after a step, up to the step counter
and the run state. -/
theorem step_of_ensures {I J : Machine → Prop} (h : m.Ready)
    (hdispatch : Action.Ensures I Action.dispatch J) (hm : I m) :
    ∃ left status, J left ∧ m.step = { left with steps := left.steps + 1, status } := by
  have hj := hdispatch m hm
  rw [step_of_ready h]
  unfold step.advance
  -- The dispatch came to a value, which says whether it halts, or to a fault; `hj` is about the
  -- machine that is left either way.
  split at hj
  · rename_i halted left heq
    rw [heq]
    cases halted with
    | true => exact ⟨left, .halted, hj, rfl⟩
    | false => exact ⟨left, left.status, hj, rfl⟩
  · rename_i fault left heq
    rw [heq]
    exact ⟨left, .faulted fault, hj, rfl⟩

/-! ## What no instruction changes -/

/-- Two machines agree on everything that no instruction changes. -/
structure SameSetup (m₀ m : Machine) : Prop where
  code : m.code = m₀.code
  entry : m.entry = m₀.entry
  budget : m.budget = m₀.budget
  capacity : m.stack.capacity = m₀.stack.capacity
  locals : m.locals.size = m₀.locals.size
  steps : m.steps = m₀.steps
  status : m.status = m₀.status

/-- A machine agrees with itself. -/
theorem SameSetup.refl (m : Machine) : SameSetup m m := ⟨rfl, rfl, rfl, rfl, rfl, rfl, rfl⟩

/-- Agreement on the setup is a stable property. -/
theorem SameSetup.stable (m₀ : Machine) : Action.Stable (SameSetup m₀) where
  stack _ _ h hs := { h with capacity := hs.trans h.capacity }
  locals _ _ h hl := { h with locals := hl.trans h.locals }
  pc _ _ h _ _ := { h with }
  out _ _ h _ := { h with }
  site _ _ h := { h with }

/-- Agreement on the setup outlasts every instruction. -/
theorem SameSetup.leads (m₀ : Machine) : Action.Leads (SameSetup m₀) (SameSetup m₀) where
  before := SameSetup.stable m₀
  after := SameSetup.stable m₀
  weaken _ h := h
  link _ h := { h with }
  unlink _ _ h _ := { h with }

/-! ## Runs -/

/-- A run of a machine that has stopped is empty. -/
theorem run_of_stopped (h : m.status ≠ .running) (fuel : Nat) : m.run fuel = m := by
  cases fuel with
  | zero => rfl
  | succ fuel =>
    unfold run
    cases hs : m.status with
    | running => exact absurd hs h
    | halted => rfl
    | faulted fault => rfl

/-- A run of a running machine starts with a step. -/
theorem run_of_running (h : m.status = .running) (fuel : Nat) :
    m.run (fuel + 1) = m.step.run fuel := by
  rw [run, h]

/-- What every step keeps, a run keeps. -/
theorem run_induction {I : Machine → Prop} (hstep : ∀ m, I m → I m.step) (fuel : Nat)
    (hm : I m) : I (m.run fuel) := by
  induction fuel generalizing m with
  | zero => exact hm
  | succ fuel ih =>
    -- What is left of the run starts at the machine after the step, which satisfies `I` again.
    by_cases h : m.status = .running
    · rw [run_of_running h]
      exact ih (hstep m hm)
    · rw [run_of_stopped h]
      exact hm

/-- Collecting the instructions of a run does not change where it ends. -/
theorem runTraced_fst (fuel : Nat) (m : Machine) (events : Array Event) :
    (m.runTraced fuel events).1 = m.run fuel := by
  -- Both runs make the same steps; the events only grow on the way, so they are arbitrary.
  induction fuel generalizing m events with
  | zero => rfl
  | succ fuel ih =>
    unfold runTraced run
    cases m.status with
    | running => exact ih _ _
    | halted => rfl
    | faulted fault => rfl

/-- A run of a machine that has stopped dispatches nothing. -/
theorem runTraced_of_stopped (h : m.status ≠ .running) (fuel : Nat) (events : Array Event) :
    m.runTraced fuel events = (m, events) := by
  cases fuel with
  | zero => rfl
  | succ fuel =>
    unfold runTraced
    cases hs : m.status with
    | running => exact absurd hs h
    | halted => rfl
    | faulted fault => rfl

/-- A step of a machine that has stopped dispatches nothing. -/
theorem stepTraced_of_stopped (h : m.status ≠ .running) (events : Array Event) :
    m.stepTraced events = (m, events) := by
  have hevent : m.event? = none := by
    unfold event?
    cases hs : m.status with
    | running => exact absurd hs h
    | halted => rfl
    | faulted fault => rfl
  unfold stepTraced
  rw [hevent, step_of_stopped h]

end StackMachine.Machine
