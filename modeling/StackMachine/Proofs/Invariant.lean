import StackMachine.Proofs.Session

/-!
# The invariant of a machine in use

`Invariant` bounds every part of a machine's state by what the machine was made with. It holds of
a new machine and every request keeps it, in whatever order requests come, so it holds throughout
every session (`Session.invariant`). The frame pointer may come from a slot that the program has
overwritten and the depth may count frames that were never opened properly; neither matters, since
a return checks the one before it takes it and a call is the only way to raise the other.
-/

namespace StackMachine.Machine

/-! ## One dispatch -/

/-- What holds at every exit of a dispatch that starts on `m₀`, with the depth at most `k`. -/
structure Kept (m₀ : Machine) (k : Nat) (m : Machine) : Prop where
  setup : SameSetup m₀ m
  fp_lt : m.fp < 2^31
  pc_mem : m.pc = m₀.entry ∨ 0 ≤ m.pc ∧ m.pc ≤ m₀.code.size
  depth_le : m.depth ≤ k

/-- Outside calls and returns the depth stays where it is. -/
theorem Kept.stable (m₀ : Machine) (k : Nat) : Action.Stable (Kept m₀ k) where
  stack _ _ h hs := { h with setup := (SameSetup.stable m₀).stack _ _ h.setup hs }
  locals _ _ h hl := { h with setup := (SameSetup.stable m₀).locals _ _ h.setup hl }
  pc m pc h h0 h1 := by
    have hcode := h.setup.code
    exact { h with
      setup := (SameSetup.stable m₀).pc _ _ h.setup h0 h1
      pc_mem := .inr ⟨h0, by rw [← hcode]; exact h1⟩ }
  out _ _ h hroom := { h with setup := (SameSetup.stable m₀).out _ _ h.setup hroom }
  site _ _ h := { h with setup := (SameSetup.stable m₀).site _ _ h.setup }

/-- An instruction opens at most one frame, whose pointer is a slot of the stack. -/
theorem Kept.leads {m₀ : Machine} (hcap : m₀.stack.capacity ≤ maxCapacity) (k : Nat) :
    Action.Leads (Kept m₀ k) (Kept m₀ (k + 1)) where
  before := Kept.stable m₀ k
  after := Kept.stable m₀ (k + 1)
  weaken _ h := { h with depth_le := Nat.le_succ_of_le h.depth_le }
  link m h := by
    have hsize := m.stack.size_le_capacity
    have hsame := h.setup.capacity
    -- The new frame pointer is the topmost slot, and no stack has slots beyond `2^20`.
    have hmax : maxCapacity = 2^20 := rfl
    have hfp : m.stack.size - 1 < 2^31 := by omega
    exact { h with
      setup := (SameSetup.leads m₀).link _ h.setup
      fp_lt := hfp
      depth_le := Nat.succ_le_succ h.depth_le }
  unlink m fp h hfp := by
    have hdepth := h.depth_le
    exact { h with
      setup := (SameSetup.leads m₀).unlink _ _ h.setup hfp
      fp_lt := hfp
      depth_le := by rw [unlink_depth]; omega }

/-! ## The invariant -/

/-- What holds of a machine made for `code` with these sizes and options, whatever was done to it
since. -/
structure Invariant (code : Array Int64) (entry locals : Int) (options : Options) (m : Machine) :
    Prop where
  code_eq : m.code = code
  entry_eq : m.entry = entry
  budget_eq : m.budget = budgetOf options.maxSteps
  capacity_eq : m.stack.capacity = clamp maxCapacity options.stackCapacity
  locals_size : m.locals.size = clamp maxLocals locals
  fp_lt : m.fp < 2^31
  pc_mem : m.pc = entry ∨ 0 ≤ m.pc ∧ m.pc ≤ code.size
  depth_le : m.depth ≤ m.steps
  steps_le : ∀ limit, m.budget = some limit → m.steps ≤ limit

variable {code : Array Int64} {entry locals : Int} {options : Options} {m m' : Machine}

namespace Invariant

/-- The capacity is one that a machine makes. -/
theorem capacity_le (h : Invariant code entry locals options m) :
    m.stack.capacity ≤ maxCapacity := by
  rw [h.capacity_eq]
  exact Nat.min_le_right _ _

/-- The bounds under which frame-relative addresses are exact. -/
theorem bounded (h : Invariant code entry locals options m) : m.Bounded :=
  ⟨h.capacity_le, h.fp_lt⟩

/-- A new machine satisfies the invariant. -/
theorem new : Invariant code entry locals options (Machine.new code entry locals options) where
  code_eq := rfl
  entry_eq := rfl
  budget_eq := rfl
  capacity_eq := Stack.capacity_empty _
  locals_size := Array.size_replicate
  fp_lt := Nat.two_pow_pos 31
  pc_mem := .inl rfl
  depth_le := Nat.le_refl _
  steps_le _ _ := Nat.zero_le _

/-- Outside calls and returns every update keeps the invariant. -/
theorem stable : Action.Stable (Invariant code entry locals options) where
  stack _ _ h hs := { h with capacity_eq := hs.trans h.capacity_eq }
  locals _ _ h hl := { h with locals_size := hl.trans h.locals_size }
  pc m pc h h0 h1 := by
    have hcode := h.code_eq
    exact { h with pc_mem := .inr ⟨h0, by rw [← hcode]; exact h1⟩ }
  out _ _ h _ := { h with }
  site _ _ h := { h with }

/-- A reset keeps the invariant. -/
theorem reset (h : Invariant code entry locals options m) :
    Invariant code entry locals options m.reset where
  code_eq := h.code_eq
  entry_eq := h.entry_eq
  budget_eq := h.budget_eq
  capacity_eq := (Stack.capacity_empty _).trans h.capacity_eq
  locals_size := Array.size_replicate.trans h.locals_size
  fp_lt := Nat.two_pow_pos 31
  pc_mem := .inl h.entry_eq
  depth_le := Nat.le_refl _
  steps_le _ _ := Nat.zero_le _

/-- A step keeps the invariant. -/
theorem step (h : Invariant code entry locals options m) :
    Invariant code entry locals options m.step := by
  obtain hstep | ⟨limit, -, hstep⟩ | hready := m.step_cases
  · rw [hstep]
    exact h
  · -- A budget that is spent changes only the site and the status, and the invariant is about
    -- neither.
    rw [hstep]
    exact { h with }
  · -- `Kept` is relative to the machine before the dispatch and says nothing of the count of steps,
    -- which the step changes afterwards.
    have hm : Kept m m.depth m :=
      ⟨SameSetup.refl m, h.fp_lt, by rw [h.entry_eq, h.code_eq]; exact h.pc_mem, Nat.le_refl _⟩
    obtain ⟨left, status, hleft, hstep⟩ :=
      step_of_ensures hready (Kept.leads h.capacity_le m.depth).dispatch hm
    have hsetup := hleft.setup
    have hpc := hleft.pc_mem
    rw [h.entry_eq, h.code_eq] at hpc
    rw [hstep]
    refine
      { code_eq := hsetup.code.trans h.code_eq
        entry_eq := hsetup.entry.trans h.entry_eq
        budget_eq := hsetup.budget.trans h.budget_eq
        capacity_eq := hsetup.capacity.trans h.capacity_eq
        locals_size := hsetup.locals.trans h.locals_size
        fp_lt := hleft.fp_lt
        pc_mem := hpc
        depth_le := ?_
        steps_le := ?_ }
    · -- The one frame that was opened is paid for by the step that was counted.
      have hdepth := hleft.depth_le
      have hle := h.depth_le
      have hsteps := hsetup.steps
      dsimp only
      omega
    · -- The machine was ready, so that it was below its limit before this step.
      intro limit hlimit
      have hbudget : m.budget = some limit := hsetup.budget.symm.trans hlimit
      have hlt : ¬ limit ≤ m.steps := by
        simpa [isSpent, hbudget] using hready.unspent
      have hsteps := hsetup.steps
      dsimp only
      omega

end Invariant

end StackMachine.Machine

namespace StackMachine

variable {code : Array Int64} {entry locals : Int} {options : Machine.Options} {m m' : Machine}

/-! ## Sessions -/

/-- The invariant holds throughout every session with a new machine. -/
theorem Session.invariant {history : List (Request × Reply)}
    (h : Session (Machine.new code entry locals options) history m) :
    m.Invariant code entry locals options := by
  refine h.induction ?_ Machine.Invariant.new
  intro request m reply m' hanswer hm
  exact hanswer.induction (fun _ hm => hm.step) (fun _ hm => hm.reset)
    Machine.Invariant.stable.access hm

/-- With a step limit, no more steps are taken than it allows. -/
theorem Machine.Invariant.steps_le_maxSteps (h : m.Invariant code entry locals options)
    (hpos : 0 < options.maxSteps) : (m.steps : Int) ≤ options.maxSteps := by
  have hbudget : m.budget = some options.maxSteps.toNat := by
    rw [h.budget_eq, Machine.budgetOf, if_pos hpos]
  have hle := h.steps_le _ hbudget
  omega

/-- A machine in use is within its bounds. -/
theorem Machine.Reachable.bounded (h : m.Reachable) : m.Bounded := by
  obtain ⟨code, entry, locals, options, history, hsession⟩ := h
  exact hsession.invariant.bounded

/-! ## Accesses and stopped machines -/

/-- Two machines agree on how far execution has come: run state, frame pointer, depth and steps. -/
structure Machine.SameControl (m₀ m : Machine) : Prop where
  status : m.status = m₀.status
  fp : m.fp = m₀.fp
  depth : m.depth = m₀.depth
  steps : m.steps = m₀.steps

/-- Agreement on how far execution has come is a stable property. -/
theorem Machine.SameControl.stable (m₀ : Machine) : Action.Stable m₀.SameControl where
  stack _ _ h _ := { h with }
  locals _ _ h _ := { h with }
  pc _ _ h _ _ := { h with }
  out _ _ h _ := { h with }
  site _ _ h := { h with }

/-- An access does not touch the control of the machine, whether it succeeds or not. -/
theorem Answers.sameControl {access : Access} {reply : Reply}
    (h : Answers (.access access) m reply m') : m.SameControl m' := by
  have hend := (Machine.SameControl.stable m).access access m ⟨rfl, rfl, rfl, rfl⟩
  cases h with
  | value hok =>
    rw [hok] at hend
    exact hend
  | refused herror =>
    rw [herror] at hend
    exact hend

/-- An access that is refused changes nothing. -/
theorem Answers.eq_of_refused {access : Access} {fault : Fault}
    (h : Answers (.access access) m (.refused fault) m') : m' = m := by
  cases h with
  | refused herror => exact Action.Clean.access access m m' fault herror

/-- On a machine that has stopped, a step or a run reports how it stopped and changes nothing. -/
theorem answers_iff_of_stopped {request : Request} {reply : Reply} (hstop : m.status ≠ .running)
    (hrequest : request = .step ∨ request = .run) :
    Answers request m reply m' ↔ reply = .outcome m.status #[] ∧ m' = m := by
  constructor
  · intro h
    cases h with
    | step =>
      rw [Machine.stepTraced_of_stopped hstop]
      exact ⟨rfl, rfl⟩
    | run _ fuel =>
      rw [Machine.runTraced_of_stopped hstop]
      exact ⟨rfl, rfl⟩
    | reset => simp at hrequest
    | value => simp at hrequest
    | refused => simp at hrequest
  · rintro ⟨rfl, rfl⟩
    rcases hrequest with rfl | rfl
    · have h := Answers.step m'
      rw [Machine.stepTraced_of_stopped hstop] at h
      exact h
    · -- No fuel is needed to run a machine that has stopped.
      have h := Answers.run m' 0 hstop
      exact h

/-- On a machine that has stopped, no request but a reset touches the control. -/
theorem Answers.sameControl_of_stopped {request : Request} {reply : Reply}
    (h : Answers request m reply m') (hstop : m.status ≠ .running) (hreset : request ≠ .reset) :
    m.SameControl m' := by
  cases request with
  | step =>
    rw [((answers_iff_of_stopped hstop (.inl rfl)).1 h).2]
    exact ⟨rfl, rfl, rfl, rfl⟩
  | run =>
    rw [((answers_iff_of_stopped hstop (.inr rfl)).1 h).2]
    exact ⟨rfl, rfl, rfl, rfl⟩
  | reset => exact absurd rfl hreset
  | access access => exact h.sameControl

/-- Without a reset, the control of a machine that has stopped stays as it is. -/
theorem Session.sameControl_of_stopped {history : List (Request × Reply)} (h : Session m history m')
    (hstop : m.status ≠ .running) (hreset : ∀ exchange ∈ history, exchange.1 ≠ .reset) :
    m.SameControl m' := by
  induction h with
  | nil m => exact ⟨rfl, rfl, rfl, rfl⟩
  | cons head _ ih =>
    -- The status is part of the control, so that the machine has still stopped at the next request.
    have hhead := head.sameControl_of_stopped hstop (hreset _ List.mem_cons_self)
    have htail := ih (by rw [hhead.status]; exact hstop) fun e he =>
      hreset e (List.mem_cons_of_mem _ he)
    exact ⟨htail.status.trans hhead.status, htail.fp.trans hhead.fp,
      htail.depth.trans hhead.depth, htail.steps.trans hhead.steps⟩

/-- Without a reset, a machine that has stopped stays in the run state it stopped in. -/
theorem Session.status_of_stopped {history : List (Request × Reply)} (h : Session m history m')
    (hstop : m.status ≠ .running) (hreset : ∀ exchange ∈ history, exchange.1 ≠ .reset) :
    m'.status = m.status :=
  (h.sameControl_of_stopped hstop hreset).status

/-- A fault is recorded exactly in the run state that says so. -/
theorem Status.isSome_fault?_iff (s : Status) : s.fault?.isSome ↔ s.name = "Faulted" := by
  cases s with
  | running => simp [Status.fault?, Status.name]
  | halted => simp [Status.fault?, Status.name]
  | faulted fault => simp [Status.fault?, Status.name]

/-- In every session with a new machine, whatever the host asks in whatever order: the stack stays
within a capacity that never changes, as do the code, the entry, the budget and the number of
locals; frame pointer, depth, steps and program counter keep their bounds; and a fault is recorded
exactly when the machine has faulted. Direct accesses leave the control of the machine alone and,
when they are refused, everything. Once the machine has stopped, only a reset makes it run again;
until then steps and runs report how it stopped and change nothing. -/
theorem session_sound {history : List (Request × Reply)}
    (h : Session (Machine.new code entry locals options) history m) :
    (m.stack.size ≤ m.stack.capacity ∧ m.stack.capacity ≤ 2^20) ∧
    m.locals.size = Machine.clamp Machine.maxLocals locals ∧
    m.fp ≤ 2^31 - 1 ∧
    m.depth ≤ m.steps ∧
    (0 < options.maxSteps → (m.steps : Int) ≤ options.maxSteps) ∧
    (m.pc = entry ∨ 0 ≤ m.pc ∧ m.pc ≤ code.size) ∧
    (m.status.fault?.isSome ↔ m.status.name = "Faulted") ∧
    (m.code = code ∧ m.entry = entry ∧
      m.stack.capacity = Machine.clamp Machine.maxCapacity options.stackCapacity ∧
      m.budget = Machine.budgetOf options.maxSteps) ∧
    (∀ access reply m', Answers (.access access) m reply m' →
      (m'.status = m.status ∧ m'.fp = m.fp ∧ m'.depth = m.depth ∧ m'.steps = m.steps) ∧
      ∀ fault, reply = .refused fault → m' = m) ∧
    (m.status ≠ .running → ∀ later m', Session m later m' →
      (∀ exchange ∈ later, exchange.1 ≠ .reset) →
      m'.status = m.status ∧
      ∀ request, request = .step ∨ request = .run → ∀ reply m'',
        Answers request m' reply m'' ↔ reply = .outcome m.status #[] ∧ m'' = m') := by
  have hinv := h.invariant
  have hfp : m.fp ≤ 2^31 - 1 := by
    have hlt := hinv.fp_lt
    omega
  refine ⟨⟨m.stack.size_le_capacity, hinv.capacity_le⟩, hinv.locals_size, hfp, hinv.depth_le,
    hinv.steps_le_maxSteps, hinv.pc_mem, m.status.isSome_fault?_iff,
    ⟨hinv.code_eq, hinv.entry_eq, hinv.capacity_eq, hinv.budget_eq⟩, ?_, ?_⟩
  · intro access reply m' hanswer
    have hsame := hanswer.sameControl
    refine ⟨⟨hsame.status, hsame.fp, hsame.depth, hsame.steps⟩, ?_⟩
    rintro fault rfl
    exact hanswer.eq_of_refused
  · intro hstop later m' hlater hreset
    have hstatus := hlater.status_of_stopped hstop hreset
    refine ⟨hstatus, fun request hrequest reply m'' => ?_⟩
    rw [← hstatus]
    exact answers_iff_of_stopped (by rw [hstatus]; exact hstop) hrequest

/-- A host fills the stack by hand, runs a program that calls itself until it overflows, and then
writes a local that does not exist. -/
theorem session_sound_overflow :
    ∃ history m,
      Session (Machine.new #[Opcode.call.word, 0, 0] 0 1 { stackCapacity := 5 }) history m ∧
      history.map Prod.fst = [.access (.push 7), .run, .access (.writeLocal 1 0)] ∧
      (m.depth = 1 ∧ m.steps = 2 ∧ m.depth ≤ m.steps) ∧
      ∀ later m', Session m later m' → (∀ exchange ∈ later, exchange.1 ≠ .reset) →
        m'.status = m.status := by
  have hsession := Session.cons (.value (a := .push 7)
    (m := Machine.new #[Opcode.call.word, 0, 0] 0 1 { stackCapacity := 5 }) rfl)
    (.cons (.run _ 3 (by decide +kernel)) (.cons (.refused (a := .writeLocal 1 0) rfl) (.nil _)))
  obtain ⟨-, -, -, hdepth, -, -, -, -, -, hstopped⟩ := session_sound hsession
  refine ⟨_, _, hsession, rfl, ⟨by decide +kernel, by decide +kernel, hdepth⟩, ?_⟩
  intro later m' hlater hreset
  exact (hstopped (by decide +kernel) later m' hlater hreset).1

end StackMachine
