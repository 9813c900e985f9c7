import StackMachine.Proofs.Supply

/-!
# The step budget

A budget is not seen before it is spent: as long as a machine with a budget has steps left, it makes
the steps of the same machine without one (`iterate_metered`). The last step that the budget allows
is made like any other, so a program that stops in it has stopped as it would have anyway. Only the
step after that faults, and it dispatches nothing.
-/

namespace StackMachine

namespace Machine

variable {m : Machine} {b k : Nat}

/-- The machine with a budget of `b` steps. -/
abbrev metered (m : Machine) (b : Nat) : Machine :=
  { m with budget := some b }

/-- A budget is a supply of nothing else. -/
theorem supply_metered (m : Machine) (b : Nat) : m.supply { budget := some b } = m.metered b :=
  supply_budget m (some b)

/-- A budget averts no fault that an instruction makes. -/
theorem not_fellShort_budget (m : Machine) (budget : Option Nat) : ¬ FellShort { budget } m := by
  rintro ⟨fault, -, haverts⟩
  cases hkind : fault.kind <;> simp [hkind, Supply.Averts] at haverts

/-- A machine with a budget has a step left until it has made as many. -/
theorem isSpent_metered (m : Machine) (b : Nat) :
    (m.metered b).isSpent = decide (b ≤ m.steps) := rfl

/-- With a step left in the budget, the step is the one made without a budget. -/
theorem step_metered (hfree : m.budget = none) (hleft : m.steps < b) :
    (m.metered b).step = m.step.metered b := by
  rw [← supply_metered, ← supply_metered]
  by_cases hrun : m.status = .running
  · -- The budget changes the step only if it is spent, or if it averts a fault, which no budget
    -- does.
    have hunspent : (m.supply { budget := some b }).isSpent = false :=
      isSpent_supply fun limit hlimit => Option.some.inj hlimit ▸ hleft
    have hsame := step_supply ⟨hrun, isSpent_of_unlimited hfree⟩ hunspent
    exact hsame.resolve_left (not_fellShort_budget m.step (some b))
  · exact step_supply_of_stopped hrun

/-- The steps that a budget allows are those made without one. -/
theorem iterate_metered (hfree : m.budget = none) (hle : m.steps + k ≤ b) :
    step^[k] (m.metered b) = (step^[k] m).metered b := by
  rw [← supply_metered, ← supply_metered]
  refine iterate_supply fun j hj => ?_
  -- After `j` steps no more than `j` have been counted, so one is left for the next.
  have hsteps := steps_iterate_le m j
  have hfree' : (step^[j] m).budget = none := by
    rw [budget_iterate, hfree]
  rw [supply_metered, supply_metered, Function.iterate_succ_apply']
  exact step_metered hfree' (by omega)

/-- The instructions that a budget allows are those dispatched without one. -/
theorem trace_metered (hfree : m.budget = none) (hle : m.steps + k ≤ b) :
    (m.metered b).trace k = m.trace k := by
  refine trace_congr fun j hj => ?_
  have hsteps := steps_iterate_le m j
  have hfree' : (step^[j] m).budget = none := by
    rw [budget_iterate, hfree]
  rw [iterate_metered hfree (by omega), ← supply_metered]
  refine event?_supply rfl ?_
  rw [supply_metered, isSpent_metered, isSpent_of_unlimited hfree']
  exact decide_eq_false (by omega)

/-- A machine that has spent its budget dispatches nothing more. -/
theorem event?_of_spent (h : m.isSpent = true) : m.event? = none := by
  unfold event?
  rw [h]
  cases m.status <;> simp

end Machine

open Machine

/-- A machine that still runs after as many steps as its budget allows faults in the next one, which
dispatches nothing: a run answers with that fault, and the machine is otherwise where the same
machine without a budget is after those steps. -/
theorem answers_run_metered {m m' : Machine} {b : Nat} {reply : Reply} (hfree : m.budget = none)
    (hnew : m.steps = 0) (hrun : (step^[b] m).status = .running) :
    Answers .run (m.metered b) reply m' ↔
      reply = .outcome
        (.faulted { pc := (step^[b] m).pc, op := 0, reason := .budget b }) (m.trace b) ∧
      m' =
        { step^[b] m with
          budget := some b
          site := ⟨(step^[b] m).pc, 0⟩
          status := .faulted { pc := (step^[b] m).pc, op := 0, reason := .budget b } } := by
  have hmetered : step^[b] (m.metered b) = (step^[b] m).metered b :=
    iterate_metered hfree (by omega)
  -- The machine still runs, so that it has counted every one of the steps.
  have hcount : (step^[b] m).steps = b := by
    rw [steps_of_running hrun, hnew, Nat.zero_add]
  have hspent : (step^[b] (m.metered b)).isSpent = true := by
    rw [hmetered, isSpent_metered, hcount]
    exact decide_eq_true (Nat.le_refl b)
  -- The step after the last allowed one.
  obtain ⟨limit, hlimit, hlast⟩ :=
    step_of_spent (m := step^[b] (m.metered b)) (by rw [hmetered]; exact hrun) hspent
  rw [hmetered] at hlimit hlast
  obtain rfl : b = limit := Option.some.inj hlimit
  have hfault : step^[b + 1] (m.metered b) = ((step^[b] m).metered b).step := by
    rw [Function.iterate_succ_apply', hmetered]
  rw [hlast] at hfault
  have htrace : (m.metered b).trace (b + 1) = m.trace b := by
    rw [trace, stepTraced, event?_of_spent hspent]
    exact trace_metered hfree (by omega)
  have hstop : (step^[b + 1] (m.metered b)).status ≠ .running := by
    rw [hfault]
    exact Status.noConfusion
  rw [answers_run_iff hstop, hfault, htrace]

/-- Compare a machine that has a budget of `b` steps with the one made alike without a budget. After
each number of steps up to `b` they are equal except for the budget, and have dispatched the same
instructions. If the one without a budget stops within `b` steps, a run of the other answers with
how it stopped and leaves the same machine. If it still runs after `b` steps, it has counted all of
them, and a run of the other answers that the limit of steps is exceeded, by a fault at the current
program counter and without an opcode, on a machine that is otherwise the same. -/
theorem budget_exact (code : Array Int64) (entry locals : Int) (options : Machine.Options) {b : Nat}
    (hb : 0 < b) :
    let free := Machine.new code entry locals { options with maxSteps := 0 }
    let limited := Machine.new code entry locals { options with maxSteps := b }
    let fault : Fault := { pc := (step^[b] free).pc, op := 0, reason := .budget b }
    (∀ k ≤ b, step^[k] limited = { step^[k] free with budget := some b } ∧
      limited.trace k = free.trace k) ∧
    (∀ k ≤ b, (step^[k] free).status ≠ .running → ∀ reply m, Answers .run limited reply m ↔
      reply = .outcome (step^[k] free).status (free.trace k) ∧
        m = { step^[k] free with budget := some b }) ∧
    ((step^[b] free).status = .running →
      (step^[b] free).steps = b ∧ fault.kind = .stepLimitExceeded ∧
      ∀ reply m, Answers .run limited reply m ↔
        reply = .outcome (.faulted fault) (free.trace b) ∧
          m = { step^[b] free with
            budget := some b, site := ⟨fault.pc, 0⟩, status := .faulted fault }) := by
  intro free limited fault
  have hlimited : limited = free.metered b := by
    have hbudget : budgetOf b = some b := if_pos (by omega)
    show Machine.new code entry locals { options with maxSteps := b } = _
    unfold Machine.new
    rw [hbudget]
    rfl
  have hnew : free.steps = 0 := rfl
  have hiterate : ∀ k ≤ b, step^[k] limited = (step^[k] free).metered b := by
    intro k hk
    rw [hlimited]
    exact iterate_metered rfl (by omega)
  have htrace : ∀ k ≤ b, limited.trace k = free.trace k := by
    intro k hk
    rw [hlimited]
    exact trace_metered rfl (by omega)
  refine ⟨fun k hk => ⟨hiterate k hk, htrace k hk⟩, fun k hk hstop reply m => ?_, fun hrun => ?_⟩
  · rw [answers_run_iff (k := k) (by rw [hiterate k hk]; exact hstop), hiterate k hk, htrace k hk]
  · refine ⟨?_, rfl, fun reply m => ?_⟩
    · rw [steps_of_running hrun, hnew, Nat.zero_add]
    · rw [hlimited]
      exact answers_run_metered rfl hnew hrun

/-- A program of three instructions halts within a budget of three; within a budget of two it does
not, although the word it has printed by then is the same. -/
theorem budget_exact_boundary :
    let code := #[Opcode.const.word, 4, Opcode.print.word, Opcode.halt.word]
    (∃ events m, Answers .run (Machine.new code 0 0 { maxSteps := 3 }) (.outcome .halted events) m ∧
      m.out.printed = #[4] ∧ m.steps = 3) ∧
    ∃ events m fault, Answers .run (Machine.new code 0 0 { maxSteps := 2 })
        (.outcome (.faulted fault) events) m ∧
      fault.kind = .stepLimitExceeded ∧ fault.pc = 3 ∧ m.out.printed = #[4] ∧ m.steps = 2 := by
  intro code
  have hhalted : (step^[3] (Machine.new code 0 0 { maxSteps := 0 })).status = .halted := by
    decide +kernel
  obtain ⟨-, hstopped, -⟩ := budget_exact code 0 0 {} (b := 3) (by decide)
  obtain ⟨-, -, hrunning⟩ := budget_exact code 0 0 {} (b := 2) (by decide)
  have hthree := (hstopped 3 (by decide) (by rw [hhalted]; exact nofun) _ _).2 ⟨rfl, rfl⟩
  rw [hhalted] at hthree
  obtain ⟨-, hkind, htwo⟩ := hrunning (by decide +kernel)
  refine ⟨⟨_, _, hthree, by decide +kernel, by decide +kernel⟩, ?_⟩
  exact ⟨_, _, _, (htwo _ _).2 ⟨rfl, rfl⟩, hkind, by decide +kernel, by decide +kernel,
    by decide +kernel⟩

end StackMachine
