import StackMachine.Proofs.Sink
import StackMachine.Proofs.Dispatch

/-!
# Runs as iterated steps

A machine that has stopped stays as it is, so a run is no more than a number of steps that is large
enough: `answers_run_iff` says what a run answers once the machine is known to have stopped after
`k` steps, and every run that answers is of this form. Comparing two runs is then comparing two
machines after the same number of steps. The instructions dispatched on the way are `Machine.trace`.
-/

namespace StackMachine

namespace Machine

variable {m : Machine} {j k : Nat}

/-! ## Steps of a stopped machine -/

/-- A machine that has stopped is as it was after any number of further steps. -/
theorem iterate_of_stopped (h : (step^[j] m).status ≠ .running) (hjk : j ≤ k) :
    step^[k] m = step^[j] m := by
  obtain ⟨more, rfl⟩ := Nat.exists_eq_add_of_le' hjk
  rw [Function.iterate_add_apply]
  exact Function.iterate_fixed (step_of_stopped h) more

/-- A machine that runs after `k` steps was running after every smaller number of them. -/
theorem running_of_iterate (h : (step^[k] m).status = .running) (hjk : j ≤ k) :
    (step^[j] m).status = .running := by
  by_contra hstop
  rw [iterate_of_stopped hstop hjk] at h
  exact hstop h

/-- A machine that has faulted keeps its fault. -/
theorem faulted_iterate {fault : Fault} (h : (step^[j] m).status = .faulted fault) (hjk : j ≤ k) :
    (step^[k] m).status = .faulted fault := by
  rw [iterate_of_stopped (by rw [h]; exact nofun) hjk, h]

/-- No number of steps changes the budget. -/
theorem budget_iterate (m : Machine) (k : Nat) : (step^[k] m).budget = m.budget := by
  induction k with
  | zero => rfl
  | succ k ih =>
    rw [Function.iterate_succ_apply', ← ih]
    obtain hstep | ⟨limit, -, hstep⟩ | hready := (step^[k] m).step_cases
    · rw [hstep]
    · rw [hstep]
    · exact (setup_of_step hready).2.2.1

/-- No number of steps changes the code. -/
theorem code_iterate (m : Machine) (k : Nat) : (step^[k] m).code = m.code := by
  induction k with
  | zero => rfl
  | succ k ih => rw [Function.iterate_succ_apply', code_step, ih]

/-- A machine in use is still in use after any number of steps. -/
theorem Reachable.iterate (h : m.Reachable) (k : Nat) : (Machine.step^[k] m).Reachable := by
  induction k with
  | zero => exact h
  | succ k ih =>
    rw [Function.iterate_succ_apply']
    exact ih.step

/-! ## Counting steps -/

/-- A step is counted at most once. -/
theorem steps_step_le (m : Machine) : m.steps ≤ m.step.steps ∧ m.step.steps ≤ m.steps + 1 := by
  obtain hstep | ⟨limit, -, hstep⟩ | hready := m.step_cases
  · rw [hstep]
    exact ⟨Nat.le_refl _, Nat.le_succ _⟩
  · rw [hstep]
    exact ⟨Nat.le_refl _, Nat.le_succ _⟩
  · obtain ⟨-, -, -, -, hcount⟩ := setup_of_step hready
    omega

/-- The step counter never goes back. -/
theorem steps_le_iterate (hjk : j ≤ k) : (step^[j] m).steps ≤ (step^[k] m).steps := by
  -- The counter goes up or stays with each step, from `j` on.
  induction k, hjk using Nat.le_induction with
  | base => exact Nat.le_refl _
  | succ k _ ih =>
    rw [Function.iterate_succ_apply']
    exact Nat.le_trans ih (steps_step_le _).1

/-- No more steps are counted than are made. -/
theorem steps_iterate_le (m : Machine) (k : Nat) : (step^[k] m).steps ≤ m.steps + k := by
  induction k with
  | zero => exact Nat.le_refl _
  | succ k ih =>
    rw [Function.iterate_succ_apply']
    have hstep := (steps_step_le (step^[k] m)).2
    omega

/-- As long as the machine runs, every step is counted. -/
theorem steps_of_running (h : (step^[k] m).status = .running) :
    (step^[k] m).steps = m.steps + k := by
  induction k with
  | zero => rfl
  | succ k ih =>
    have hrun := running_of_iterate h (Nat.le_succ k)
    -- A step that is not counted is one that stops the machine.
    rw [Function.iterate_succ_apply'] at h ⊢
    have hready : (step^[k] m).Ready := ready_of_step hrun fun fault => by rw [h]; exact nofun
    obtain ⟨-, -, -, -, hcount⟩ := setup_of_step hready
    rw [hcount, ih hrun, Nat.add_assoc]

/-! ## Traces -/

/-- The instructions dispatched in the first `k` steps. -/
def trace (m : Machine) : Nat → Array Event
  | 0 => #[]
  | k + 1 => ((step^[k] m).stepTraced (m.trace k)).2

/-- Machines that dispatch the same instructions step by step have the same trace. -/
theorem trace_congr {m' : Machine}
    (h : ∀ j < k, (step^[j] m).event? = (step^[j] m').event?) : m.trace k = m'.trace k := by
  induction k with
  | zero => rfl
  | succ k ih =>
    unfold trace stepTraced
    rw [ih fun j hj => h j (Nat.lt_succ_of_lt hj), h k (Nat.lt_succ_self k)]

/-- A machine that has stopped dispatches nothing more. -/
theorem trace_of_stopped (h : (step^[j] m).status ≠ .running) (hjk : j ≤ k) :
    m.trace k = m.trace j := by
  induction k, hjk using Nat.le_induction with
  | base => rfl
  | succ k hjk ih =>
    have hstop : (step^[k] m).status ≠ .running := by
      rw [iterate_of_stopped h hjk]
      exact h
    rw [trace, stepTraced_of_stopped hstop, ih]

/-- What a step emits does not depend on what was emitted before. -/
theorem stepTraced_append (m : Machine) (earlier events : Array Event) :
    (m.stepTraced (earlier ++ events)).2 = earlier ++ (m.stepTraced events).2 := by
  unfold stepTraced
  cases m.event? with
  | none => rfl
  | some event => exact Array.push_append

/-- The instructions of further steps follow those of the first ones. -/
theorem trace_add (m : Machine) (j k : Nat) :
    m.trace (j + k) = m.trace j ++ (step^[j] m).trace k := by
  induction k with
  | zero => exact Array.append_empty.symm
  | succ k ih =>
    -- The last of the `j + k` steps is made by the machine after the others.
    have hlast : step^[j + k] m = step^[k] (step^[j] m) := by
      rw [Nat.add_comm, Function.iterate_add_apply]
    rw [← Nat.add_assoc, trace, trace, ih, hlast, stepTraced_append]

/-- The last step of a run, if it is made at all. -/
theorem runTraced_succ (fuel : Nat) (m : Machine) (events : Array Event) :
    m.runTraced (fuel + 1) events =
      (m.runTraced fuel events).1.stepTraced (m.runTraced fuel events).2 := by
  -- The definition makes the first step first, so the machine and the events vary.
  induction fuel generalizing m events with
  | zero =>
    by_cases hrun : m.status = .running
    · simp [runTraced, hrun]
    · rw [runTraced_of_stopped hrun, runTraced_of_stopped hrun, stepTraced_of_stopped hrun]
  | succ fuel ih =>
    by_cases hrun : m.status = .running
    · have hfirst (n : Nat) : m.runTraced (n + 1) events =
          (m.stepTraced events).1.runTraced n (m.stepTraced events).2 := by
        rw [runTraced, hrun]
      rw [hfirst, ih, ← hfirst]
    · rw [runTraced_of_stopped hrun, runTraced_of_stopped hrun, stepTraced_of_stopped hrun]

/-- A run is a number of steps, and its events are their trace. -/
theorem runTraced_eq (fuel : Nat) (m : Machine) :
    m.runTraced fuel #[] = (step^[fuel] m, m.trace fuel) := by
  induction fuel with
  | zero => rfl
  | succ fuel ih =>
    rw [runTraced_succ, ih, Function.iterate_succ_apply']
    rfl

/-- The same run without its events. -/
theorem run_eq_iterate (fuel : Nat) (m : Machine) : m.run fuel = step^[fuel] m := by
  rw [← runTraced_fst fuel m #[], runTraced_eq]

end Machine

/-! ## Answers of a run -/

open Machine

variable {m m' : Machine} {reply : Reply} {k : Nat}

/-- A machine that stops within `k` steps makes a run answer with how it stopped, and nothing
else. -/
theorem answers_run_iff (hstop : (step^[k] m).status ≠ .running) :
    Answers .run m reply m' ↔
      reply = .outcome (step^[k] m).status (m.trace k) ∧ m' = step^[k] m := by
  constructor
  · intro h
    cases h with
    | run _ fuel stopped =>
      rw [runTraced_eq] at stopped ⊢
      -- Both numbers of steps are large enough, so both lead to the same machine.
      rcases Nat.le_total fuel k with hle | hle
      · rw [iterate_of_stopped stopped hle, trace_of_stopped stopped hle]
        exact ⟨rfl, rfl⟩
      · dsimp only
        rw [iterate_of_stopped hstop hle, trace_of_stopped hstop hle]
        exact ⟨rfl, rfl⟩
  · rintro ⟨rfl, rfl⟩
    have h := Answers.run m k (by rw [runTraced_eq]; exact hstop)
    rw [runTraced_eq] at h
    exact h

/-- A run answers with how the machine has stopped. -/
theorem Machine.answers_of_iterate {status : Status} (h : (step^[k] m).status = status)
    (hstop : status ≠ .running) :
    ∃ events, Answers .run m (.outcome status events) (step^[k] m) := by
  subst h
  exact ⟨_, (answers_run_iff hstop).2 ⟨rfl, rfl⟩⟩

/-- A run that answers has stopped the machine after some number of steps. -/
theorem exists_steps_of_run (h : Answers .run m reply m') :
    ∃ k, (step^[k] m).status ≠ .running ∧
      reply = .outcome (step^[k] m).status (m.trace k) ∧ m' = step^[k] m := by
  cases h with
  | run _ fuel stopped =>
    rw [runTraced_eq] at stopped ⊢
    exact ⟨fuel, stopped, rfl, rfl⟩

/-- The instructions that a reply reports. -/
def Reply.events : Reply → List Event
  | .outcome _ events => events.toList
  | .done | .value _ | .refused _ => []

/-- A step or a run makes a number of steps and reports their trace. -/
theorem exists_steps_of_answers {request : Request} (h : Answers request m reply m')
    (hrequest : request = .step ∨ request = .run) :
    ∃ k, m' = step^[k] m ∧ reply.events = (m.trace k).toList := by
  rcases hrequest with rfl | rfl
  · cases h
    exact ⟨1, rfl, rfl⟩
  · obtain ⟨k, -, rfl, rfl⟩ := exists_steps_of_run h
    exact ⟨k, rfl, rfl⟩

/-- A session of steps and runs makes a number of steps, and its replies report their trace. -/
theorem exists_steps_of_session {history : List (Request × Reply)} (h : Session m history m')
    (hdriven : ∀ answer ∈ history, answer.1 = .step ∨ answer.1 = .run) :
    ∃ k, m' = step^[k] m ∧ history.flatMap (·.2.events) = (m.trace k).toList := by
  induction h with
  | nil m => exact ⟨0, rfl, rfl⟩
  | cons head tail ih =>
    -- The steps of the first request, and then those of the rest.
    obtain ⟨j, rfl, hfirst⟩ := exists_steps_of_answers head (hdriven _ List.mem_cons_self)
    obtain ⟨k, rfl, hrest⟩ := ih fun answer hanswer => hdriven _ (List.mem_cons_of_mem _ hanswer)
    refine ⟨j + k, ?_, ?_⟩
    · rw [Nat.add_comm, Function.iterate_add_apply]
    · rw [List.flatMap_cons, hfirst, hrest, trace_add, Array.toList_append]

/-- A request has one answer. -/
theorem Answers.unique {request : Request} {reply' : Reply} {m'' : Machine}
    (h : Answers request m reply m') (h' : Answers request m reply' m'') :
    reply' = reply ∧ m'' = m' := by
  cases request with
  | step =>
    cases h
    cases h'
    exact ⟨rfl, rfl⟩
  | run =>
    obtain ⟨k, hstop, rfl, rfl⟩ := exists_steps_of_run h
    exact (answers_run_iff hstop).1 h'
  | reset =>
    cases h
    cases h'
    exact ⟨rfl, rfl⟩
  | access a =>
    cases h with
    | value hok =>
      cases h' with
      | value hok' =>
        rw [hok] at hok'
        cases hok'
        exact ⟨rfl, rfl⟩
      | refused herror =>
        rw [hok] at herror
        cases herror
    | refused herror =>
      cases h' with
      | value hok =>
        rw [herror] at hok
        cases hok
      | refused herror' =>
        rw [herror] at herror'
        cases herror'
        exact ⟨rfl, rfl⟩

end StackMachine
