import StackMachine.Proofs.Decoding
import StackMachine.Proofs.Residue

/-!
# The instruction that a fault names

A fault carries the site of an instruction: its offset and the word of its opcode. Both are written
at the beginning of a step, when the program counter is still at the instruction, so a fault names
the instruction that failed although the program counter has moved on by then. That is a property of
one step.

For a session, the step in question has to be found. `StoppedFrom` says that a session consists of
requests before it, the step or run that it ended, and requests that found the machine stopped. The
latter leave the control of the machine alone and report no instructions, so the fault, the count of
steps and the last instruction reported are those of that step.
-/

namespace StackMachine

open Machine

/-! ## Faulting steps -/

namespace Machine

variable {m : Machine} {fault : Fault} {word : Int64}

/-- A fault is at the program counter of the machine that was stepped. -/
theorem pc_of_fault (hrun : m.status = .running) (hfault : m.step.status = .faulted fault) :
    fault.pc = m.pc := by
  obtain ⟨limit, -, -, rfl, -⟩ | ⟨-, left, hdispatch, -⟩ := faulted_cases hrun hfault
  · rfl
  · exact congrArg Site.pc (leaves_of_dispatch hdispatch).site

/-- A fault that says the budget is spent names no opcode, and the steps have reached the limit. -/
theorem spent_of_stepLimit {code : Array Int64} {entry locals : Int} {options : Options}
    (hinv : m.Invariant code entry locals options) (hrun : m.status = .running)
    (hfault : m.step.status = .faulted fault) (hkind : fault.kind = .stepLimitExceeded) :
    fault.op = 0 ∧ m.step.steps = options.maxSteps := by
  obtain ⟨limit, hlimit, hle, rfl, hstep⟩ | ⟨-, left, hdispatch, -⟩ := faulted_cases hrun hfault
  · refine ⟨rfl, ?_⟩
    -- The steps never pass the limit, and a spent budget means that they do not stay below it.
    have hge := hinv.steps_le limit hlimit
    rw [hinv.budget_eq, budgetOf] at hlimit
    rw [hstep]
    show (m.steps : Int) = options.maxSteps
    split at hlimit
    · cases hlimit
      omega
    · cases hlimit
  · exact absurd hkind (kind_ne_of_dispatch hinv.bounded hdispatch)

/-- Every other fault is that of a dispatch. -/
theorem dispatch_of_kind_ne (hrun : m.status = .running) (hfault : m.step.status = .faulted fault)
    (hkind : fault.kind ≠ .stepLimitExceeded) :
    ∃ left, Action.dispatch m = .error fault left := by
  obtain ⟨limit, -, -, rfl, -⟩ | ⟨-, left, hdispatch, -⟩ := faulted_cases hrun hfault
  · exact absurd rfl hkind
  · exact ⟨left, hdispatch⟩

/-- The opcode of a fault is the word at the program counter. -/
theorem op_of_dispatch {left : Machine} (h : Action.dispatch m = .error fault left) :
    fault.op = (m.word? m.pc).getD 0 :=
  congrArg Site.op (leaves_of_dispatch h).site

/-- An opcode is unknown exactly if the word is that of none. -/
theorem kind_eq_unknownOpcode_iff {left : Machine} (hb : m.Bounded) (hw : m.word? m.pc = some word)
    (h : Action.dispatch m = .error fault left) :
    fault.kind = .unknownOpcode ↔ ∀ op : Opcode, op.word ≠ word := by
  rw [← Opcode.ofWord?_eq_none_iff]
  constructor
  · intro hkind
    cases hop : Opcode.ofWord? word with
    | none => rfl
    | some op =>
      -- An opcode faults only with the kinds of its row, and no row lists the unknown opcode.
      have hmem := kind_mem_of_dispatch hb ((opcode?_of_word hw).trans hop) h
      rw [hkind] at hmem
      exact absurd hmem (not_mem_faultKinds op).1
  · intro hop
    exact kind_of_no_opcode hw hop h

/-- The instruction that is dispatched at a word is reported with that word. -/
theorem exists_event (hready : m.Ready) (hw : m.word? m.pc = some word) :
    ∃ event, m.event? = some event ∧ event.instruction.offset = m.pc ∧
      event.instruction.op = word := by
  have hin := inside_of_word? hw
  have hpc : m.pc = m.pc.toNat := by omega
  rw [hpc] at hw
  obtain ⟨hlt, hword⟩ := getElem_of_word? hw
  exact ⟨_, event?_of_ready hready hin, hpc.symm, hword⟩

/-! ## The last of several steps -/

/-- A machine that is stopped by a number of steps is stopped by one of them. -/
theorem exists_last_step {k : Nat} (hrun : m.status = .running)
    (hstop : (step^[k] m).status ≠ .running) :
    ∃ j < k, (step^[j] m).status = .running ∧ step^[k] m = (step^[j] m).step := by
  induction k with
  | zero => exact absurd hrun hstop
  | succ k ih =>
    -- Either the last of the steps stops the machine, or it was stopped before and that step
    -- changes nothing.
    by_cases hk : (step^[k] m).status = .running
    · exact ⟨k, Nat.lt_succ_self k, hk, Function.iterate_succ_apply' step k m⟩
    · obtain ⟨j, hj, hrunning, hlast⟩ := ih hk
      refine ⟨j, Nat.lt_succ_of_lt hj, hrunning, ?_⟩
      rw [iterate_of_stopped hk (Nat.le_succ k), hlast]

/-- The last step adds its instruction to the trace. -/
theorem toList_trace_succ (m : Machine) (k : Nat) :
    (m.trace (k + 1)).toList = (m.trace k).toList ++ (step^[k] m).event?.toList := by
  rw [trace, stepTraced]
  cases (step^[k] m).event? with
  | none => exact (List.append_nil _).symm
  | some event => exact Array.toList_push

end Machine

/-! ## The request that stops a machine -/

variable {start m m' last : Machine} {history : List (Request × Reply)}

/-- A request after which a machine has stopped found it stopped, or stopped it by a step. -/
theorem Answers.stopped_cases {request : Request} {reply : Reply}
    (h : Answers request m reply m') (hstop : m'.status ≠ .running) :
    (m.status ≠ .running ∧ request ≠ .reset) ∨
    ((request = .step ∨ request = .run) ∧
      ∃ k, (Machine.step^[k] m).status = .running ∧ m' = (Machine.step^[k] m).step) := by
  have hreset : request ≠ .reset := by
    rintro rfl
    cases h
    exact hstop rfl
  by_cases hrun : m.status = .running
  · -- An access cannot stop a machine that runs, so it was a step or a run.
    refine .inr ?_
    cases request with
    | step =>
      cases h
      exact ⟨.inl rfl, 0, hrun, rfl⟩
    | run =>
      obtain ⟨k, hstopped, -, rfl⟩ := exists_steps_of_run h
      obtain ⟨j, -, hrunning, hlast⟩ := exists_last_step hrun hstopped
      exact ⟨.inr rfl, j, hrunning, hlast⟩
    | reset => exact absurd rfl hreset
    | access access => exact absurd (h.sameControl.status.trans hrun) hstop
  · exact .inl ⟨hrun, hreset⟩

/-- The session stops the machine in the step that `last` makes. That step is the last one of a
request, and after that request there is no reset. -/
inductive StoppedFrom (start : Machine) : List (Request × Reply) → Machine → Machine → Prop where
  | intro {before after : List (Request × Reply)} {request : Request} {reply : Reply}
      {m₁ m : Machine} (k : Nat) (hbefore : Session start before m₁)
      (hrequest : request = .step ∨ request = .run)
      (hrun : (step^[k] m₁).status = .running) (hstop : (step^[k] m₁).step.status ≠ .running)
      (hanswer : Answers request m₁ reply (step^[k] m₁).step)
      (hafter : Session (step^[k] m₁).step after m)
      (hreset : ∀ exchange ∈ after, exchange.1 ≠ .reset) :
      StoppedFrom start (before ++ (request, reply) :: after) m (step^[k] m₁)

/-- A session after which a machine has stopped found it stopped, or stopped it. -/
theorem Session.stopped_cases (h : Session start history m) (hstop : m.status ≠ .running) :
    (start.status ≠ .running ∧ ∀ exchange ∈ history, exchange.1 ≠ .reset) ∨
    ∃ last, StoppedFrom start history m last := by
  induction h with
  | nil start => exact .inl ⟨hstop, fun exchange hmem => absurd hmem List.not_mem_nil⟩
  | cons head tail ih =>
    obtain ⟨hfirst, hreset⟩ | ⟨last, hlast⟩ := ih hstop
    · -- The rest found the machine stopped, so it is the first request that matters.
      obtain ⟨hstart, hrequest⟩ | ⟨hrequest, k, hrun, rfl⟩ := head.stopped_cases hfirst
      · exact .inl ⟨hstart, List.forall_mem_cons.2 ⟨hrequest, hreset⟩⟩
      · exact .inr ⟨_, .intro k (.nil _) hrequest hrun hfirst head tail hreset⟩
    · -- The machine was stopped later, so the first request is one of those before.
      cases hlast with
      | intro k hbefore hrequest hrun hstopped hanswer hafter hreset =>
        exact .inr ⟨_, .intro k (.cons head hbefore) hrequest hrun hstopped hanswer hafter hreset⟩

/-- On a machine that has stopped, no request reports instructions. -/
theorem Answers.events_of_stopped {request : Request} {reply : Reply}
    (h : Answers request m reply m') (hstop : m.status ≠ .running) : reply.events = [] := by
  cases request with
  | step =>
    rw [((answers_iff_of_stopped hstop (.inl rfl)).1 h).1]
    rfl
  | run =>
    rw [((answers_iff_of_stopped hstop (.inr rfl)).1 h).1]
    rfl
  | reset =>
    cases h
    rfl
  | access access =>
    cases h with
    | value => rfl
    | refused => rfl

/-- Without a reset, a session with a machine that has stopped reports no instructions. -/
theorem Session.events_of_stopped (h : Session m history m') (hstop : m.status ≠ .running)
    (hreset : ∀ exchange ∈ history, exchange.1 ≠ .reset) :
    history.flatMap (·.2.events) = [] := by
  induction h with
  | nil m => rfl
  | cons head _ ih =>
    -- The invariant is that the machine has stopped, which only a reset would undo.
    have hkept := (head.sameControl_of_stopped hstop (hreset _ List.mem_cons_self)).status
    rw [List.flatMap_cons, head.events_of_stopped hstop, List.nil_append]
    exact ih (by rw [hkept]; exact hstop) fun e he => hreset e (List.mem_cons_of_mem _ he)

namespace StoppedFrom

/-- The machine was still running, and its step stopped it. -/
theorem running (h : StoppedFrom start history m last) :
    last.status = .running ∧ last.step.status ≠ .running := by
  cases h with
  | intro k hbefore hrequest hrun hstop => exact ⟨hrun, hstop⟩

/-- After the step, the control of the machine stays as it is. -/
theorem sameControl (h : StoppedFrom start history m last) : last.step.SameControl m := by
  cases h with
  | intro k hbefore hrequest hrun hstop hanswer hafter hreset =>
    exact hafter.sameControl_of_stopped hstop hreset

/-- The machine before the step satisfies the invariant of the session. -/
theorem invariant {code : Array Int64} {entry locals : Int} {options : Options}
    (h : StoppedFrom (Machine.new code entry locals options) history m last) :
    last.Invariant code entry locals options := by
  cases h with
  | intro k hbefore =>
    exact Function.Iterate.rec (Machine.Invariant code entry locals options) hbefore.invariant
      (fun _ hm => hm.step) k

/-- The last instruction that the session reports is that of the step, if it has one. -/
theorem events (h : StoppedFrom start history m last) :
    ∃ earlier, history.flatMap (·.2.events) = earlier ++ last.event?.toList := by
  cases h with
  | intro k hbefore hrequest hrun hstop hanswer hafter hreset =>
    rename_i before after request reply m₁
    obtain ⟨j, hj, hevents⟩ := exists_steps_of_answers hanswer hrequest
    have hstopped : (step^[k + 1] m₁).status ≠ .running := by
      rw [Function.iterate_succ_apply']
      exact hstop
    -- The request has made this step, and what it may have made afterwards adds nothing.
    have hle : k + 1 ≤ j := by
      by_contra hlt
      refine hstop ?_
      rw [hj]
      exact running_of_iterate hrun (by omega)
    refine ⟨before.flatMap (·.2.events) ++ (m₁.trace k).toList, ?_⟩
    rw [List.flatMap_append, List.flatMap_cons, hafter.events_of_stopped hstop hreset,
      List.append_nil, hevents, trace_of_stopped hstopped hle, toList_trace_succ,
      List.append_assoc]

end StoppedFrom

/-! ## What a fault names -/

/-- If a session with a new machine leaves it faulted, there is a step of the session in which it
did, and the fault is at the program counter before that step. If the budget is spent, no opcode is
named and the steps are as many as the limit allows. Otherwise, outside the code it is the program
counter that is invalid, and no opcode is named. Inside the code the word there is named, which is
unknown exactly if it is that of none of the opcodes, and the instruction is the last one that the
session reports. Whatever a host asks afterwards, failing or not, the fault stays until a reset
clears it. -/
theorem fault_names_instruction {code : Array Int64} {entry locals : Int} {options : Options}
    {fault : Fault} (h : Session (Machine.new code entry locals options) history m)
    (hfault : m.status = .faulted fault) :
    (∃ last, StoppedFrom (Machine.new code entry locals options) history m last ∧
      last.step.status = .faulted fault ∧ fault.pc = last.pc ∧
      (fault.kind = .stepLimitExceeded → fault.op = 0 ∧ m.steps = options.maxSteps) ∧
      (fault.kind ≠ .stepLimitExceeded → ¬ (0 ≤ last.pc ∧ last.pc < code.size) →
        fault.kind = .invalidProgramCounter ∧ fault.op = 0) ∧
      (fault.kind ≠ .stepLimitExceeded → ∀ (p : Nat) (word : Int64), last.pc = p →
        code[p]? = some word →
        fault.op = word ∧ (fault.kind = .unknownOpcode ↔ ∀ op : Opcode, op.word ≠ word) ∧
        ∃ event, (history.flatMap (·.2.events)).getLast? = some event ∧
          event.instruction.offset = fault.pc ∧ event.instruction.op = fault.op)) ∧
    ∀ later m', Session m later m' → (∀ exchange ∈ later, exchange.1 ≠ .reset) →
      m'.status = .faulted fault ∧ m'.reset.status = .running := by
  have hstop : m.status ≠ .running := by
    rw [hfault]
    exact Status.noConfusion
  refine ⟨?_, fun later m' hlater hreset => ?_⟩
  · obtain ⟨hnew, -⟩ | ⟨last, hlast⟩ := h.stopped_cases hstop
    · exact absurd rfl hnew
    -- All that is said of the fault is said of one step, and `last` is the machine that makes it.
    have hinv := hlast.invariant
    have hrun := hlast.running.1
    have hfaulted : last.step.status = .faulted fault := hlast.sameControl.status.symm.trans hfault
    have hcode : last.code = code := hinv.code_eq
    refine ⟨last, hlast, hfaulted, pc_of_fault hrun hfaulted, fun hkind => ?_, fun hkind hout => ?_,
      fun hkind p word hpc hword => ?_⟩
    · obtain ⟨hop, hsteps⟩ := spent_of_stepLimit hinv hrun hfaulted hkind
      rw [hlast.sameControl.steps]
      exact ⟨hop, hsteps⟩
    · obtain ⟨left, hdispatch⟩ := dispatch_of_kind_ne hrun hfaulted hkind
      rw [← hcode] at hout
      have hnone := (last.word?_eq_none_iff last.pc).2 hout
      rw [op_of_dispatch hdispatch, hnone]
      exact ⟨kind_of_no_word hnone hdispatch, rfl⟩
    · obtain ⟨left, hdispatch⟩ := dispatch_of_kind_ne hrun hfaulted hkind
      have hw : last.word? last.pc = some word := by rw [hpc, word?_natCast, hcode, hword]
      have hop : fault.op = word := by rw [op_of_dispatch hdispatch, hw, Option.getD_some]
      refine ⟨hop, kind_eq_unknownOpcode_iff hinv.bounded hw hdispatch, ?_⟩
      obtain ⟨event, hevent, hoffset, hword'⟩ :=
        exists_event (ready_of_kind_ne hrun hfaulted hkind) hw
      obtain ⟨earlier, hevents⟩ := hlast.events
      refine ⟨event, ?_, ?_, ?_⟩
      · rw [hevents, hevent]
        exact List.getLast?_concat
      · rw [hoffset, pc_of_fault hrun hfaulted]
      · rw [hword', hop]
  · exact ⟨(hlater.status_of_stopped hstop hreset).trans hfault, rfl⟩

/-- A run comes to a word that is no opcode. The host then fetches past the end of the code, which
is refused, pushes a word and asks for another step. The fault is still that of the run. -/
theorem fault_names_instruction_unknown :
    ∃ history m fault, Session (Machine.new #[Opcode.const.word, 1, 99] 0 0) history m ∧
      history.map Prod.fst = [.run, .access .fetch, .access (.push 5), .step] ∧
      (m.status = .faulted fault ∧ fault.pc = 2 ∧ fault.op = 99 ∧ fault.kind = .unknownOpcode) ∧
      ∃ event, (history.flatMap (·.2.events)).getLast? = some event ∧
        event.instruction.offset = fault.pc ∧ event.instruction.op = fault.op := by
  let ran := step^[2] (Machine.new #[Opcode.const.word, 1, 99] 0 0)
  let pushed := ran.withStack (ran.stack.push 5 (by decide +kernel))
  have hrun := (answers_run_iff (m := Machine.new #[Opcode.const.word, 1, 99] 0 0) (k := 2)
    (by decide +kernel)).2 ⟨rfl, rfl⟩
  have hfetch : Access.fetch.action ran = .error { ran.site with reason := .fetch 3 3 } ran := rfl
  have hpush : (Access.push 5).action ran = .ok none pushed := rfl
  have hsession : Session (Machine.new #[Opcode.const.word, 1, 99] 0 0) _ pushed.step :=
    .cons hrun (.cons (.refused hfetch) (.cons (.value hpush) (.cons (.step pushed) (.nil _))))
  have hfault : pushed.step.status = .faulted ⟨⟨2, 99⟩, .noOpcode 99⟩ := by decide +kernel
  obtain ⟨⟨last, -, -, hpc, -, -, hnamed⟩, -⟩ := fault_names_instruction hsession hfault
  obtain ⟨-, hunknown, hevent⟩ := hnamed (by decide) 2 99 hpc.symm rfl
  have hnone : ∀ op : Opcode, op.word ≠ 99 := by
    intro op
    cases op <;> decide
  exact ⟨_, _, _, hsession, rfl, ⟨hfault, rfl, rfl, hunknown.2 hnone⟩, hevent⟩

end StackMachine
