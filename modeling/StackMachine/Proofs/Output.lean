import StackMachine.Proofs.Discipline
import StackMachine.Proofs.Opcode
import StackMachine.Proofs.Supply

/-!
# A sink that fails cuts the output

Take the same program on a sink with room for `k` writes and on one that takes everything. The two
machines differ in nothing but the sink until the first one is refused a write. Only a print can be
refused, and only when `k` values have been printed, so that happens at the print after the `k`-th,
if there is one (`outputFailed_iff`). There the first machine faults, with the value off its stack
already, while the second goes on; what the first has printed are the first `k` values of the
second.
-/

namespace StackMachine

namespace Sink

/-- The sink with room for `k` writes in all that has taken the values `printed`. -/
def limited (k : Nat) (complaint : String) (printed : Array Int64) : Sink :=
  { printed, room := some (k - printed.size), complaint }

/-- From a sink with room for `k` writes, no more than `k` values are taken. -/
theorem Took.eq_limited {k : Nat} {complaint : String} {values : Array Int64} {s : Sink}
    (h : (limited k complaint #[]).Took values s) :
    s = limited k complaint s.printed ∧ s.printed.size ≤ k := by
  obtain ⟨hprinted, hroom, hcomplaint, hfits⟩ := h
  obtain ⟨⟨room, complaint'⟩, printed⟩ := s
  simp only [limited, Array.empty_append, Array.size_empty, Nat.sub_zero, Option.map_some] at *
  subst hprinted hroom hcomplaint
  exact ⟨rfl, hfits k rfl⟩

/-- The sink is full once it has taken `k` values. -/
theorem size_of_isFull {k : Nat} {complaint : String} {printed : Array Int64}
    (h : (limited k complaint printed).isFull = true) (hle : printed.size ≤ k) :
    printed.size = k := by
  have hzero : k - printed.size = 0 := by
    simpa [Outlet.isFull, limited] using h
  omega

end Sink

namespace Machine

variable {m : Machine}

/-! ## Refused writes -/

/-- The machine has faulted because its sink refused a write. -/
def OutputFailed (m : Machine) : Prop :=
  ∃ fault, m.status = .faulted fault ∧ fault.kind = .outputFailure

/-- The next instruction prints a word, and the sink refuses it. -/
structure Refused (m : Machine) : Prop where
  ready : m.Ready
  word_eq : m.word? m.pc = some Opcode.print.word
  size_pos : 0 < m.stack.size
  full : m.out.isFull = true

/-- No instruction but a print checks the sink. -/
theorem eq_print_of_fault? {op : Opcode} (h : (Table.row m op).fault? = some .outputFailure) :
    op = .print := by
  have hmem : .outputFailure ∈ op.faultKinds := Table.kind_mem_faultKinds h
  clear h
  revert hmem
  cases op <;> decide

/-- Where the table lists a refused write, the next instruction is a print. -/
theorem opcode?_of_fault? (h : m.row.fault? = some .outputFailure) : m.opcode? = some .print := by
  unfold row at h
  unfold opcode?
  cases hw : m.word? m.pc with
  | none =>
    rw [hw] at h
    cases h
  | some word =>
    rw [hw] at h
    rw [Option.bind_some]
    dsimp only at h
    cases hop : Opcode.ofWord? word with
    | none =>
      rw [hop] at h
      cases h
    | some op =>
      rw [hop] at h
      rw [eq_print_of_fault? h]

/-- A sink is refused nothing but the word of a print. -/
theorem refused_of_outputFailed (hb : m.Bounded) (hrun : m.status = .running)
    (hfailed : m.step.OutputFailed) : m.Refused := by
  obtain ⟨fault, hfault, hkind⟩ := hfailed
  have hready : m.Ready := by
    refine ⟨hrun, Bool.eq_false_of_not_eq_true fun hspent => ?_⟩
    -- A spent budget makes a fault of another kind.
    obtain ⟨limit, -, hstep⟩ := step_of_spent hrun hspent
    rw [hstep] at hfault
    cases hfault
    cases hkind
  have hrow := (faults_iff hb hready .outputFailure).1 ⟨fault, hfault, hkind⟩
  have hop := opcode?_of_fault? hrow
  obtain ⟨word, hw, hword⟩ := Option.bind_eq_some_iff.1 hop
  rw [Opcode.eq_word hword] at hw
  -- Of the two checks of a print, the first has passed and the second has failed.
  rw [row_of_opcode hop, Table.row] at hrow
  have hpos : ¬ m.stack.size < 1 := by
    intro hempty
    rw [Row.fault?_of_fails (decide_eq_true hempty)] at hrow
    cases hrow
  rw [Row.fault?_of_passes (decide_eq_false hpos)] at hrow
  refine ⟨hready, hw, Nat.not_lt.1 hpos, Bool.eq_true_of_not_eq_false fun hroom => ?_⟩
  rw [Row.fault?_of_passes hroom] at hrow
  cases hrow

/-- A machine that runs has not been refused a write. -/
theorem not_outputFailed_of_running (h : m.status = .running) : ¬ m.OutputFailed := by
  rintro ⟨fault, hfault, -⟩
  rw [h] at hfault
  cases hfault

/-- A machine that has not been refused a write after `n` steps had not been before. -/
theorem not_outputFailed_of_iterate {j n : Nat} (h : ¬ (step^[n] m).OutputFailed) (hjn : j ≤ n) :
    ¬ (step^[j] m).OutputFailed := by
  rintro ⟨fault, hfault, hkind⟩
  exact h ⟨fault, faulted_iterate hfault hjn, hkind⟩

/-- A machine that fails to print while it runs was refused a write at some step before. -/
theorem exists_refused {n : Nat} (hb : ∀ j, (step^[j] m).Bounded) (hrun : m.status = .running)
    (hfailed : (step^[n] m).OutputFailed) : ∃ j < n, (step^[j] m).Refused := by
  induction n with
  | zero =>
    obtain ⟨fault, hfault, -⟩ := hfailed
    rw [Function.iterate_zero_apply, hrun] at hfault
    cases hfault
  | succ n ih =>
    by_cases hrun' : (step^[n] m).status = .running
    · rw [Function.iterate_succ_apply'] at hfailed
      exact ⟨n, Nat.lt_succ_self n, refused_of_outputFailed (hb n) hrun' hfailed⟩
    · -- The machine had stopped before, and for the same reason.
      rw [iterate_of_stopped hrun' (Nat.le_succ n)] at hfailed
      obtain ⟨j, hj, hrefused⟩ := ih hfailed
      exact ⟨j, Nat.lt_succ_of_lt hj, hrefused⟩

/-! ## Steps that print -/

/-- A print takes the topmost word off the stack and hands it to the sink. -/
theorem dispatch_print (hw : m.word? m.pc = some Opcode.print.word) (hpos : 0 < m.stack.size) :
    Action.dispatch m = (do Action.print (m.stack.top hpos); pure false : Action Bool)
      ((m.decoded Opcode.print.word).withStack (m.stack.pop hpos)) := by
  rw [dispatch_of_some hw]
  exact Action.bind_ok (Action.pop_of_pos (m := m.decoded Opcode.print.word) hpos)

/-- A print that is refused faults where it stands, with the word off the stack. -/
theorem step_of_refused (h : m.Refused) :
    m.step =
      { m with
        pc := m.pc + 1
        stack := m.stack.pop h.size_pos
        steps := m.steps + 1
        site := ⟨m.pc, Opcode.print.word⟩
        status := .faulted
          { pc := m.pc
            op := Opcode.print.word
            reason := .refused (m.stack.top h.size_pos) m.out.complaint } } := by
  have hprint := Action.print_of_full
    (m := (m.decoded Opcode.print.word).withStack (m.stack.pop h.size_pos))
    (m.stack.top h.size_pos) h.full
  rw [step_of_ready h.ready, step.advance, dispatch_print h.word_eq h.size_pos,
    Action.bind_error hprint]

/-- A print that is not refused goes on, with the word in the sink. -/
theorem step_of_print (hready : m.Ready) (hw : m.word? m.pc = some Opcode.print.word)
    (hpos : 0 < m.stack.size) (hroom : m.out.isFull = false) :
    m.step =
      { m with
        pc := m.pc + 1
        stack := m.stack.pop hpos
        steps := m.steps + 1
        site := ⟨m.pc, Opcode.print.word⟩
        out := m.out.write (m.stack.top hpos) } := by
  have hprint := Action.print_of_room
    (m := (m.decoded Opcode.print.word).withStack (m.stack.pop hpos)) (m.stack.top hpos) hroom
  rw [step_of_ready hready, step.advance, dispatch_print hw hpos, Action.bind_ok hprint]
  rfl

/-! ## Without the limit -/

/-- The machine on a sink that takes everything from now on. -/
abbrev unlimited (m : Machine) : Machine :=
  { m with out := m.out.unlimited }

/-- A sink without a limit is a supply of nothing else. -/
theorem supply_endless {m : Machine} {budget : Option Nat} (h : m.budget = budget) :
    m.supply { endless := true, budget } = m.unlimited := by
  subst h
  unfold supply
  simp

/-- A sink without a limit averts no fault but a refused write. -/
theorem outputFailed_of_fellShort {budget : Option Nat}
    (h : FellShort { endless := true, budget } m) : m.OutputFailed := by
  obtain ⟨fault, hfault, haverts⟩ := h
  refine ⟨fault, hfault, ?_⟩
  cases hkind : fault.kind <;> simp [hkind, Supply.Averts] at haverts ⊢

/-- The limit is not seen before a write is refused. -/
theorem iterate_unlimited {n : Nat} (h : ¬ (step^[n] m).OutputFailed) :
    step^[n] m.unlimited = (step^[n] m).unlimited := by
  rw [← supply_endless (m := m) rfl, ← supply_endless (m := step^[n] m) (budget_iterate m n)]
  exact iterate_supply_of_budget rfl (mt outputFailed_of_fellShort h)

/-- The instructions are the same, including the one in which a write is refused. -/
theorem trace_unlimited {n : Nat} (h : ∀ j < n, ¬ (step^[j] m).OutputFailed) :
    m.unlimited.trace n = m.trace n := by
  rw [← supply_endless (m := m) rfl]
  exact trace_supply_of_budget rfl rfl fun j hj => mt outputFailed_of_fellShort (h j hj)

/-- In the step in which a write is refused, the machine without the limit differs by its run state
and by the value in its sink. -/
theorem step_unlimited_of_refused (h : m.Refused) :
    m.unlimited.step.out.printed = m.out.printed.push (m.stack.top h.size_pos) ∧
    m.unlimited.stack.toList =
      m.unlimited.step.stack.toList ++ [m.stack.top h.size_pos] ∧
    m.step =
      { m.unlimited.step with
        out := m.out
        status := .faulted
          { pc := m.pc
            op := Opcode.print.word
            reason := .refused (m.stack.top h.size_pos) m.out.complaint } } := by
  have hready : m.unlimited.Ready := ⟨h.ready.running, h.ready.unspent⟩
  have hstep := step_of_print hready h.word_eq h.size_pos rfl
  rw [hstep, step_of_refused h]
  refine ⟨rfl, ?_, rfl⟩
  show m.stack.toList = (m.stack.pop h.size_pos).toList ++ [m.stack.top h.size_pos]
  have hlt : m.stack.size - 1 < m.stack.size := Nat.sub_lt h.size_pos Nat.one_pos
  rw [Stack.toList_pop, Stack.top_eq_slot, ← Stack.take_succ_toList _ _ hlt,
    Nat.sub_add_cancel h.size_pos, Stack.take_size_toList]

/-- What has been printed stays printed. -/
theorem exists_printed_append {j n : Nat} (hjn : j ≤ n) :
    ∃ values, (step^[n] m).out.printed = (step^[j] m).out.printed ++ values := by
  obtain ⟨more, rfl⟩ := Nat.exists_eq_add_of_le' hjn
  obtain ⟨values, htook⟩ := Prints.iterate (step^[j] m) more
  rw [Function.iterate_add_apply]
  exact ⟨values, htook.printed⟩

/-! ## With the limit -/

/-- A machine that starts to run on a sink with room for `k` writes, and stays within its bounds. -/
structure StartsLimited (k : Nat) (complaint : String) (m : Machine) : Prop where
  running : m.status = .running
  out_eq : m.out = Sink.limited k complaint #[]
  bounded : ∀ n, (step^[n] m).Bounded

/-- The step after the `j`-th is the print of `v` after `k` others. There the machine is cut off,
and the one without the limit goes on. -/
structure CutAt (m : Machine) (k : Nat) (complaint : String) (j : Nat) (v : Int64) : Prop where
  opcode_eq : (step^[j] m.unlimited).opcode? = some .print
  size_eq : (step^[j] m.unlimited).out.printed.size = k
  printed_eq : (step^[j + 1] m.unlimited).out.printed = (step^[j] m.unlimited).out.printed.push v
  stack_eq : (step^[j] m.unlimited).stack.toList = (step^[j + 1] m.unlimited).stack.toList ++ [v]
  iterate_eq : step^[j + 1] m =
    { step^[j + 1] m.unlimited with
      status := .faulted
        { pc := (step^[j] m.unlimited).pc
          op := Opcode.print.word
          reason := .refused v complaint }
      out := Sink.limited k complaint (step^[j] m.unlimited).out.printed }
  trace_eq : m.trace (j + 1) = m.unlimited.trace (j + 1)

/-- What has been printed where the machine is cut off is what the other prints first. -/
theorem CutAt.printed_take {k j n : Nat} {complaint : String} {v : Int64}
    (h : m.CutAt k complaint j v) (hjn : j ≤ n) :
    (step^[j] m.unlimited).out.printed.toList =
      (step^[n] m.unlimited).out.printed.toList.take k := by
  obtain ⟨values, hvalues⟩ := exists_printed_append (m := m.unlimited) hjn
  have hlength : (step^[j] m.unlimited).out.printed.toList.length = k := by
    rw [Array.length_toList, h.size_eq]
  rw [hvalues, Array.toList_append, List.take_left' hlength]

namespace StartsLimited

variable {k j : Nat} {complaint : String}

/-- A new machine starts to run, and stays within its bounds. -/
theorem new (code : Array Int64) (entry locals : Int) (options : Options)
    (hout : options.out = Sink.limited k complaint #[]) :
    StartsLimited k complaint (Machine.new code entry locals options) where
  running := rfl
  out_eq := hout
  bounded n := by
    have hinv := Function.Iterate.rec (Invariant code entry locals options) Invariant.new
      (fun _ h => h.step) n
    exact hinv.bounded

/-- The sink is determined by what has been printed, which is at most `k` values. -/
theorem out_iterate (h : StartsLimited k complaint m) (n : Nat) :
    (step^[n] m).out = Sink.limited k complaint (step^[n] m).out.printed ∧
      (step^[n] m).out.printed.size ≤ k := by
  obtain ⟨values, htook⟩ := Prints.iterate m n
  rw [h.out_eq] at htook
  exact htook.eq_limited

/-- A write is refused only after `k` others. -/
theorem size_of_refused (h : StartsLimited k complaint m) (hrefused : (step^[j] m).Refused) :
    (step^[j] m).out.printed.size = k := by
  obtain ⟨hout, hle⟩ := h.out_iterate j
  have hfull := hrefused.full
  rw [hout] at hfull
  exact Sink.size_of_isFull hfull hle

/-- At a refused write the machine is cut off. -/
theorem cutAt_of_refused (h : StartsLimited k complaint m) (hrefused : (step^[j] m).Refused) :
    m.CutAt k complaint j ((step^[j] m).stack.top hrefused.size_pos) := by
  have hrun := hrefused.ready.running
  have hsize := h.size_of_refused hrefused
  obtain ⟨hprinted, hstack, hstep⟩ := step_unlimited_of_refused hrefused
  -- Up to here the machine without the limit is the same.
  have hbefore : step^[j] m.unlimited = (step^[j] m).unlimited :=
    iterate_unlimited (not_outputFailed_of_running hrun)
  have hafter : step^[j + 1] m.unlimited = (step^[j] m).unlimited.step := by
    rw [Function.iterate_succ_apply', hbefore]
  have htrace : m.unlimited.trace (j + 1) = m.trace (j + 1) :=
    trace_unlimited fun i hi =>
      not_outputFailed_of_running (running_of_iterate hrun (Nat.le_of_lt_succ hi))
  have hop : (step^[j] m).opcode? = some .print := by
    rw [opcode?, hrefused.word_eq]
    rfl
  have hout : (step^[j] m).out = Sink.limited k complaint (step^[j] m).unlimited.out.printed :=
    (h.out_iterate j).1
  have hcomplaint : (step^[j] m).out.complaint = complaint := by
    rw [hout]
    rfl
  rw [hcomplaint, hout] at hstep
  refine ⟨?_, ?_, ?_, ?_, ?_, htrace.symm⟩
  · rw [hbefore]
    exact hop
  · rw [hbefore]
    exact hsize
  · rw [hbefore, hafter]
    exact hprinted
  · rw [hbefore, hafter]
    exact hstack
  · rw [hbefore, hafter, Function.iterate_succ_apply']
    exact hstep

/-- A write has been refused exactly if more than `k` values are printed without the limit. -/
theorem outputFailed_iff (h : StartsLimited k complaint m) (n : Nat) :
    (step^[n] m).OutputFailed ↔ k < (step^[n] m.unlimited).out.printed.size := by
  constructor
  · intro hfailed
    obtain ⟨j, hj, hrefused⟩ := exists_refused h.bounded h.running hfailed
    obtain ⟨values, hvalues⟩ :=
      exists_printed_append (m := m.unlimited) (Nat.succ_le_of_lt hj)
    have hcut := h.cutAt_of_refused hrefused
    rw [hvalues, hcut.printed_eq, Array.size_append, Array.size_push, hcut.size_eq]
    omega
  · intro hmore
    -- If none had been refused, both sinks would hold the same values, which are at most `k`.
    by_contra hok
    rw [iterate_unlimited hok] at hmore
    exact Nat.not_le.2 hmore (h.out_iterate n).2

/-- Up to `k` values, the machine is the one without the limit except for the room in its sink. -/
theorem iterate_eq (h : StartsLimited k complaint m) {n : Nat}
    (hfew : (step^[n] m.unlimited).out.printed.size ≤ k) :
    step^[n] m =
        { step^[n] m.unlimited with
          out := Sink.limited k complaint (step^[n] m.unlimited).out.printed } ∧
      m.trace n = m.unlimited.trace n := by
  have hok : ¬ (step^[n] m).OutputFailed := by
    rw [h.outputFailed_iff]
    exact Nat.not_lt.2 hfew
  have hout := (h.out_iterate n).1
  rw [iterate_unlimited hok]
  refine ⟨?_, (trace_unlimited fun j hj => not_outputFailed_of_iterate hok (Nat.le_of_lt hj)).symm⟩
  show step^[n] m = { step^[n] m with out := Sink.limited k complaint (step^[n] m).out.printed }
  rw [← hout]

end StartsLimited

end Machine

open Machine

/-- Compare a program on a sink that takes `k` writes and refuses all others with the same program
on a sink that takes everything. As long as the second has printed at most `k` values, both machines
are the same except for the room in the sink, and have dispatched the same instructions. If the
second never prints more, their runs give the same answers. If it does, it prints a value `v` after
the `k`-th, and there the first faults for want of output: the fault is at that print, with the
complaint of the sink as its cause, the machine is the other one after the print but for the sink,
so `v` is off the stack, and the text that was written is the first `k` lines of the other's. -/
theorem failing_sink_cuts (code : Array Int64) (entry locals : Int) (options : Machine.Options)
    (k : Nat) (complaint : String) :
    let free := Machine.new code entry locals { options with out := {} }
    let limited :=
      Machine.new code entry locals { options with out := { room := some k, complaint } }
    (∀ n, (step^[n] free).out.printed.size ≤ k →
      step^[n] limited =
        { step^[n] free with out := Sink.limited k complaint (step^[n] free).out.printed } ∧
      limited.trace n = free.trace n) ∧
    ((∀ n, (step^[n] free).out.printed.size ≤ k) → ∀ reply m, Answers .run limited reply m ↔
      ∃ m₀, Answers .run free reply m₀ ∧
        m = { m₀ with out := Sink.limited k complaint m₀.out.printed }) ∧
    ∀ n, k < (step^[n] free).out.printed.size → ∃ j < n, ∃ v,
      let fault : Fault :=
        { pc := (step^[j] free).pc, op := Opcode.print.word, reason := .refused v complaint }
      let cut : Machine :=
        { step^[j + 1] free with
          status := .faulted fault
          out := Sink.limited k complaint (step^[j] free).out.printed }
      ((step^[j] free).opcode? = some .print ∧ (step^[j] free).out.printed.size = k ∧
        (step^[j + 1] free).out.printed = (step^[j] free).out.printed.push v ∧
        (step^[j] free).stack.toList = (step^[j + 1] free).stack.toList ++ [v]) ∧
      (fault.kind = .outputFailure ∧ fault.reason.cause? = some complaint) ∧
      (∀ reply m, Answers .run limited reply m ↔
        reply = .outcome (.faulted fault) (free.trace (j + 1)) ∧ m = cut) ∧
      step^[j + 1] limited = cut ∧
      cut.out.text = String.join
        (((step^[n] free).out.printed.toList.take k).map fun w => Decimal.ofWord w ++ "\n") ∧
      (step^[n] free).out.text = String.join
        ((step^[n] free).out.printed.toList.map fun w => Decimal.ofWord w ++ "\n") := by
  intro free limited
  have hstarts : StartsLimited k complaint limited := .new code entry locals _ rfl
  have hfree : limited.unlimited = free := rfl
  have hsame : ∀ n, (step^[n] free).out.printed.size ≤ k →
      step^[n] limited =
        { step^[n] free with out := Sink.limited k complaint (step^[n] free).out.printed } ∧
      limited.trace n = free.trace n :=
    fun n hfew => hstarts.iterate_eq hfew
  refine ⟨hsame, fun hfew reply m => ?_, fun n hmore => ?_⟩
  · constructor
    · intro hrun
      obtain ⟨n, hstop, rfl, rfl⟩ := exists_steps_of_run hrun
      obtain ⟨hiterate, htrace⟩ := hsame n (hfew n)
      rw [hiterate] at hstop ⊢
      rw [htrace]
      exact ⟨_, (answers_run_iff hstop).2 ⟨rfl, rfl⟩, rfl⟩
    · rintro ⟨m₀, hrun, rfl⟩
      obtain ⟨n, hstop, rfl, rfl⟩ := exists_steps_of_run hrun
      obtain ⟨hiterate, htrace⟩ := hsame n (hfew n)
      rw [answers_run_iff (k := n) (by rw [hiterate]; exact hstop), hiterate, htrace]
      exact ⟨rfl, rfl⟩
  · have hfailed := (hstarts.outputFailed_iff n).2 hmore
    obtain ⟨j, hj, hrefused⟩ := exists_refused hstarts.bounded hstarts.running hfailed
    have hcut := hstarts.cutAt_of_refused hrefused
    have hstop : (step^[j + 1] limited).status ≠ .running := by
      rw [hcut.iterate_eq]
      exact nofun
    refine ⟨j, hj, _, ⟨hcut.opcode_eq, hcut.size_eq, hcut.printed_eq, hcut.stack_eq⟩, ⟨rfl, rfl⟩,
      fun reply m => ?_, hcut.iterate_eq, ?_, Sink.text_eq_join _⟩
    · rw [answers_run_iff hstop, hcut.trace_eq, hcut.iterate_eq]
      exact Iff.rfl
    · rw [← hfree, ← hcut.printed_take (Nat.le_of_lt hj)]
      exact Sink.text_eq_join _

/-- A program prints two values and halts. On a sink that takes one write it faults at the second
print, which is at offset `5`; the value is off the stack and one line is written. -/
theorem failing_sink_cuts_second :
    let code := #[Opcode.const.word, 7, Opcode.print.word, Opcode.const.word, -8,
      Opcode.print.word, Opcode.halt.word]
    ∃ fault events m,
      Answers .run (Machine.new code 0 0 { out := { room := some 1, complaint := "disk full" } })
        (.outcome (.faulted fault) events) m ∧
      fault.kind = .outputFailure ∧ fault.reason.cause? = some "disk full" ∧ fault.pc = 5 ∧
      m.stack.toList = [] ∧ m.out.text = "7\n" := by
  intro code
  obtain ⟨-, -, hmore⟩ := failing_sink_cuts code 0 0 {} 1 "disk full"
  have hprinted : (step^[4] (Machine.new code 0 0)).out.printed = #[7, -8] := by decide +kernel
  have hsecond : ∀ i < 4, (step^[i] (Machine.new code 0 0)).opcode? = some .print →
      (step^[i] (Machine.new code 0 0)).out.printed.size = 1 → i = 3 := by decide +kernel
  have hpc : (step^[3] (Machine.new code 0 0)).pc = 5 := by decide +kernel
  have hstack : (step^[4] (Machine.new code 0 0)).stack.toList = [] := by decide +kernel
  generalize Machine.new code 0 0 = free at hmore hprinted hsecond hpc hstack
  obtain ⟨j, hj, v, ⟨hop, hsize, -, -⟩, ⟨hkind, hcause⟩, hrun, -, htext, -⟩ :=
    hmore 4 (by rw [hprinted]; decide)
  obtain rfl := hsecond j hj hop hsize
  rw [hprinted] at htext
  exact ⟨_, _, _, (hrun _ _).2 ⟨rfl, rfl⟩, hkind, hcause, hpc, hstack,
    htext.trans (by decide +kernel)⟩

end StackMachine
