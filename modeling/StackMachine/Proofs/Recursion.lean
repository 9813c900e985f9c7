import StackMachine.Proofs.Blame
import StackMachine.Proofs.Blocks

/-!
# Recursion without an end

A procedure that does nothing but call itself runs until its frames fill the stack. Each call takes
three slots, so the free slots give the number of calls that go through, and the one after them
fails. That one has pushed as many words of its frame as still fitted: none, one or two. So it
leaves the stack full, as every instruction does that reports an overflow (`full_of_overflow`).
-/

namespace StackMachine

/-! ## Overflows leave the stack full -/

namespace Action

variable {α β : Type}

/-- Where the action reports an overflow, it leaves the stack full. -/
def ReportsFull (a : Action α) : Prop :=
  ∀ m fault left, a m = .error fault left → fault.kind = .stackOverflow →
    left.stack.size = left.stack.capacity

namespace ReportsFull

/-- Returning a value reports nothing. -/
theorem pure (x : α) : (Pure.pure x : Action α).ReportsFull := by
  intro m fault left hrun
  cases hrun

/-- One action after another. -/
theorem bind {a : Action α} {f : α → Action β} (ha : a.ReportsFull)
    (hf : ∀ x, (f x).ReportsFull) : (a >>= f).ReportsFull := by
  intro m fault left hrun hkind
  cases hfirst : a m with
  | ok x m' =>
    rw [bind_ok hfirst] at hrun
    exact hf x m' fault left hrun hkind
  | error e m' =>
    rw [bind_error hfirst] at hrun
    cases hrun
    exact ha m fault left hfirst hkind

/-- Reading the machine reports nothing. -/
theorem get {f : Machine → Action β} (hf : ∀ m, (f m).ReportsFull) :
    (MonadState.get >>= f).ReportsFull :=
  fun m => hf m m

/-- Failing for another reason is no overflow. -/
theorem fail {reason : Reason} (h : reason.kind ≠ .stackOverflow) :
    (Action.fail reason : Action α).ReportsFull := by
  intro m fault left hrun hkind
  cases hrun
  exact absurd hkind h

/-- A check of something else is no overflow. -/
theorem of_check {c : Machine → Prop} [DecidablePred c] {y : ∀ m, c m → α}
    {next : ∀ m, c m → Machine} {reason : Machine → Reason}
    (h : ∀ m, (reason m).kind ≠ .stackOverflow) :
    ReportsFull fun m =>
      if hc : c m then .ok (y m hc) (next m hc) else Action.fail (reason m) m := by
  intro m fault left hrun hkind
  dsimp only at hrun
  split at hrun
  · cases hrun
  · exact fail (h m) m fault left hrun hkind

/-- A push reports that the stack is full when it is. -/
theorem push (v : Int64) : (Action.push v).ReportsFull := by
  intro m fault left hrun _
  by_cases hroom : m.stack.size < m.stack.capacity
  · rw [push_of_lt v hroom] at hrun
    cases hrun
  · rw [push_of_full v (Nat.not_lt.1 hroom)] at hrun
    cases hrun
    exact Nat.le_antisymm m.stack.size_le_capacity (Nat.not_lt.1 hroom)

/-- A fetch does not report an overflow. -/
theorem fetch : Action.fetch.ReportsFull := of_check fun _ => by rintro ⟨⟩

/-- A jump does not report an overflow. -/
theorem jump (target : Int64) : (Action.jump target).ReportsFull :=
  of_check fun _ => by rintro ⟨⟩

/-- A read relative to the frame pointer does not report an overflow. -/
theorem readRelative (offset : Int64) : (Action.readRelative offset).ReportsFull := by
  intro m fault left hrun hkind
  unfold Action.readRelative at hrun
  split at hrun
  · cases hrun
  · cases hrun
    cases hkind

/-- A constant. -/
theorem const : (execute .const).ReportsFull :=
  fetch.bind fun v => (push v).bind fun _ => pure false

/-- A load. -/
theorem load : (execute .load).ReportsFull :=
  fetch.bind fun offset => (readRelative offset).bind fun v => (push v).bind fun _ => pure false

/-- A call. -/
theorem call : (execute .call).ReportsFull := by
  refine bind ?_ fun _ => pure false
  unfold Action.call
  refine fetch.bind fun target => fetch.bind fun argc => get fun m => ?_
  dsimp only
  split
  · exact fail (by rintro ⟨⟩)
  refine (push argc).bind fun _ => get fun m => (push _).bind fun _ => get fun m => ?_
  -- What is left is the jump, on the machine with its frame linked.
  exact (push _).bind fun _ _ fault left hrun => jump target _ fault left hrun

end ReportsFull

end Action

namespace Machine

variable {m left : Machine} {fault : Fault}

/-- An instruction that reports an overflow leaves the stack full. Only three instructions report
one at all. -/
theorem full_of_dispatch (hb : m.Bounded) (h : Action.dispatch m = .error fault left)
    (hkind : fault.kind = .stackOverflow) : left.stack.size = left.stack.capacity := by
  cases hw : m.word? m.pc with
  | none =>
    rw [kind_of_no_word hw h] at hkind
    cases hkind
  | some word =>
    cases hop : Opcode.ofWord? word with
    | none =>
      rw [kind_of_no_opcode hw hop h] at hkind
      cases hkind
    | some op =>
      have hmem := kind_mem_of_dispatch hb ((opcode?_of_word hw).trans hop) h
      rw [hkind] at hmem
      rw [dispatch_of_some hw, hop] at h
      -- An overflow is among the kinds of these three opcodes alone.
      cases op with
      | const => exact Action.ReportsFull.const _ fault left h hkind
      | load => exact Action.ReportsFull.load _ fault left h hkind
      | call => exact Action.ReportsFull.call _ fault left h hkind
      | _ => exact absurd hmem (by decide)

/-- A step that ends in an overflow leaves the stack full. -/
theorem full_of_overflow (hb : m.Bounded) (hrun : m.status = .running)
    (hfault : m.step.status = .faulted fault) (hkind : fault.kind = .stackOverflow) :
    m.step.stack.size = m.step.stack.capacity := by
  obtain ⟨limit, -, -, rfl, -⟩ | ⟨-, left, hdispatch, hstep⟩ := faulted_cases hrun hfault
  · cases hkind
  · rw [hstep]
    show left.stack.size = left.stack.capacity
    exact full_of_dispatch hb hdispatch hkind

end Machine

/-! ## A procedure that calls itself -/

/-- At `p` the code calls `p`, without arguments. -/
structure CallsItself (code : Array Int64) (p : Nat) : Prop where
  opcode : code[p]? = some Opcode.call.word
  target : ∃ target, code[p + 1]? = some target ∧ target.toInt = p
  argc : code[p + 2]? = some 0

/-- From `v` to `w` there are `k` frames more on the stack, of three words each. The words below
them are kept, and so is everything else but the frame pointer. -/
structure Descends (v : View) (k : Nat) (w : View) : Prop where
  kept : v.stack <+: w.stack
  length_eq : w.stack.length = v.stack.length + 3 * k
  locals_eq : w.locals = v.locals
  pc_eq : w.pc = v.pc
  depth_eq : w.depth = v.depth + k
  out_eq : w.out = v.out

variable {code : Array Int64} {capacity p k : Nat} {v w : View}

/-- A call goes through as long as there is room for a frame. -/
theorem CallsItself.descends_succ (h : CallsItself code p) (hpc : v.pc = p)
    (hw : Descends v k w) (hroom : v.stack.length + 3 * (k + 1) ≤ capacity) :
    ∃ w', Block code capacity 1 w w' ∧ Descends v (k + 1) w' := by
  obtain ⟨target, htarget, hself⟩ := h.target
  obtain ⟨stack, locals, pc, fp, depth, out⟩ := w
  -- All of the view but the stack and the frame pointer is given by the start and the number of
  -- frames.
  obtain ⟨hkept, hlength, rfl, hpc', rfl, rfl⟩ := hw
  obtain rfl : pc = p := hpc'.trans hpc
  dsimp only at hkept hlength
  refine ⟨_, block_call h.opcode htarget h.argc (n := 0) rfl (Nat.zero_le _) (by omega) hself
    (Array.getElem?_eq_some_iff.1 h.opcode).1, ?_⟩
  refine ⟨hkept.trans (List.prefix_append _ _), ?_, rfl, hpc.symm, rfl, rfl⟩
  rw [List.length_append, hlength]
  simp only [List.length_cons, List.length_nil]
  omega

/-- As many calls go through as frames fit on the stack. -/
theorem CallsItself.descends (h : CallsItself code p) (hpc : v.pc = p)
    (hroom : v.stack.length + 3 * k ≤ capacity) :
    ∃ w, Block code capacity k v w ∧ Descends v k w := by
  induction k with
  | zero => exact ⟨v, Block.refl v, List.prefix_rfl, rfl, rfl, rfl, rfl, rfl⟩
  | succ k ih =>
    -- `Descends` carries the induction: it says where the next frame goes and that it fits.
    obtain ⟨w, hblock, hw⟩ := ih (by omega)
    obtain ⟨w', hblock', hw'⟩ := h.descends_succ hpc hw hroom
    exact ⟨w', hblock.trans hblock', hw'⟩

/-- The call that does not fit fills the stack with words of its frame, and does nothing else. -/
theorem CallsItself.overflow (h : CallsItself code p) {m : Machine} (hm : m.Shows code capacity v)
    (hpc : v.pc = p) (hfull : capacity < v.stack.length + 3) :
    ∃ fault, m.step.status = .faulted fault ∧ fault.kind = .stackOverflow ∧ fault.pc = p ∧
      m.step.steps = m.steps + 1 ∧ m.step.stack.size = capacity ∧
      v.stack <+: m.step.stack.toList ∧ m.step.depth = v.depth ∧
      m.step.locals.toList = v.locals ∧ m.step.out = v.out := by
  obtain ⟨target, htarget, -⟩ := h.target
  obtain ⟨stack, locals, pc, fp, depth, out⟩ := v
  obtain rfl : pc = p := hpc
  have hb := hm.reachable.bounded
  have hrow : m.row.fault? = some .stackOverflow := by
    rw [hm.row_eq rfl h.opcode]
    exact hm.fault?_call htarget h.argc (n := 0) rfl (Nat.zero_le _) hfull
  obtain ⟨fault, hfault, hkind⟩ := Machine.step_of_fails hb hm.ready hrow
  have hsize := Machine.full_of_overflow hb hm.running hfault hkind
  obtain ⟨-, -, -, hcapacity, hsteps⟩ := Machine.setup_of_step hm.ready
  obtain ⟨left, steps, hres, hstep⟩ := Machine.residue_of_step hm.running hfault
  -- The residue of a call differs where its target is outside, which would be another fault.
  have hother : ¬ m.LeadsOutside fault := by
    rintro ⟨hinvalid, -⟩
    rw [hkind] at hinvalid
    cases hinvalid
  -- Words of the frame are all that the call has put on the stack before it failed.
  have hmay := hres.mayLeave
  unfold Machine.MayLeave at hmay
  rw [if_pos (hm.opcode_eq rfl h.opcode)] at hmay
  obtain ⟨words, -, hwords⟩ := hmay
  obtain ⟨hlocals, hout⟩ := hres.quiet
  refine ⟨fault, hfault, hkind, ?_, hsteps, ?_, ?_, ?_, ?_, ?_⟩
  · rw [Machine.pc_of_fault hm.running hfault]
    exact congrArg View.pc hm.view_eq
  · rw [hsize, hcapacity, hm.capacity_eq]
  · rw [hstep, hwords]
    exact ⟨words, congrArg (fun v : View => v.stack ++ words) hm.view_eq.symm⟩
  · rw [hstep]
    exact (hres.of_other hother).2.trans (congrArg View.depth hm.view_eq)
  · rw [hstep, hlocals]
    exact congrArg View.locals hm.view_eq
  · rw [hstep, hout]
    exact congrArg View.out hm.view_eq

/-- A machine in use that comes, without a limit of steps, to a call of that very call without
arguments ends in an overflow there. One frame of three words is linked by each step as long as it
fits, and one more step fills the stack. What was on the stack stays below the frames, the locals
stay as they were, and nothing is printed. -/
theorem recursion_overflows {m : Machine} {p : Nat} (hreach : m.Reachable)
    (hrun : m.status = .running) (hfree : m.budget = none) (hpc : m.pc = p)
    (hself : CallsItself m.code p) :
    let frames := (m.stack.capacity - m.stack.size) / 3
    ∃ fault events left, Answers .run m (.outcome (.faulted fault) events) left ∧
      fault.kind = .stackOverflow ∧ fault.pc = p ∧ left.steps = m.steps + (frames + 1) ∧
      left.stack.size = m.stack.capacity ∧ m.stack.toList <+: left.stack.toList ∧
      left.depth = m.depth + frames ∧ left.locals = m.locals ∧ left.out = m.out := by
  intro frames
  have hm : m.Shows m.code m.stack.capacity m.view := ⟨hrun, hfree, rfl, rfl, rfl, hreach⟩
  have hsize : m.view.stack.length = m.stack.size := Stack.length_toList m.stack
  have hle := m.stack.size_le_capacity
  have hframes : frames = (m.stack.capacity - m.stack.size) / 3 := rfl
  obtain ⟨w, hblock, hw⟩ : ∃ w, Block m.code m.stack.capacity frames m.view w ∧
      Descends m.view frames w := hself.descends hpc (by omega)
  -- After as many steps as frames fit, there is no room for another one.
  have hlast := hblock m hm
  obtain ⟨fault, hfault, hkind, hpc', hsteps, hfull, hkept, hdepth, hlocals, hout⟩ :=
    hself.overflow hlast (hw.pc_eq.trans hpc) (by rw [hw.length_eq]; omega)
  rw [← Function.iterate_succ_apply' Machine.step frames m] at *
  obtain ⟨events, hanswers⟩ := Machine.answers_of_iterate hfault (by rintro ⟨⟩)
  refine ⟨fault, events, _, hanswers, hkind, hpc', ?_, hfull, hw.kept.trans hkept, ?_, ?_, ?_⟩
  · rw [hsteps, Machine.steps_of_running hlast.running, Nat.add_assoc]
  · rw [hdepth]
    exact hw.depth_eq
  · exact Array.toList_inj.1 (hlocals.trans hw.locals_eq)
  · exact hout.trans hw.out_eq

/-- Of nine slots a constant takes one. Two frames fit above it, and the third call still pushes two
words of its own. -/
theorem recursion_overflows_third :
    let code := #[Opcode.const.word, 42, Opcode.call.word, 2, 0]
    let m := (Machine.new code 0 1 { stackCapacity := 9 }).step
    ∃ fault events left, Answers .run m (.outcome (.faulted fault) events) left ∧
      fault.kind = .stackOverflow ∧ fault.pc = 2 ∧ left.steps = 4 ∧ left.stack.size = 9 ∧
      [42] <+: left.stack.toList ∧ left.depth = 2 ∧ left.locals = m.locals ∧
      left.out = m.out := by
  intro code m
  have hreach : m.Reachable := (Machine.reachable_new code 0 1 { stackCapacity := 9 }).step
  have hself : CallsItself m.code 2 :=
    ⟨by decide +kernel, ⟨2, by decide +kernel⟩, by decide +kernel⟩
  obtain ⟨fault, events, left, hanswers, hkind, hpc, hsteps, hsize, hkept, hdepth, hrest⟩ :=
    recursion_overflows hreach (by decide +kernel) rfl (by decide +kernel) hself
  have hframes : m.steps = 1 ∧ m.depth = 0 ∧ (m.stack.capacity - m.stack.size) / 3 = 2 := by
    decide +kernel
  rw [hframes.1, hframes.2.2] at hsteps
  rw [hframes.2.1, hframes.2.2] at hdepth
  exact ⟨fault, events, left, hanswers, hkind, hpc, hsteps, hsize, hkept, hdepth, hrest⟩

end StackMachine
