import StackMachine.Proofs.Frames

/-!
# Calls are transparent

A call that is entered from any state, linked or not, and whose body is disciplined gives the caller
back what it had, with the arguments replaced by one value. The body may call in turn, to any depth.

What carries the proof is `InCall`: during the body a chain leads from the frame of the call up to
the current one, and everything below the call's arguments, as well as the frame itself, is as the
call left it. Each move of a disciplined step keeps this except for the one that closes the frame of
the call, and from there `InCall.returns` reads off the result.
-/

namespace StackMachine

variable {s : Stack} {limit d f saved argc : Nat} {m m' : Machine}

/-! ## The body of a call -/

/-- `m` is in the body of a call at depth `d` that opened a frame at `f` with `argc` arguments and
left the stack `s`. -/
structure InCall (s : Stack) (limit d f argc : Nat) (m : Machine) : Prop where
  linked : Linked m.stack limit (d + 1) f m.depth m.fp
  fp_lt : m.fp < m.stack.size
  kept : ∀ i, i < f - 2 - argc ∨ f - 2 ≤ i ∧ i ≤ f → m.stack.slot i = s.slot i

namespace InCall

/-- What the body keeps is not above the current frame pointer. -/
theorem le_fp (h : InCall s limit d f argc m) : f ≤ m.fp :=
  h.linked.le_fp (Nat.succ_pos d)

/-- What the body keeps is not among the arguments of the current frame, be it the frame of the call
or one above. -/
theorem not_ownArgument (h : InCall s limit d f argc m) (hframe : Frame s limit f saved argc)
    {i : Nat} (hi : i < f - 2 - argc ∨ f - 2 ≤ i ∧ i ≤ f) : ¬ m.OwnArgument i := by
  have hargs := hframe.args_le
  rintro ⟨hlo, hhi⟩
  rcases Nat.lt_or_ge (d + 1) m.depth with hdeep | hbase
  · -- The arguments of an inner frame are above the frame it was opened from, so above the call's.
    obtain ⟨e, g, count, hdepth, outer, frame, above⟩ := h.linked.exists_outer hdeep
    have hg := outer.le_fp (Nat.succ_pos d)
    have habove := above (by omega)
    rw [frame.argc_eq] at hlo
    omega
  · -- The call's own frame is as the call left it, so its count is still the true one.
    rw [h.linked.fp_eq hbase] at hlo hhi
    rw [h.kept (f - 2) (by omega), hframe.argc_eq] at hlo
    omega

/-- A move that does not bring the depth back to the caller's stays in the body. -/
theorem moves (h : InCall s m.code.size d f argc m) (hframe : Frame s m.code.size f saved argc)
    (hmove : m.Moves m') (hdepth : m'.depth ≠ d) : InCall s m.code.size d f argc m' := by
  have hdeep := h.linked.le_depth
  have hopen : 0 < m.depth := by omega
  have hle := h.le_fp
  have hargs := hframe.args_le
  cases hmove with
  | stays hmove =>
    refine ⟨h.linked.stays (fun _ => h.fp_lt) hmove, ?_, fun i hi => ?_⟩
    · rw [hmove.fp_eq]
      exact hmove.fp_lt hopen h.fp_lt
    · rw [hmove.kept hopen h.fp_lt i (by omega) (h.not_ownArgument hframe hi), h.kept i hi]
  | opens count hmove habove =>
    have hfp := h.fp_lt
    refine ⟨h.linked.opens (fun _ => hfp) hmove fun hopen => habove hopen hfp, ?_, fun i hi => ?_⟩
    · rw [hmove.fp_eq, hmove.size_eq]
      omega
    · rw [hmove.kept i (by omega), h.kept i hi]
  | closes hmove =>
    -- The frame that is closed is not the call's, since the depth stays above the caller's.
    have hback := hmove.depth_eq
    obtain ⟨hlinked, hkept⟩ := h.linked.closes hmove (by omega)
    obtain ⟨hfp, hkept⟩ := hkept (by omega)
    have hle' := hlinked.le_fp (Nat.succ_pos d)
    refine ⟨hlinked, hfp, fun i hi => ?_⟩
    rw [hkept i (by omega), h.kept i hi]

/-- The move that brings the depth back to the caller's is the return from the call. It leaves what
was below the arguments, with the value on top. -/
theorem returns (h : InCall s limit d f argc m) (hframe : Frame s limit f saved argc)
    (hsize : f < s.size) (hmove : m.Moves m') (hdepth : m'.depth = d) :
    m.opcode? = some .ret ∧
      m.stack.toList = m.stack.toList.take (m.stack.size - 1) ++ [Table.top m] ∧
      m'.stack.toList = s.toList.take (f - 2 - argc) ++ [Table.top m] ∧
      m'.pc = (s.slot f).toInt ∧ m'.fp = saved := by
  have hdeep := h.linked.le_depth
  have hargs := hframe.args_le
  cases hmove with
  | stays hmove =>
    have hsame := hmove.depth_eq
    omega
  | opens count hmove _ =>
    have hmore := hmove.depth_eq
    omega
  | closes hmove =>
    -- Now it is the call's frame, and its words are read where the call wrote them.
    have hback := hmove.depth_eq
    have hfp : m.fp = f := h.linked.fp_eq (by omega)
    have hvalue := hmove.value_above
    have hstack := hmove.stack_eq
    have hsaved := hmove.fp_eq
    have hpc := hmove.pc_eq
    rw [hfp] at hstack hsaved hpc hvalue
    rw [h.kept (f - 2) (by omega), hframe.argc_eq, Int.toNat_natCast] at hstack
    rw [h.kept (f - 1) (by omega), hframe.saved_eq] at hsaved
    rw [h.kept f (by omega)] at hpc
    have hbase := Stack.take_eq_of_slots (s := s) (t := m.stack) (k := f - 2 - argc) (by omega)
      (by omega) fun i hi => h.kept i (.inl hi)
    rw [hbase] at hstack
    have htop := m.stack.take_succ_toList (m.stack.size - 1) (by omega)
    rw [Nat.sub_add_cancel (by omega), Stack.take_size_toList] at htop
    exact ⟨hmove.opcode_eq, htop, hstack, hpc, Int.ofNat_inj.1 hsaved⟩

end InCall

/-- Right after a call the machine is in its body. -/
theorem Machine.Opens.inCall (h : m.Opens m' argc) :
    InCall m'.stack m.code.size m.depth (m.stack.size + 2) argc m' where
  linked := by
    rw [h.depth_eq, h.fp_eq]
    exact .base
  fp_lt := by
    rw [h.fp_eq, h.size_eq]
    omega
  kept _ _ := rfl

variable {code : Array Int64} {entry locals : Int} {options : Machine.Options}

/-- An orderly run that does not bring the depth back to the caller's stays in the body. -/
theorem InCall.run (hcode : code.size < 2^63) (hframe : Frame s code.size f saved argc)
    (hinv : m.Invariant code entry locals options) (h : InCall s code.size d f argc m) {n : Nat}
    (horderly : m.Orderly n) (hdepth : ∀ j ≤ n, (Machine.step^[j] m).depth ≠ d) :
    (Machine.step^[n] m).Invariant code entry locals options ∧
      InCall s code.size d f argc (Machine.step^[n] m) := by
  induction n with
  | zero => exact ⟨hinv, h⟩
  | succ n ih =>
    obtain ⟨hinv', h'⟩ := ih (fun j hj => horderly j (Nat.lt_succ_of_lt hj))
      fun j hj => hdepth j (Nat.le_succ_of_le hj)
    obtain ⟨hd, hok⟩ := horderly n (Nat.lt_succ_self n)
    have hne := hdepth (n + 1) (Nat.le_refl _)
    rw [Function.iterate_succ_apply'] at hok hne ⊢
    refine ⟨hinv'.step, ?_⟩
    rw [← hinv'.code_eq] at hcode hframe h' ⊢
    exact h'.moves hframe (Machine.moves_of_step hinv'.bounded hcode hd hok) hne

/-! ## Transparency -/

/-- Take a machine in use, on code whose offsets are words, whose next instruction is a call that
succeeds, with the stack `base` below the arguments. Let it run in order, through whatever other
calls, until the depth is the caller's again for the first time. Then the last instruction was a
return; the stack is `base` and the value that was on top before that return; execution goes on
after the call, in the caller's frame. -/
theorem call_transparent {base args : List Int64} {n : Nat} (hreach : m.Reachable)
    (hcode : m.code.size < 2^63) (hrun : m.status = .running) (hop : m.opcode? = some .call)
    (hok : m.step.status.fault? = none) (hstack : m.stack.toList = base ++ args)
    (hargs : (Table.operand m 2).toInt = args.length) (horderly : m.step.Orderly (n + 1))
    (hfirst : ∀ j ≤ n, (Machine.step^[j] m.step).depth ≠ m.depth)
    (hback : (Machine.step^[n + 1] m.step).depth = m.depth) :
    (Machine.step^[n] m.step).opcode? = some .ret ∧
    ∃ below value, (Machine.step^[n] m.step).stack.toList = below ++ [value] ∧
      (Machine.step^[n + 1] m.step).stack.toList = base ++ [value] ∧
      (Machine.step^[n + 1] m.step).pc = m.pc + 3 ∧
      (Machine.step^[n + 1] m.step).fp = m.fp := by
  obtain ⟨code, entry, locals, options, history, hsession⟩ := hreach
  have hinv := hsession.invariant
  obtain ⟨argc, hargc, hopens⟩ :=
    Machine.opens_of_call hinv.bounded hcode hrun hok hop
  obtain rfl : argc = args.length := by omega
  have hin := hopens.inCall
  have hframe := hopens.frame
  rw [hinv.code_eq] at hcode hin hframe
  obtain ⟨hinv', hin'⟩ := hin.run hcode hframe hinv.step
    (fun j hj => horderly j (Nat.lt_succ_of_lt hj)) hfirst
  obtain ⟨hd, hok'⟩ := horderly n (Nat.lt_succ_self n)
  rw [Function.iterate_succ_apply'] at hok' hback ⊢
  have hmove := Machine.moves_of_step hinv'.bounded (by rw [hinv'.code_eq]; exact hcode) hd hok'
  have hsize : m.stack.size + 2 < m.step.stack.size := by
    rw [hopens.size_eq]
    omega
  obtain ⟨hret, hbefore, hafter, hpc, hfp⟩ := hin'.returns hframe hsize hmove hback
  -- What is below the arguments was already there before the call.
  have hlength : m.stack.size = base.length + args.length := by
    rw [← m.stack.length_toList, hstack, List.length_append]
  have hbase : m.step.stack.toList.take (m.stack.size + 2 - 2 - args.length) = base := by
    rw [Stack.take_eq_of_slots (s := m.stack) (by omega) (by omega)
      fun i hi => hopens.kept i (by omega), hstack]
    exact List.take_left' (by omega)
  rw [hbase] at hafter
  exact ⟨hret, _, _, hbefore, hafter, hpc.trans hopens.return_eq, hfp⟩

/-- A function of two arguments overwrites one of them and calls another function on a word of its
own; the caller, which had one word below the arguments, gets that word and the result. -/
theorem call_transparent_nested :
    let code := #[Opcode.const.word, 11, Opcode.const.word, 5, Opcode.const.word, 6,
      Opcode.call.word, 10, 2, Opcode.halt.word,
      Opcode.load.word, -3, Opcode.store.word, -4, Opcode.const.word, 1, Opcode.call.word, 20, 1,
      Opcode.ret.word, Opcode.load.word, -3, Opcode.ret.word]
    let m := (Machine.new code 0 0).step.step.step
    m.stack.toList = [11] ++ [5, 6] ∧ (Machine.step^[4] m.step).depth = 2 ∧
      ∃ value, (Machine.step^[7] m.step).stack.toList = [11] ++ [value] ∧
        (Machine.step^[7] m.step).pc = 9 := by
  intro code m
  have hreach : m.Reachable := (Machine.reachable_new code 0 0 {}).step.step.step
  have hstack : m.stack.toList = [11] ++ [5, 6] := by decide +kernel
  have hcall : m.pc = 6 := by decide +kernel
  obtain ⟨-, below, value, -, hafter, hpc, -⟩ :=
    call_transparent (n := 6) hreach (by decide +kernel) (by decide +kernel) (by decide +kernel)
      (by decide +kernel) hstack (by decide +kernel) (by decide +kernel) (by decide +kernel)
      (by decide +kernel)
  rw [hcall] at hpc
  exact ⟨hstack, by decide +kernel, value, hafter, hpc⟩

end StackMachine
