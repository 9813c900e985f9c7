import StackMachine.Proofs.Discipline
import StackMachine.Proofs.Partway

/-!
# What a faulting step leaves

`Residue` lists what a fault can leave of a machine. That is the machine partway through its
instruction, or one on which a call has linked its frame or a return has unlinked it before its jump
led outside the code. The instructions are gone through once, for all of their failing exits
(`execute_leaves`); what every residue has in common is then read off the list, and a step that
faults leaves a residue but for the count of steps and the status.

The kinds of faults that the table gives an opcode tell the two jumps from the other exits, and the
spent budget from what instructions do.
-/

namespace StackMachine

/-! ## Residues -/

namespace Machine

open StackMachine.Action

/-- The three words of the frame that a call links. -/
def frameWords (m : Machine) : List Int64 :=
  [Table.operand m 2, Int64.ofNat m.fp, Int64.ofInt (m.pc + 3)]

/-- The stacks that may be left partway. A call adds words of its frame; every other instruction has
taken words off. -/
def MayLeave (m : Machine) (s : Stack) : Prop :=
  if m.opcode? = some .call then
    ∃ words, words <+: m.frameWords ∧ s.toList = m.stack.toList ++ words
  else
    s.toList <+: m.stack.toList

/-- The fault is that of a call or a return that leads outside the code. Of their other checks only
those for the operands of a call make faults of this kind. -/
def LeadsOutside (m : Machine) (fault : Fault) : Prop :=
  fault.kind = .invalidProgramCounter ∧
    (m.opcode? = some .call ∧ m.Inside (m.pc + 2) ∨ m.opcode? = some .ret)

/-- What a fault may leave of `m`. -/
inductive Residue (m : Machine) (fault : Fault) : Machine → Prop where
  /-- The instruction stopped partway. A call or a return did not come to its jump. -/
  | partway (word : Int64) (k : Nat) (s : Stack) (hk : k ≤ 3) (hs : m.MayLeave s)
      (hjump : ¬ m.LeadsOutside fault) :
      Residue m fault (m.partway word k s)
  /-- A call linked its frame, but its target is outside the code. -/
  | linked (word : Int64) (s : Stack) (hop : m.opcode? = some .call)
      (hs : s.toList = m.stack.toList ++ m.frameWords) (hjump : m.LeadsOutside fault)
      (hout : ¬ m.Inside (Table.operand m 1).toInt) :
      Residue m fault (m.partway word 3 s).link
  /-- A return unlinked its frame, but the return address is outside the code. -/
  | unlinked (word : Int64) (s : Stack) (fp : Nat) (hop : m.opcode? = some .ret)
      (hs : s.toList <+: m.stack.toList) (hjump : m.LeadsOutside fault)
      (hout : ¬ m.Inside (m.stack.slot m.fp).toInt) (hdepth : 0 < m.depth)
      (hfp : (fp : Int) = (m.stack.slot (m.fp - 1)).toInt) :
      Residue m fault ((m.partway word 1 s).unlink fp)

/-- The fault names the opcode `word` at the program counter of `m`, and leaves a residue. -/
structure Leaves (m : Machine) (word : Int64) (fault : Fault) (left : Machine) : Prop where
  site : fault.toSite = ⟨m.pc, word⟩
  residue : m.Residue fault left

variable {m : Machine} {word : Int64} {op : Opcode} {k n : Nat} {s : Stack}

/-- A stack that is unchanged may be left by every instruction. -/
theorem mayLeave_self (m : Machine) : m.MayLeave m.stack := by
  unfold MayLeave
  split
  · exact ⟨[], List.nil_prefix, (List.append_nil _).symm⟩
  · exact List.prefix_rfl

/-- Every instruction but a call may leave its stack cut down. -/
theorem mayLeave_of_cut (hcall : m.opcode? ≠ some .call) (hcut : m.stack.Cut n s) :
    m.MayLeave s := by
  unfold MayLeave
  rw [if_neg hcall, hcut.toList_eq]
  exact List.take_prefix n m.stack.toList

/-- An instruction that does not call may stop where words have been taken off the stack. -/
theorem stops_of_cut (hcall : m.opcode? ≠ some .call) (hcut : m.stack.Cut n s) (hk : k ≤ 3) :
    Stops (m.Leaves word) m word k s := by
  intro fault hsite hkind
  exact ⟨hsite, .partway word k s hk (mayLeave_of_cut hcall hcut) fun hout => hkind hout.1⟩

/-- An instruction that neither calls nor returns may fail there for whatever reason. -/
theorem fails_of_cut (hcall : m.opcode? ≠ some .call) (hret : m.opcode? ≠ some .ret)
    (hcut : m.stack.Cut n s) (hk : k ≤ 3) : Fails (m.Leaves word) m word k s := by
  intro fault hsite
  refine ⟨hsite, .partway word k s hk (mayLeave_of_cut hcall hcut) fun hout => ?_⟩
  obtain ⟨-, ⟨hop, -⟩ | hop⟩ := hout
  · exact hcall hop
  · exact hret hop

/-! ## Instructions that neither call nor return -/

/-- An operation on the two topmost words. -/
theorem binary_leaves (hcall : m.opcode? ≠ some .call) (hret : m.opcode? ≠ some .ret)
    {f : Int64 → Int64 → Action Int64} (hf : ∀ a b, (f a b).Looks) :
    Falls (m.Leaves word)
      ((Action.binary f >>= fun _ => pure false) (m.partway word 1 m.stack)) := by
  have hcut := Stack.Cut.refl m.stack
  unfold Action.binary
  simp only [bind_assoc]
  refine falls_pop hcut (stops_of_cut hcall hcut (by omega)) fun s₁ _ hcut₁ => ?_
  refine falls_pop hcut₁ (stops_of_cut hcall hcut₁ (by omega)) fun s₂ _ hcut₂ => ?_
  have hfail : Fails (m.Leaves word) m word 1 s₂ := fails_of_cut hcall hret hcut₂ (by omega)
  exact falls_look (hf _ _) hfail fun v => falls_last .of_check false hfail

/-- A conditional jump. -/
theorem branch_leaves (hcall : m.opcode? ≠ some .call) (hret : m.opcode? ≠ some .ret)
    (taken : Bool) :
    Falls (m.Leaves word)
      ((Action.branch taken >>= fun _ => pure false) (m.partway word 1 m.stack)) := by
  have hcut := Stack.Cut.refl m.stack
  unfold Action.branch
  simp only [bind_assoc]
  refine falls_fetch (fun _ => fails_of_cut hcall hret hcut (by omega)) fun target _ => ?_
  refine falls_pop hcut (stops_of_cut hcall hcut (by omega)) fun s₁ _ hcut₁ => ?_
  split
  · exact falls_last .of_check false (fails_of_cut hcall hret hcut₁ (by omega))
  · exact trivial

/-- Every instruction that neither calls nor returns. -/
theorem plain_leaves (hop : m.opcode? = some op) (hcall : op ≠ .call) (hret : op ≠ .ret) :
    Falls (m.Leaves word) (execute op (m.partway word 1 m.stack)) := by
  have hcall' : m.opcode? ≠ some .call := by
    rw [hop]
    exact fun h => hcall (Option.some.inj h)
  have hret' : m.opcode? ≠ some .ret := by
    rw [hop]
    exact fun h => hret (Option.some.inj h)
  -- At most two words are read before the last action, whatever has been popped by then.
  have hcut := Stack.Cut.refl m.stack
  have hstop {k n : Nat} {s : Stack} (hs : m.stack.Cut n s) (hk : k ≤ 2) :
      Stops (m.Leaves word) m word k s := stops_of_cut hcall' hs (by omega)
  have hfail {k n : Nat} {s : Stack} (hs : m.stack.Cut n s) (hk : k ≤ 2) :
      Fails (m.Leaves word) m word k s := fails_of_cut hcall' hret' hs (by omega)
  cases op with
  | add => exact binary_leaves hcall' hret' fun _ _ => .pure _
  | sub => exact binary_leaves hcall' hret' fun _ _ => .pure _
  | mul => exact binary_leaves hcall' hret' fun _ _ => .pure _
  | div => exact binary_leaves hcall' hret' .divide
  | lt => exact binary_leaves hcall' hret' fun _ _ => .pure _
  | gt => exact binary_leaves hcall' hret' fun _ _ => .pure _
  | eq => exact binary_leaves hcall' hret' fun _ _ => .pure _
  | jmp =>
    refine falls_fetch (fun _ => hfail hcut (by omega)) fun target _ => ?_
    exact falls_last .of_check false (hfail hcut (by omega))
  | jmpt => exact branch_leaves hcall' hret' true
  | jmpf => exact branch_leaves hcall' hret' false
  | const =>
    refine falls_fetch (fun _ => hfail hcut (by omega)) fun v _ => ?_
    exact falls_last .of_check false (hfail hcut (by omega))
  | load =>
    refine falls_fetch (fun _ => hfail hcut (by omega)) fun offset _ => ?_
    refine falls_look (.readRelative offset) (hfail hcut (by omega)) fun v => ?_
    exact falls_last .of_check false (hfail hcut (by omega))
  | store =>
    refine falls_fetch (fun _ => hfail hcut (by omega)) fun offset _ => ?_
    refine falls_pop hcut (hstop hcut (by omega)) fun s _ hs => ?_
    exact falls_last (.writeRelative offset _) false (hfail hs (by omega))
  | gload =>
    refine falls_pop hcut (hstop hcut (by omega)) fun s _ hs => ?_
    refine falls_look .of_check (hfail hs (by omega)) fun v => ?_
    exact falls_last .of_check false (hfail hs (by omega))
  | gstore =>
    refine falls_pop hcut (hstop hcut (by omega)) fun s _ hs => ?_
    refine falls_fetch (fun _ => hfail hs (by omega)) fun index _ => ?_
    exact falls_last .of_check false (hfail hs (by omega))
  | print =>
    refine falls_pop hcut (hstop hcut (by omega)) fun s _ hs => ?_
    exact falls_last (.print _) false (hfail hs (by omega))
  | pop => exact falls_pop hcut (hstop (k := 1) hcut (by omega)) fun _ _ _ => trivial
  | halt => exact trivial
  | call => exact absurd rfl hcall
  | ret => exact absurd rfl hret

/-! ## Calls and returns -/

/-- A call may stop where words of its frame have been added to the stack. -/
theorem stops_of_frame {words : List Int64} (hop : m.opcode? = some .call)
    (hwords : words <+: m.frameWords) (hs : s.toList = m.stack.toList ++ words) (hk : k ≤ 3) :
    Stops (m.Leaves word) m word k s := by
  intro fault hsite hkind
  refine ⟨hsite, .partway word k s hk ?_ fun hout => hkind hout.1⟩
  unfold MayLeave
  rw [if_pos hop]
  exact ⟨words, hwords, hs⟩

/-- A call may fail for want of an operand. -/
theorem fails_of_operand (hop : m.opcode? = some .call) (hw : m.word? (m.pc + k) = none)
    (hk : k ≤ 2) : Fails (m.Leaves word) m word k m.stack := by
  intro fault hsite
  refine ⟨hsite, .partway word k m.stack (by omega) m.mayLeave_self fun hout => ?_⟩
  obtain ⟨-, ⟨-, hlast⟩ | hret⟩ := hout
  · -- The opcode and the last operand are in the code, so what is between them is too.
    obtain ⟨opword, hopword, -⟩ := Option.bind_eq_some_iff.1 hop
    have hfirst := inside_of_word? hopword
    refine (word?_eq_none_iff m _).1 hw ?_
    omega
  · rw [hop] at hret
    cases hret

/-- A call. -/
theorem call_leaves (hop : m.opcode? = some .call) :
    Falls (m.Leaves word) (execute .call (m.partway word 1 m.stack)) := by
  have hframe (n : Nat) : m.frameWords.take n <+: m.frameWords := List.take_prefix n m.frameWords
  have hnone : m.stack.toList = m.stack.toList ++ m.frameWords.take 0 := by simp
  rw [execute, call]
  simp only [bind_assoc]
  refine falls_fetch (fun hw => fails_of_operand hop hw (by omega)) fun target htarget => ?_
  refine falls_fetch (fun hw => fails_of_operand hop hw (by omega)) fun argc hargc => ?_
  rw [get_bind]
  refine falls_guard (by rintro ⟨⟩) (stops_of_frame hop (hframe 0) hnone (by omega)) fun _ => ?_
  simp only [bind_assoc]
  -- The frame grows word by word, and the call may run out of room after each.
  refine falls_push argc (stops_of_frame hop (hframe 0) hnone (by omega)) fun h₁ => ?_
  have hone : (m.stack.push argc h₁).toList = m.stack.toList ++ m.frameWords.take 1 := by
    rw [Stack.toList_push, frameWords, Table.operand_eq hargc]
    rfl
  rw [get_bind]
  refine falls_push _ (stops_of_frame hop (hframe 1) hone (by omega)) fun h₂ => ?_
  have htwo : ((m.stack.push argc h₁).push (Int64.ofNat m.fp) h₂).toList =
      m.stack.toList ++ m.frameWords.take 2 := by
    rw [Stack.toList_push, hone, List.append_assoc]
    rfl
  rw [get_bind]
  refine falls_push _ (stops_of_frame hop (hframe 2) htwo (by omega)) fun h₃ => ?_
  rw [modify_bind]
  refine falls_jump (fun hout => ⟨rfl, ?_⟩) trivial
  have hlast : m.Inside (m.pc + 2) := inside_of_word? hargc
  rw [← Table.operand_eq htarget] at hout
  refine .linked word _ hop ?_ ⟨rfl, .inl ⟨hop, hlast⟩⟩ hout
  rw [Stack.toList_push, htwo, List.append_assoc]
  rfl

/-- A return. -/
theorem ret_leaves (hop : m.opcode? = some .ret) :
    Falls (m.Leaves word) (execute .ret (m.partway word 1 m.stack)) := by
  have hcall : m.opcode? ≠ some .call := by
    rw [hop]
    decide
  have hcut := Stack.Cut.refl m.stack
  rw [execute, ret]
  simp only [bind_assoc]
  rw [get_bind]
  refine falls_guard (by rintro ⟨⟩) (stops_of_cut hcall hcut (by omega)) fun hdepth => ?_
  simp only [bind_assoc]
  refine falls_pop hcut (stops_of_cut hcall hcut (by omega)) fun s₀ _ hcut₀ => ?_
  rw [get_bind, get_bind]
  dsimp only [Machine.withStack_stack]
  rw [hcut₀.size_eq]
  refine falls_guard (by rintro ⟨⟩) (stops_of_cut hcall hcut₀ (by omega)) fun habove => ?_
  have hfp : m.fp + 1 ≤ m.stack.size - 1 := Nat.not_le.1 habove
  simp only [bind_assoc]
  rw [modify_bind]
  -- The frame is now on top, and its words are popped from where the call left them.
  have hcut₁ := hcut₀.truncate hfp
  refine falls_pop hcut₁ (stops_of_cut hcall hcut₁ (by omega)) fun s₂ _ hcut₂ => ?_
  refine falls_pop hcut₂ (stops_of_cut hcall hcut₂ (by omega)) fun s₃ _ hcut₃ => ?_
  refine falls_pop hcut₃ (stops_of_cut hcall hcut₃ (by omega)) fun s₄ _ hcut₄ => ?_
  rw [get_bind]
  dsimp only [Machine.withStack_stack]
  rw [hcut₄.size_eq]
  refine falls_guard (by rintro ⟨⟩) (stops_of_cut hcall hcut₄ (by omega)) fun hargc => ?_
  simp only [bind_assoc]
  rw [modify_bind]
  have hcut₅ := hcut₄.truncate (Nat.sub_le _ (m.stack.slot (m.fp + 1 - 1 - 1 - 1)).toInt.toNat)
  refine falls_guard (by rintro ⟨⟩) (stops_of_cut hcall hcut₅ (by omega)) fun hsaved => ?_
  simp only [bind_assoc]
  rw [modify_bind]
  refine falls_jump (fun hout => ⟨rfl, ?_⟩) ?_
  · refine .unlinked word _ _ hop ?_ ⟨rfl, .inr hop⟩ hout (Nat.pos_of_ne_zero hdepth) ?_
    · show Stack.toList _ <+: m.stack.toList
      rw [hcut₅.toList_eq]
      exact List.take_prefix _ _
    · exact Int.toNat_of_nonneg (by omega)
  · -- Where the frame was, there is room for the value, so the last push does not fail.
    have hroom := hcut₅.size_lt_capacity (by omega)
    rw [bind_ok (push_of_lt _ hroom)]
    exact trivial

/-- Every instruction. -/
theorem execute_leaves (word : Int64) (hop : m.opcode? = some op) :
    Falls (m.Leaves word) (execute op (m.decoded word)) := by
  -- The machine with its opcode fetched is the one with one word read and all of its stack.
  show Falls (m.Leaves word) (execute op (m.partway word 1 m.stack))
  by_cases hcall : op = .call
  · subst hcall
    exact call_leaves hop
  by_cases hret : op = .ret
  · subst hret
    exact ret_leaves hop
  exact plain_leaves hop hcall hret

/-! ## What every residue keeps -/

variable {fault : Fault} {left : Machine}

namespace Residue

/-- The locals are unchanged, and nothing has been printed. -/
theorem quiet (h : m.Residue fault left) : left.locals = m.locals ∧ left.out = m.out := by
  cases h with
  | partway => exact ⟨rfl, rfl⟩
  | linked => exact ⟨rfl, rfl⟩
  | unlinked => exact ⟨rfl, rfl⟩

/-- The program counter is among the words of the instruction or just past them. -/
theorem pc_mem (h : m.Residue fault left) : m.pc ≤ left.pc ∧ left.pc ≤ m.pc + 3 := by
  cases h with
  | partway word k s hk =>
    show m.pc ≤ m.pc + k ∧ m.pc + k ≤ m.pc + 3
    omega
  | linked word s =>
    show m.pc ≤ m.pc + (3 : Nat) ∧ m.pc + (3 : Nat) ≤ m.pc + 3
    omega
  | unlinked word s fp =>
    show m.pc ≤ m.pc + (1 : Nat) ∧ m.pc + (1 : Nat) ≤ m.pc + 3
    omega

/-- The stack is one that may be left. -/
theorem mayLeave (h : m.Residue fault left) : m.MayLeave left.stack := by
  cases h with
  | partway word k s hk hs => exact hs
  | linked word s hop hs =>
    unfold MayLeave
    rw [if_pos hop]
    exact ⟨m.frameWords, List.prefix_rfl, hs⟩
  | unlinked word s fp hop hs =>
    unfold MayLeave
    rw [if_neg (by rw [hop]; decide)]
    exact hs

/-- A call that leads outside the code has linked its frame. -/
theorem of_call (h : m.Residue fault left) (hop : m.opcode? = some .call)
    (hjump : m.LeadsOutside fault) :
    ¬ m.Inside (Table.operand m 1).toInt ∧ left.depth = m.depth + 1 ∧
      (left.fp : Int) = left.sp := by
  cases h with
  | partway word k s hk hs hstop => exact absurd hjump hstop
  | linked word s _ hs _ hout =>
    refine ⟨hout, rfl, ?_⟩
    have hsize : 0 < s.size := by
      rw [← s.length_toList, hs, List.length_append]
      exact Nat.lt_of_lt_of_le (Nat.zero_lt_succ _) (Nat.le_add_left _ _)
    show ((s.size - 1 : Nat) : Int) = s.size - 1
    omega
  | unlinked word s fp hret =>
    rw [hop] at hret
    cases hret

/-- A return that leads outside the code has unlinked its frame. -/
theorem of_ret (h : m.Residue fault left) (hop : m.opcode? = some .ret)
    (hjump : m.LeadsOutside fault) :
    ¬ m.Inside (m.stack.slot m.fp).toInt ∧ left.depth + 1 = m.depth ∧
      (left.fp : Int) = (m.stack.slot (m.fp - 1)).toInt := by
  cases h with
  | partway word k s hk hs hstop => exact absurd hjump hstop
  | linked word s hcall =>
    rw [hop] at hcall
    cases hcall
  | unlinked word s fp _ hs _ hout hdepth hfp =>
    exact ⟨hout, Nat.succ_pred_eq_of_pos hdepth, hfp⟩

/-- In every other case the frame pointer and the depth are unchanged. -/
theorem of_other (h : m.Residue fault left) (hother : ¬ m.LeadsOutside fault) :
    left.fp = m.fp ∧ left.depth = m.depth := by
  cases h with
  | partway => exact ⟨rfl, rfl⟩
  | linked word s hop hs hjump => exact absurd hjump hother
  | unlinked word s fp hop hs hjump => exact absurd hjump hother

end Residue

/-! ## Faulting steps -/

/-- A fault before the first word has been read changes nothing. -/
theorem residue_of_untouched (word : Int64) (hjump : ¬ m.LeadsOutside fault) :
    m.Residue fault (m.withSite ⟨m.pc, word⟩) := by
  have hres := Residue.partway word 0 m.stack (by omega) m.mayLeave_self hjump
  have hzero : m.partway word 0 m.stack = m.withSite ⟨m.pc, word⟩ := by
    show ((m.withPc (m.pc + (0 : Nat))).withSite ⟨m.pc, word⟩) = m.withSite ⟨m.pc, word⟩
    rw [Int.natCast_zero, Int.add_zero]
  rwa [hzero] at hres

/-- Without an opcode there is nothing to lead outside. -/
theorem not_leadsOutside_of_none (hop : m.opcode? = none) : ¬ m.LeadsOutside fault := by
  rintro ⟨-, ⟨h, -⟩ | h⟩
  · rw [hop] at h
    cases h
  · rw [hop] at h
    cases h

/-- A dispatch that fails names the word at the program counter, or zero if there is none, and
leaves a residue. -/
theorem leaves_of_dispatch (h : Action.dispatch m = .error fault left) :
    m.Leaves ((m.word? m.pc).getD 0) fault left := by
  cases hw : m.word? m.pc with
  | none =>
    rw [dispatch_of_none hw] at h
    cases h
    have hop : m.opcode? = none := by rw [opcode?, hw, Option.bind_none]
    exact ⟨rfl, residue_of_untouched 0 (not_leadsOutside_of_none hop)⟩
  | some word =>
    rw [dispatch_of_some hw] at h
    cases hop : Opcode.ofWord? word with
    | none =>
      rw [hop] at h
      cases h
      refine ⟨rfl, .partway word 1 m.stack (by omega) m.mayLeave_self ?_⟩
      exact not_leadsOutside_of_none ((opcode?_of_word hw).trans hop)
    | some op =>
      rw [hop] at h
      have hleaves := execute_leaves word ((opcode?_of_word hw).trans hop)
      dsimp only at h
      rw [h] at hleaves
      exact hleaves

/-- A step faults because the budget is spent, or because the dispatch fails. -/
theorem faulted_cases (hrun : m.status = .running) (hfault : m.step.status = .faulted fault) :
    (∃ limit, m.budget = some limit ∧ limit ≤ m.steps ∧
      fault = { pc := m.pc, op := 0, reason := .budget limit } ∧
      m.step = { m with site := ⟨m.pc, 0⟩, status := .faulted fault }) ∨
    (m.Ready ∧ ∃ left, Action.dispatch m = .error fault left ∧
      m.step = { left with steps := left.steps + 1, status := .faulted fault }) := by
  cases hspent : m.isSpent with
  | true =>
    obtain ⟨limit, hlimit, hstep⟩ := step_of_spent hrun hspent
    rw [hstep] at hfault
    cases hfault
    have hle : limit ≤ m.steps := by simpa [isSpent, hlimit] using hspent
    exact .inl ⟨limit, hlimit, hle, rfl, hstep⟩
  | false =>
    have hready : m.Ready := ⟨hrun, hspent⟩
    have hsame := (SameSetup.leads m).dispatch m (SameSetup.refl m)
    have hstep := step_of_ready hready
    unfold step.advance at hstep
    cases hdispatch : Action.dispatch m with
    | ok halted left =>
      -- After a success the machine has halted or runs on.
      rw [hdispatch] at hsame hstep
      rw [hstep] at hfault
      cases halted with
      | true => cases hfault
      | false =>
        have hrunning : left.status = .running := hsame.status.trans hrun
        dsimp only at hfault
        rw [hrunning] at hfault
        cases hfault
    | error fault' left =>
      rw [hdispatch] at hstep
      rw [hstep] at hfault
      cases hfault
      exact .inr ⟨hready, left, rfl, hstep⟩

/-- A step that faults leaves a residue, but for the count of steps and the status. -/
theorem residue_of_step (hrun : m.status = .running) (hfault : m.step.status = .faulted fault) :
    ∃ left steps, m.Residue fault left ∧
      m.step = { left with steps := steps, status := .faulted fault } := by
  obtain ⟨limit, -, -, rfl, hstep⟩ | ⟨-, left, hdispatch, hstep⟩ := faulted_cases hrun hfault
  · exact ⟨m.withSite ⟨m.pc, 0⟩, m.steps, residue_of_untouched 0 (by rintro ⟨⟨⟩, -⟩), hstep⟩
  · exact ⟨left, left.steps + 1, (leaves_of_dispatch hdispatch).residue, hstep⟩

/-! ## The kinds of faults -/

/-- No instruction makes a fault of the two kinds that are not its own. -/
theorem not_mem_faultKinds (op : Opcode) :
    .unknownOpcode ∉ op.faultKinds ∧ .stepLimitExceeded ∉ op.faultKinds := by
  cases op <;> decide

/-- Without a word to dispatch, the program counter is invalid. -/
theorem kind_of_no_word (hw : m.word? m.pc = none) (h : Action.dispatch m = .error fault left) :
    fault.kind = .invalidProgramCounter := by
  rw [dispatch_of_none hw] at h
  cases h
  rfl

/-- A word that is no opcode is unknown. -/
theorem kind_of_no_opcode (hw : m.word? m.pc = some word) (hop : Opcode.ofWord? word = none)
    (h : Action.dispatch m = .error fault left) : fault.kind = .unknownOpcode := by
  rw [dispatch_of_some hw, hop] at h
  cases h
  rfl

/-- An instruction that fails makes one of its kinds of faults. -/
theorem kind_mem_of_dispatch (hb : m.Bounded) (hop : m.opcode? = some op)
    (h : Action.dispatch m = .error fault left) : fault.kind ∈ op.faultKinds := by
  have hagrees := dispatch_agrees hb
  rw [h, row_of_opcode hop] at hagrees
  unfold Row.Agrees at hagrees
  cases hrow : (Table.row m op).fault? with
  | none =>
    rw [hrow] at hagrees
    exact hagrees.elim
  | some kind =>
    rw [hrow] at hagrees
    have hkind : fault.kind = kind := hagrees
    rw [hkind]
    exact Table.kind_mem_faultKinds hrow

/-- A dispatch that fails does not say that the budget is spent. -/
theorem kind_ne_of_dispatch (hb : m.Bounded) (h : Action.dispatch m = .error fault left) :
    fault.kind ≠ .stepLimitExceeded := by
  cases hw : m.word? m.pc with
  | none =>
    rw [kind_of_no_word hw h]
    decide
  | some word =>
    cases hop : Opcode.ofWord? word with
    | none =>
      rw [kind_of_no_opcode hw hop h]
      decide
    | some op =>
      intro hkind
      have hmem := kind_mem_of_dispatch hb ((opcode?_of_word hw).trans hop) h
      rw [hkind] at hmem
      exact (not_mem_faultKinds op).2 hmem

/-- A fault that says the budget is spent has changed nothing. -/
theorem unchanged_of_stepLimit (hb : m.Bounded) (hrun : m.status = .running)
    (hfault : m.step.status = .faulted fault) (hkind : fault.kind = .stepLimitExceeded) :
    m.step = { m with site := ⟨m.pc, 0⟩, status := .faulted fault } := by
  obtain ⟨limit, -, -, -, hstep⟩ | ⟨-, left, hdispatch, -⟩ := faulted_cases hrun hfault
  · exact hstep
  · exact absurd hkind (kind_ne_of_dispatch hb hdispatch)

/-- Every other fault is that of an instruction, and counts as a step. -/
theorem ready_of_kind_ne (hrun : m.status = .running) (hfault : m.step.status = .faulted fault)
    (hkind : fault.kind ≠ .stepLimitExceeded) : m.Ready := by
  obtain ⟨limit, -, -, rfl, -⟩ | ⟨hready, -⟩ := faulted_cases hrun hfault
  · exact absurd rfl hkind
  · exact hready

end Machine

/-! ## What a faulting step leaves -/

open Machine

/-- What a step that faults leaves of a machine in use. The locals and the output are unchanged. If
the budget is spent, so is everything else; every other fault counts as a step, and leaves the
program counter among the words of its instruction or just past them. A call may leave words of its
frame on the stack, and every other instruction may have taken words off it. The frame pointer and
the depth change only where a call or a return has done all of its work but the jump, because the
target of the call or the return address is outside the code. -/
theorem fault_residue {m : Machine} {fault : Fault} (hreach : m.Reachable)
    (hrun : m.status = .running) (hfault : m.step.status = .faulted fault) :
    (m.step.locals = m.locals ∧ m.step.out = m.out) ∧
    (fault.kind = .stepLimitExceeded →
      m.step.pc = m.pc ∧ m.step.fp = m.fp ∧ m.step.depth = m.depth ∧ m.step.stack = m.stack ∧
        m.step.steps = m.steps) ∧
    (fault.kind ≠ .stepLimitExceeded →
      m.step.steps = m.steps + 1 ∧ m.pc ≤ m.step.pc ∧ m.step.pc ≤ m.pc + 3) ∧
    (m.opcode? ≠ some .call → m.step.stack.toList <+: m.stack.toList) ∧
    (m.opcode? = some .call →
      ∃ words, words <+: [Table.operand m 2, Int64.ofNat m.fp, Int64.ofInt (m.pc + 3)] ∧
        m.step.stack.toList = m.stack.toList ++ words) ∧
    (m.opcode? = some .call → m.LeadsOutside fault →
      ¬ m.Inside (Table.operand m 1).toInt ∧ m.step.depth = m.depth + 1 ∧
        (m.step.fp : Int) = m.step.sp) ∧
    (m.opcode? = some .ret → m.LeadsOutside fault →
      ¬ m.Inside (m.stack.slot m.fp).toInt ∧ m.step.depth + 1 = m.depth ∧
        (m.step.fp : Int) = (m.stack.slot (m.fp - 1)).toInt) ∧
    (¬ m.LeadsOutside fault → m.step.fp = m.fp ∧ m.step.depth = m.depth) := by
  obtain ⟨left, steps, hres, hstep⟩ := residue_of_step hrun hfault
  have hlimit := unchanged_of_stepLimit hreach.bounded hrun hfault
  have hready := ready_of_kind_ne hrun hfault
  have hstack := hres.mayLeave
  unfold MayLeave at hstack
  refine ⟨?_, fun hkind => ?_, fun hkind => ⟨?_, ?_⟩, fun hop => ?_, fun hop => ?_,
    fun hop hjump => ?_, fun hop hjump => ?_, fun hother => ?_⟩
  · rw [hstep]
    exact hres.quiet
  · rw [hlimit hkind]
    exact ⟨rfl, rfl, rfl, rfl, rfl⟩
  · obtain ⟨-, -, -, -, hcount⟩ := setup_of_step (hready hkind)
    exact hcount
  · rw [hstep]
    exact hres.pc_mem
  · rw [if_neg hop] at hstack
    rw [hstep]
    exact hstack
  · rw [if_pos hop] at hstack
    rw [hstep]
    exact hstack
  · rw [hstep]
    exact hres.of_call hop hjump
  · rw [hstep]
    exact hres.of_ret hop hjump
  · rw [hstep]
    exact hres.of_other hother

/-- A function overwrites its return address, so that its return leads outside the code. By then
the frame is unlinked, and the value it was to return is lost. -/
theorem fault_residue_lost_return :
    let code := #[Opcode.call.word, 3, 0, Opcode.const.word, 99, Opcode.store.word, 0,
      Opcode.const.word, 7, Opcode.ret.word]
    let m := (Machine.new code 0 0 { stackCapacity := 8 }).step.step.step.step
    m.stack.toList = [0, 0, 99, 7] ∧ m.depth = 1 ∧ m.step.stack.toList = [] ∧
      m.step.steps = m.steps + 1 ∧ m.step.depth + 1 = m.depth ∧
      (m.step.fp : Int) = (m.stack.slot (m.fp - 1)).toInt := by
  intro code m
  have hreach : m.Reachable :=
    (Machine.reachable_new code 0 0 { stackCapacity := 8 }).step.step.step.step
  have hfault : m.step.status =
      .faulted { pc := 9, op := Opcode.ret.word, reason := .jump 99 10 } := by decide +kernel
  have hop : m.opcode? = some .ret := by decide +kernel
  obtain ⟨-, -, hcount, -, -, -, hret, -⟩ := fault_residue hreach (by decide +kernel) hfault
  obtain ⟨-, hdepth, hfp⟩ := hret hop ⟨rfl, .inr hop⟩
  exact ⟨by decide +kernel, by decide +kernel, by decide +kernel, (hcount (by decide)).1, hdepth,
    hfp⟩

end StackMachine
