import StackMachine.Proofs.Dispatch

/-!
# Instructions that stop partway

An instruction changes the machine before its last check has passed, so a fault leaves it in the
middle of the instruction. `Machine.partway` is the machine there: some words of the instruction
have been read, the stack may have changed, and nothing else has.

An elementary action that fails has changed nothing, and the fault is at the instruction that is
being executed (`Action.Checked`). So an instruction is gone through action by action, with the
machine as it is before each of them: that is what a failure there leaves. There is one rule for
each kind of action, as for the comparison of instructions with the table.
-/

namespace StackMachine

/-- The machine in the middle of the instruction at its program counter, whose opcode is `word`: `k`
words of it have been read, and the stack is `s`. -/
abbrev Machine.partway (m : Machine) (word : Int64) (k : Nat) (s : Stack) : Machine :=
  ((m.withPc (m.pc + k)).withSite ⟨m.pc, word⟩).withStack s

namespace Action

variable {α β : Type}

/-! ## Checked actions -/

/-- An action that makes its checks first: where it fails it has changed nothing, and the fault is
at the current site. -/
structure Checked (a : Action α) : Prop where
  clean : a.Clean
  site : ∀ x fault left, a x = .error fault left → fault.toSite = x.site

namespace Checked

/-- An action that makes one check, and nothing before it, is checked. -/
theorem of_check {c : Machine → Prop} [DecidablePred c] {y : ∀ m, c m → α}
    {next : ∀ m, c m → Machine} {reason : Machine → Reason} :
    Checked fun m => if h : c m then .ok (y m h) (next m h) else fail (reason m) m := by
  refine ⟨Clean.of_check, fun x fault left h => ?_⟩
  split at h
  · cases h
  · cases h
    rfl

/-- A write relative to the frame pointer is checked. -/
theorem writeRelative (offset v : Int64) : (Action.writeRelative offset v).Checked := by
  refine ⟨Clean.writeRelative offset v, fun x fault left h => ?_⟩
  unfold Action.writeRelative at h
  split at h
  · cases h
  · cases h
    rfl

/-- Printing is checked: a sink that refuses a value is left as it was. -/
theorem print (v : Int64) : (Action.print v).Checked := by
  refine ⟨fun x left fault h => ?_, fun x fault left h => ?_⟩
  · unfold Action.print at h
    split at h
    · cases h
      rfl
    · cases h
  · unfold Action.print at h
    split at h
    · cases h
      rfl
    · cases h

end Checked

/-- A checked action that changes nothing where it succeeds either. -/
structure Looks (a : Action α) : Prop extends Checked a where
  unchanged : ∀ x y left, a x = .ok y left → left = x

namespace Looks

/-- Returning a value changes nothing. -/
theorem pure (y : α) : (Pure.pure y : Action α).Looks where
  clean _ _ _ h := by cases h
  site _ _ _ h := by cases h
  unchanged _ _ _ h := by
    cases h
    rfl

/-- A check that passes a value on changes nothing. -/
theorem of_check {c : Machine → Prop} [DecidablePred c] {y : ∀ m, c m → α}
    {reason : Machine → Reason} :
    Looks fun m => if h : c m then .ok (y m h) m else fail (reason m) m := by
  refine ⟨Checked.of_check, fun x y left h => ?_⟩
  split at h
  · cases h
    rfl
  · cases h

/-- A division changes nothing itself. -/
theorem divide (a b : Int64) : (Action.divide a b).Looks := by
  unfold Action.divide
  split
  · refine ⟨⟨fun _ _ _ h => ?_, fun _ _ _ h => ?_⟩, fun _ _ _ h => ?_⟩
    · cases h
      rfl
    · cases h
      rfl
    · cases h
  · exact Looks.pure _

/-- A read relative to the frame pointer changes nothing. -/
theorem readRelative (offset : Int64) : (Action.readRelative offset).Looks := by
  refine ⟨⟨Clean.readRelative offset, fun x fault left h => ?_⟩, fun x y left h => ?_⟩
  · unfold Action.readRelative at h
    split at h
    · cases h
    · cases h
      rfl
  · unfold Action.readRelative at h
    split at h
    · cases h
      rfl
    · cases h

end Looks

/-! ## Failing exits -/

/-- A result that satisfies `E` if it is a failure. -/
def Falls (E : Fault → Machine → Prop) (result : EStateM.Result Fault Machine α) : Prop :=
  match result with
  | .ok _ _ => True
  | .error fault left => E fault left

/-- Failing partway is in `E`. -/
def Fails (E : Fault → Machine → Prop) (m : Machine) (word : Int64) (k : Nat) (s : Stack) : Prop :=
  ∀ fault : Fault, fault.toSite = ⟨m.pc, word⟩ → E fault (m.partway word k s)

/-- Failing partway, at a check that is neither that of a fetch nor that of a jump, is in `E`. -/
def Stops (E : Fault → Machine → Prop) (m : Machine) (word : Int64) (k : Nat) (s : Stack) : Prop :=
  ∀ fault : Fault, fault.toSite = ⟨m.pc, word⟩ → fault.kind ≠ .invalidProgramCounter →
    E fault (m.partway word k s)

variable {E : Fault → Machine → Prop} {m : Machine} {word : Int64} {k n : Nat} {s : Stack}

/-- A fetch reads one more word, or fails for want of it. -/
theorem falls_fetch {next : Int64 → Action β}
    (hfail : m.word? (m.pc + k) = none → Fails E m word k s)
    (h : ∀ v, m.word? (m.pc + k) = some v → Falls E (next v (m.partway word (k + 1) s))) :
    Falls E ((fetch >>= next) (m.partway word k s)) := by
  cases hw : m.word? (m.pc + k) with
  | none =>
    rw [bind_error (fetch_of_none (m := m.partway word k s) hw)]
    exact hfail hw _ rfl
  | some v =>
    -- The count of words that have been read stands for the program counter, and goes up with it.
    have hpc : m.pc + k + 1 = m.pc + (k + 1 : Nat) := by omega
    rw [bind_ok (fetch_of_some (m := m.partway word k s) hw)]
    show Falls E (next v (((m.withPc (m.pc + k + 1)).withSite ⟨m.pc, word⟩).withStack s))
    rw [hpc]
    exact h v hw

/-- A pop takes the last word that is left of the stack, or fails if none is. -/
theorem falls_pop {next : Int64 → Action β} (hcut : m.stack.Cut n s) (hstop : Stops E m word k s)
    (h : ∀ s', 0 < n → m.stack.Cut (n - 1) s' →
      Falls E (next (m.stack.slot (n - 1)) (m.partway word k s'))) :
    Falls E ((pop >>= next) (m.partway word k s)) := by
  by_cases hpos : 0 < n
  · -- The word that is popped is named by its slot in the stack before the instruction.
    obtain ⟨s', hcut', hpop⟩ := pop_of_cut (m := m.partway word k s) hcut hpos
    rw [bind_ok hpop]
    exact h s' hpos hcut'
  · have hempty : s.size = 0 := by
      rw [hcut.size_eq]
      omega
    rw [bind_error (pop_of_empty (m := m.partway word k s) hempty)]
    exact hstop _ rfl (by rintro ⟨⟩)

/-- A push adds a word, or fails for want of room. -/
theorem falls_push {next : Unit → Action β} (v : Int64) (hstop : Stops E m word k s)
    (h : ∀ hroom : s.size < s.capacity, Falls E (next () (m.partway word k (s.push v hroom)))) :
    Falls E ((push v >>= next) (m.partway word k s)) := by
  by_cases hroom : s.size < s.capacity
  · rw [bind_ok (push_of_lt (m := m.partway word k s) v hroom)]
    exact h hroom
  · rw [bind_error (push_of_full (m := m.partway word k s) v (Nat.not_lt.1 hroom))]
    exact hstop _ rfl (by rintro ⟨⟩)

/-- A condition under which an instruction fails. -/
theorem falls_guard {c : Prop} [Decidable c] {reason : Reason} {a : Action α}
    {next : α → Action β} (hreason : reason.kind ≠ .invalidProgramCounter)
    (hstop : Stops E m word k s)
    (h : ¬ c → Falls E ((a >>= next) (m.partway word k s))) :
    Falls E (((if c then fail reason else a) >>= next) (m.partway word k s)) := by
  by_cases hc : c
  · rw [if_pos hc]
    exact hstop _ rfl hreason
  · rw [if_neg hc]
    exact h hc

/-- An action that only looks at the machine. -/
theorem falls_look {a : Action α} {next : α → Action β} (ha : a.Looks)
    (hfail : Fails E m word k s)
    (h : ∀ y, Falls E (next y (m.partway word k s))) :
    Falls E ((a >>= next) (m.partway word k s)) := by
  cases hrun : a (m.partway word k s) with
  | ok y left =>
    -- A look leaves the machine where it was, so the instruction goes on from the same point.
    rw [bind_ok hrun, ha.unchanged _ _ _ hrun]
    exact h y
  | error fault left =>
    rw [bind_error hrun, ha.clean _ _ _ hrun]
    exact hfail fault (ha.site _ _ _ hrun)

/-- The last action of an instruction that can fail. -/
theorem falls_last {a : Action α} (ha : a.Checked) (y : β)
    (hfail : Fails E m word k s) :
    Falls E ((a >>= fun _ => pure y) (m.partway word k s)) := by
  cases hrun : a (m.partway word k s) with
  | ok z left =>
    rw [bind_ok hrun]
    -- Nothing after it can fail, so nothing is asked of a success.
    exact trivial
  | error fault left =>
    rw [bind_error hrun, ha.clean _ _ _ hrun]
    exact hfail fault (ha.site _ _ _ hrun)

/-- A jump that is the last action that can fail, on whichever machine. -/
theorem falls_jump {x : Machine} {next : Unit → Action β} {target : Int64}
    (hout : ¬ x.Inside target.toInt →
      E { x.site with reason := .jump target x.code.size } x)
    (hin : Falls E (next () (x.withPc target.toInt))) : Falls E ((jump target >>= next) x) := by
  by_cases h : x.Inside target.toInt
  · rw [bind_ok (jump_of_inside h)]
    exact hin
  · rw [bind_error (jump_of_outside h)]
    exact hout h

end Action

end StackMachine
