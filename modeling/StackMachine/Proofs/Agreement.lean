import StackMachine.Proofs.Table

/-!
# Agreement of actions with a row of the table

An instruction is a sequence of elementary actions, and its row a sequence of checks with an effect
at the end. `Row.Agrees` relates the result of the one to the other. The rules here go through both
in step: each takes the first action together with the first check and leaves the rest of both. All
but the last are cases of `agrees_bind`, with the two equations of the action for its two outcomes.

The kinds of faults in a row depend on the opcode alone, so `Opcode.faultKinds` says which kinds an
instruction can make at all.
-/

namespace StackMachine

/-! ## Agreement with a row -/

namespace Row

/-- The result of an instruction is what the row says: a failure of the kind of the first failing
check or, if none fails, a success with the row's effect. -/
def Agrees (row : Row) (result : EStateM.Result Fault Machine Bool) : Prop :=
  match row.fault?, result with
  | some kind, .error fault _ => fault.kind = kind
  | none, .ok halted left => left.view = row.effect ∧ halted = row.halts
  | _, _ => False

variable {check : Check} {rest : List Check} {effect : View} {halts : Bool}

/-- A first check that fails gives its kind. -/
theorem fault?_of_fails (hfails : check.fails = true) :
    fault? ⟨check :: rest, effect, halts⟩ = some check.kind := by
  unfold fault?
  rw [List.find?_cons_of_pos hfails, Option.map_some]

/-- A first check that passes leaves the others. -/
theorem fault?_of_passes (hpasses : check.fails = false) :
    fault? ⟨check :: rest, effect, halts⟩ = fault? ⟨rest, effect, halts⟩ := by
  unfold fault?
  rw [List.find?_cons_of_neg (by rw [hpasses]; decide)]

/-- The kind of the fault of a row is that of one of its checks. -/
theorem kind_mem_of_fault? {row : Row} {kind : FaultKind} (h : row.fault? = some kind) :
    kind ∈ row.checks.map Check.kind := by
  unfold fault? at h
  obtain ⟨check, hfind, rfl⟩ := Option.map_eq_some_iff.1 h
  exact List.mem_map_of_mem (List.mem_of_find?_eq_some hfind)

/-- A failure agrees with a row whose first check fails. -/
theorem agrees_of_fails {fault : Fault} {left : Machine} (hfails : check.fails = true)
    (hkind : fault.kind = check.kind) :
    Agrees ⟨check :: rest, effect, halts⟩ (.error fault left) := by
  unfold Agrees
  rw [fault?_of_fails hfails]
  exact hkind

/-- A first check that passes leaves the others to agree with. -/
theorem agrees_of_passes {result : EStateM.Result Fault Machine Bool}
    (hpasses : check.fails = false) (h : Agrees ⟨rest, effect, halts⟩ result) :
    Agrees ⟨check :: rest, effect, halts⟩ result := by
  unfold Agrees at h ⊢
  rw [fault?_of_passes hpasses]
  exact h

/-- A success agrees with a row that has no checks left. -/
theorem agrees_of_done {left : Machine} (h : left.view = effect) :
    Agrees ⟨[], effect, halts⟩ (.ok halts left) := ⟨h, rfl⟩

/-- A success that agrees with a row shows that all its checks pass and has its effect. -/
theorem Agrees.of_ok {row : Row} {halted : Bool} {left : Machine}
    (h : row.Agrees (.ok halted left)) :
    row.fault? = none ∧ left.view = row.effect := by
  unfold Agrees at h
  cases hfault : row.fault? with
  | none =>
    rw [hfault] at h
    exact ⟨rfl, h.1⟩
  | some kind =>
    rw [hfault] at h
    exact h.elim

end Row

/-! ## Kinds of faults -/

/-- The kinds of faults that an instruction may make, in the order of its checks. -/
def Opcode.faultKinds : Opcode → List FaultKind
  | .add | .sub | .mul | .lt | .gt | .eq | .pop => [.stackUnderflow]
  | .div => [.stackUnderflow, .divisionByZero]
  | .jmp => [.invalidProgramCounter, .invalidProgramCounter]
  | .jmpt | .jmpf => [.invalidProgramCounter, .stackUnderflow, .invalidProgramCounter]
  | .const => [.invalidProgramCounter, .stackOverflow]
  | .load => [.invalidProgramCounter, .invalidStackAddress, .stackOverflow]
  | .store => [.invalidProgramCounter, .stackUnderflow, .invalidStackAddress]
  | .gload => [.stackUnderflow, .invalidLocalAddress]
  | .gstore => [.stackUnderflow, .invalidProgramCounter, .invalidLocalAddress]
  | .print => [.stackUnderflow, .outputFailure]
  | .halt => []
  | .call =>
    [.invalidProgramCounter, .invalidProgramCounter, .stackUnderflow, .stackOverflow,
      .invalidProgramCounter]
  | .ret =>
    [.returnOutsideCall, .stackUnderflow, .invalidStackAddress, .stackUnderflow, .stackUnderflow,
      .stackUnderflow, .invalidStackAddress, .invalidProgramCounter]

/-- The checks of an instruction are of these kinds on every machine. -/
theorem Table.kinds_row (m : Machine) (op : Opcode) :
    (Table.row m op).checks.map Check.kind = op.faultKinds := by
  -- The kinds of a row are literals; only the conditions depend on the machine.
  cases op <;> rfl

/-- An instruction that faults makes one of its kinds of faults. -/
theorem Table.kind_mem_faultKinds {m : Machine} {op : Opcode} {kind : FaultKind}
    (h : (Table.row m op).fault? = some kind) : kind ∈ op.faultKinds := by
  rw [← Table.kinds_row m op]
  exact Row.kind_mem_of_fault? h

namespace Action

variable {m : Machine} {check : Check} {rest : List Check} {effect : View} {halts : Bool}

/-! ## One action against one check -/

/-- An action that fails exactly under a condition goes with a check of that condition. -/
theorem agrees_bind {α : Type} {c : Prop} [Decidable c] {a : Action α} {next : α → Action Bool}
    (hfails : check.fails = decide c)
    (herror : c → ∃ fault left, a m = .error fault left ∧ fault.kind = check.kind)
    (hok : ¬ c → ∃ x left, a m = .ok x left ∧ Row.Agrees ⟨rest, effect, halts⟩ (next x left)) :
    Row.Agrees ⟨check :: rest, effect, halts⟩ ((a >>= next) m) := by
  -- The condition of the check decides which of the two equations of the action applies.
  by_cases hc : c
  · obtain ⟨fault, left, hrun, hkind⟩ := herror hc
    rw [bind_error hrun]
    exact Row.agrees_of_fails (by rw [hfails, decide_eq_true hc]) hkind
  · obtain ⟨x, left, hrun, hnext⟩ := hok hc
    rw [bind_ok hrun]
    exact Row.agrees_of_passes (by rw [hfails, decide_eq_false hc]) hnext

/-- A fetch goes with a check that there is a word. -/
theorem agrees_fetch {next : Int64 → Action Bool}
    (hfails : check.fails = (m.word? m.pc).isNone) (hkind : check.kind = .invalidProgramCounter)
    (h : ∀ v, m.word? m.pc = some v →
      Row.Agrees ⟨rest, effect, halts⟩ (next v (m.withPc (m.pc + 1)))) :
    Row.Agrees ⟨check :: rest, effect, halts⟩ ((fetch >>= next) m) := by
  refine agrees_bind (c := m.word? m.pc = none) ?_ (fun hnone => ?_) fun hsome => ?_
  · rw [hfails, Bool.eq_iff_iff, Option.isNone_iff_eq_none, decide_eq_true_eq]
  · exact ⟨_, m, fetch_of_none hnone, hkind.symm⟩
  · obtain ⟨v, hv⟩ := Option.ne_none_iff_exists'.1 hsome
    exact ⟨v, _, fetch_of_some hv, h v hv⟩

/-- A pop from a stack that is another one cut down, as long as it holds a word. -/
theorem pop_of_cut {t : Stack} {k : Nat} (hcut : t.Cut k m.stack) (hpos : 0 < k) :
    ∃ s, t.Cut (k - 1) s ∧ pop m = .ok (t.slot (k - 1)) (m.withStack s) := by
  -- The word on top of a cut stack is the last one of the other that is kept.
  rw [← hcut.size_eq] at hpos
  refine ⟨m.stack.pop hpos, hcut.pop hpos, ?_⟩
  rw [pop_of_pos hpos, hcut.top_eq hpos]

/-- A pop goes with a check that the stack holds a word. -/
theorem agrees_pop {next : Int64 → Action Bool} {t : Stack} {k : Nat} (hcut : t.Cut k m.stack)
    (hfails : check.fails = decide (k < 1)) (hkind : check.kind = .stackUnderflow)
    (h : ∀ s, 0 < k → t.Cut (k - 1) s →
      Row.Agrees ⟨rest, effect, halts⟩ (next (t.slot (k - 1)) (m.withStack s))) :
    Row.Agrees ⟨check :: rest, effect, halts⟩ ((pop >>= next) m) := by
  refine agrees_bind hfails (fun hempty => ?_) fun hpos => ?_
  · have hsize : m.stack.size = 0 := by
      rw [hcut.size_eq]
      omega
    exact ⟨_, m, pop_of_empty hsize, hkind.symm⟩
  · obtain ⟨s, hcut', hpop⟩ := pop_of_cut hcut (by omega)
    exact ⟨_, _, hpop, h s (by omega) hcut'⟩

/-- A push goes with a check that there is room for one word. -/
theorem agrees_push {next : Unit → Action Bool} (v : Int64)
    (hfails : check.fails = decide (m.stack.capacity < m.stack.size + 1))
    (hkind : check.kind = .stackOverflow)
    (h : ∀ hroom : m.stack.size < m.stack.capacity,
      Row.Agrees ⟨rest, effect, halts⟩ (next () (m.withStack (m.stack.push v hroom)))) :
    Row.Agrees ⟨check :: rest, effect, halts⟩ ((push v >>= next) m) := by
  refine agrees_bind hfails (fun hfull => ?_) fun hroom => ?_
  · exact ⟨_, m, push_of_full v (by omega), hkind.symm⟩
  · have hlt : m.stack.size < m.stack.capacity := by omega
    exact ⟨(), _, push_of_lt v hlt, h hlt⟩

/-- A jump goes with a check of its target. -/
theorem agrees_jump {next : Unit → Action Bool} (target : Int64)
    (hfails : check.fails = decide (¬ m.Inside target.toInt))
    (hkind : check.kind = .invalidProgramCounter)
    (h : m.Inside target.toInt →
      Row.Agrees ⟨rest, effect, halts⟩ (next () (m.withPc target.toInt))) :
    Row.Agrees ⟨check :: rest, effect, halts⟩ ((jump target >>= next) m) := by
  refine agrees_bind hfails (fun hout => ?_) fun hin => ?_
  · exact ⟨_, m, jump_of_outside hout, hkind.symm⟩
  · exact ⟨(), _, jump_of_inside (not_not.1 hin), h (not_not.1 hin)⟩

/-- A read relative to the frame pointer goes with a check of the exact address. -/
theorem agrees_readRelative {next : Int64 → Action Bool} (hb : m.Bounded) (offset : Int64)
    (hfails : check.fails =
      decide (¬ (0 ≤ m.fp + offset.toInt ∧ m.fp + offset.toInt < m.stack.size)))
    (hkind : check.kind = .invalidStackAddress)
    (h : Row.Agrees ⟨rest, effect, halts⟩
      (next (m.stack.slot (m.fp + offset.toInt).toNat) m)) :
    Row.Agrees ⟨check :: rest, effect, halts⟩ ((readRelative offset >>= next) m) := by
  refine agrees_bind hfails (fun hout => ?_) fun hin => ?_
  · exact ⟨_, m, readRelative_of_not_mem hb hout, hkind.symm⟩
  · have hmem := not_not.1 hin
    have hlt : (m.fp + offset.toInt).toNat < m.stack.size := by omega
    have hread := readRelative_of_mem hb (Int.toNat_of_nonneg hmem.1).symm hlt
    -- The row speaks of slots, which are defined at every index.
    rw [Stack.get_eq_slot] at hread
    exact ⟨_, m, hread, h⟩

/-- A write relative to the frame pointer goes with a check of the exact address. -/
theorem agrees_writeRelative {next : Unit → Action Bool} (hb : m.Bounded) (offset v : Int64)
    (hfails : check.fails =
      decide (¬ (0 ≤ m.fp + offset.toInt ∧ m.fp + offset.toInt < m.stack.size)))
    (hkind : check.kind = .invalidStackAddress)
    (h : ∀ hlt : (m.fp + offset.toInt).toNat < m.stack.size,
      Row.Agrees ⟨rest, effect, halts⟩
        (next () (m.withStack (m.stack.set (m.fp + offset.toInt).toNat v hlt)))) :
    Row.Agrees ⟨check :: rest, effect, halts⟩ ((writeRelative offset v >>= next) m) := by
  refine agrees_bind hfails (fun hout => ?_) fun hin => ?_
  · exact ⟨_, m, writeRelative_of_not_mem hb v hout, hkind.symm⟩
  · have hmem := not_not.1 hin
    have hlt : (m.fp + offset.toInt).toNat < m.stack.size := by omega
    exact ⟨(), _, writeRelative_of_mem hb v (Int.toNat_of_nonneg hmem.1).symm hlt, h hlt⟩

/-- A read of a local goes with a check of its index. -/
theorem agrees_readLocal {next : Int64 → Action Bool} (index : Int64)
    (hfails : check.fails = decide (¬ (0 ≤ index.toInt ∧ index.toInt < m.locals.size)))
    (hkind : check.kind = .invalidLocalAddress)
    (h : Row.Agrees ⟨rest, effect, halts⟩ (next (m.locals[index.toInt.toNat]?.getD 0) m)) :
    Row.Agrees ⟨check :: rest, effect, halts⟩ ((readLocal index >>= next) m) := by
  refine agrees_bind hfails (fun hout => ?_) fun hin => ?_
  · exact ⟨_, m, readLocal_of_outside hout, hkind.symm⟩
  · have hmem := not_not.1 hin
    have hlt : index.toInt.toNat < m.locals.size := by omega
    have hsome := Array.getElem?_eq_getElem hlt
    -- The default of the row is never used, since the index is inside.
    rw [hsome, Option.getD_some] at h
    exact ⟨_, m, readLocal_of_some hmem.1 hsome, h⟩

/-- A write of a local goes with a check of its index. -/
theorem agrees_writeLocal {next : Unit → Action Bool} (index v : Int64)
    (hfails : check.fails = decide (¬ (0 ≤ index.toInt ∧ index.toInt < m.locals.size)))
    (hkind : check.kind = .invalidLocalAddress)
    (h : ∀ hlt : index.toInt.toNat < m.locals.size,
      Row.Agrees ⟨rest, effect, halts⟩
        (next () (m.withLocals (m.locals.set index.toInt.toNat v hlt)))) :
    Row.Agrees ⟨check :: rest, effect, halts⟩ ((writeLocal index v >>= next) m) := by
  refine agrees_bind hfails (fun hout => ?_) fun hin => ?_
  · exact ⟨_, m, writeLocal_of_outside v hout, hkind.symm⟩
  · have hmem := not_not.1 hin
    exact ⟨(), _, writeLocal_of_inside v hmem, h (by omega)⟩

/-- Printing goes with a check that the sink takes the value. -/
theorem agrees_print {next : Unit → Action Bool} (v : Int64)
    (hfails : check.fails = m.out.isFull) (hkind : check.kind = .outputFailure)
    (h : Row.Agrees ⟨rest, effect, halts⟩ (next () (m.withOut (m.out.write v)))) :
    Row.Agrees ⟨check :: rest, effect, halts⟩ ((print v >>= next) m) := by
  refine agrees_bind (c := m.out.isFull = true) ?_ (fun hfull => ?_) fun hroom => ?_
  · -- The check is the truth value itself, so the condition is that it is true.
    rw [hfails, Bool.decide_eq_true]
  · exact ⟨_, m, print_of_full v hfull, hkind.symm⟩
  · exact ⟨(), _, print_of_room v (Bool.eq_false_of_not_eq_true hroom), h⟩

/-- A condition under which an instruction fails goes with a check of it. -/
theorem agrees_guard {α : Type} {c : Prop} [Decidable c] {reason : Reason} {a : Action α}
    {next : α → Action Bool} (hfails : check.fails = decide c) (hkind : check.kind = reason.kind)
    (h : ¬ c → Row.Agrees ⟨rest, effect, halts⟩ ((a >>= next) m)) :
    Row.Agrees ⟨check :: rest, effect, halts⟩
      (((if c then fail reason else a) >>= next) m) := by
  by_cases hc : c
  · rw [if_pos hc]
    exact Row.agrees_of_fails (by rw [hfails, decide_eq_true_eq]; exact hc) hkind.symm
  · rw [if_neg hc]
    exact Row.agrees_of_passes (by rw [hfails, decide_eq_false_iff_not]; exact hc) (h hc)

end Action

end StackMachine
