import StackMachine.Proofs.Iterate

/-!
# Machines with more of a resource

A machine can fall short of five things: words of code, locals, stack cells, room in its sink, and
steps. For each there is one kind of fault, and that kind arises in no other way. A `Supply` adds to
some of them, and `Machine.supply` is the machine that has it from the start.

An instruction does not notice a supply until it falls short of what is supplied: `Lifts` says so
of an action, and `lifts_dispatch` of every instruction. The proof goes once through all of them.
What is compared are whole machines, so a result about a machine with a supply is an equation.
`step_supply` and `iterate_supply` carry it over to steps.
-/

namespace StackMachine

/-! ## Stacks with more cells -/

namespace Stack

/-- The stack with `n` more cells, none of them occupied. -/
def extend (s : Stack) (n : Nat) : Stack where
  cells := s.cells ++ Array.replicate n 0
  size := s.size
  size_le := by
    have hle := s.size_le
    rw [Array.size_append]
    omega

variable (s : Stack) (n : Nat)

/-- The capacity grows by the number of cells. -/
@[simp]
theorem capacity_extend : (s.extend n).capacity = s.capacity + n := by
  unfold extend capacity
  rw [Array.size_append, Array.size_replicate]

/-- No cells more leave the stack as it is. -/
@[simp]
theorem extend_zero : s.extend 0 = s := by
  unfold extend
  simp

/-- The empty stack with more cells. -/
theorem extend_empty (capacity : Nat) : (empty capacity).extend n = empty (capacity + n) := by
  unfold extend empty
  congr 1
  exact Array.replicate_append_replicate

/-- The words are where they were. -/
@[simp]
theorem toList_extend : (s.extend n).toList = s.toList := by
  unfold toList extend
  rw [Array.toList_append, List.take_append_of_le_length]
  exact s.size_le

/-- The word of an occupied slot is the same. -/
theorem get_extend (i : Nat) (h : i < s.size) : (s.extend n).get i h = s.get i h :=
  Array.getElem_append_left (Nat.lt_of_lt_of_le h s.size_le)

/-- The topmost word is the same. -/
theorem top_extend (h : 0 < s.size) : (s.extend n).top h = s.top h :=
  get_extend s n (s.size - 1) (by omega)

/-- A push goes into the same cell. -/
theorem push_extend (v : Int64) (h : s.size < s.capacity)
    (h' : (s.extend n).size < (s.extend n).capacity) :
    (s.extend n).push v h' = (s.push v h).extend n := by
  unfold push extend
  congr 1
  -- The further cells stand behind all others, so they are not touched.
  exact Array.set_append_left h

/-- A pop gives up the same cell. -/
theorem pop_extend (h : 0 < s.size) : (s.extend n).pop h = (s.pop h).extend n := by
  have hlt : s.size - 1 < s.cells.size := Nat.lt_of_lt_of_le (Nat.sub_lt h Nat.one_pos) s.size_le
  unfold pop extend
  congr 1
  exact Array.set_append_left hlt

/-- Overwriting an occupied slot overwrites the same cell. -/
theorem set_extend (i : Nat) (v : Int64) (h : i < s.size) :
    (s.extend n).set i v h = (s.set i v h).extend n := by
  unfold set extend
  congr 1
  exact Array.set_append_left (Nat.lt_of_lt_of_le h s.size_le)

/-- Giving up words gives up the same cells. -/
theorem drop_extend (k : Nat) : (s.extend n).drop k = (s.drop k).extend n := by
  -- Both stacks hold as many words, so that they give up the same number.
  induction k generalizing s with
  | zero => rfl
  | succ k ih =>
    unfold drop
    by_cases h : 0 < s.size
    · rw [dif_pos h, dif_pos (show 0 < (s.extend n).size from h), pop_extend, ih]
    · rw [dif_neg h, dif_neg (show ¬ 0 < (s.extend n).size from h)]

/-- Truncating gives up the same cells. -/
theorem truncate_extend (k : Nat) : (s.extend n).truncate k = (s.truncate k).extend n :=
  drop_extend s n (s.size - k)

end Stack

/-! ## Supplies -/

/-- What is added to the resources of a machine. -/
structure Supply where
  /-- Words that follow the code. -/
  code : Array Int64 := #[]
  /-- How many more locals there are. -/
  locals : Nat := 0
  /-- How many more cells the stack has. -/
  cells : Nat := 0
  /-- Whether the sink takes everything from now on. -/
  endless : Bool := false
  /-- The budget in place of the machine's own. -/
  budget : Option Nat

/-- The kinds of fault that an instruction can make without a supply and may not make with it. -/
def Supply.Averts (s : Supply) : FaultKind → Prop
  | .invalidProgramCounter => s.code ≠ #[]
  | .invalidLocalAddress => s.locals ≠ 0
  | .stackOverflow => s.cells ≠ 0
  | .outputFailure => s.endless = true
  | _ => False

/-- A sink that takes everything from now on. -/
def Sink.unlimited (s : Sink) : Sink :=
  { printed := s.printed }

namespace Machine

/-- The machine with a supply. -/
def supply (m : Machine) (s : Supply) : Machine :=
  { m with
    code := m.code ++ s.code
    locals := m.locals ++ Array.replicate s.locals 0
    stack := m.stack.extend s.cells
    budget := s.budget
    out := if s.endless then m.out.unlimited else m.out }

/-- Without further code the code is the machine's own. -/
theorem supply_code {s : Supply} (m : Machine) (h : s.code = #[]) :
    (m.supply s).code = m.code := by
  show m.code ++ s.code = m.code
  rw [h, Array.append_empty]

/-- Without further locals the locals are the machine's own. -/
theorem supply_locals {s : Supply} (m : Machine) (h : s.locals = 0) :
    (m.supply s).locals = m.locals := by
  show m.locals ++ Array.replicate s.locals 0 = m.locals
  rw [h, Array.replicate_zero, Array.append_empty]

/-- Without further cells the stack is the machine's own. -/
theorem supply_stack {s : Supply} (m : Machine) (h : s.cells = 0) :
    (m.supply s).stack = m.stack := by
  show m.stack.extend s.cells = m.stack
  rw [h, Stack.extend_zero]

/-- A supply that is only a budget. -/
theorem supply_budget (m : Machine) (budget : Option Nat) :
    m.supply { budget } = { m with budget } := by
  unfold supply
  simp

/-- What is supplied follows what there is: the words of the code keep their offsets. -/
theorem word?_supply {m : Machine} {offset : Int} {w : Int64} (s : Supply)
    (h : m.word? offset = some w) : (m.supply s).word? offset = some w := by
  obtain ⟨h0, hlt⟩ := inside_of_word? h
  unfold word? at h ⊢
  rw [if_pos h0] at h ⊢
  show (m.code ++ s.code)[offset.toNat]? = some w
  rw [Array.getElem?_append_left (by omega), h]

/-- A target inside the code stays inside. -/
theorem inside_supply {m : Machine} {offset : Int} (s : Supply) (h : m.Inside offset) :
    (m.supply s).Inside offset := by
  refine ⟨h.1, ?_⟩
  show offset < (m.code ++ s.code).size
  have hlt := h.2
  rw [Array.size_append]
  omega

end Machine

/-! ## Actions that do not notice a supply -/

namespace Action

variable {α β : Type} {s : Supply}

/-- The action does with the supply what it does without, unless it fails without for want of what
is supplied. -/
def Lifts (s : Supply) (a : Action α) : Prop :=
  ∀ m, match a m with
    | .ok x m' => a (m.supply s) = .ok x (m'.supply s)
    | .error fault m' =>
      s.Averts fault.kind ∨ a (m.supply s) = .error fault (m'.supply s)

/-- Returning a value reads nothing. -/
theorem lifts_pure (x : α) : Lifts s (pure x) := fun _ => rfl

/-- A failure is the same failure. -/
theorem lifts_fail (reason : Reason) : Lifts s (fail (α := α) reason) := fun _ => .inr rfl

/-- A change of the machine that commutes with the supply. -/
theorem lifts_modify {g : Machine → Machine} (h : ∀ m, g (m.supply s) = (g m).supply s) :
    Lifts s (modify g) := by
  intro m
  show EStateM.Result.ok () (g (m.supply s)) = .ok () ((g m).supply s)
  rw [h]

/-- Reading the machine, for what follows that reads nothing of what is supplied. -/
theorem lifts_get {f : Machine → Action β} (hread : ∀ m, f (m.supply s) = f m)
    (hf : ∀ m, Lifts s (f m)) : Lifts s (get >>= f) := by
  intro m
  rw [get_bind, get_bind, hread]
  exact hf m m

/-- Two actions in a row. -/
theorem Lifts.bind {a : Action α} {f : α → Action β} (ha : Lifts s a) (hf : ∀ x, Lifts s (f x)) :
    Lifts s (a >>= f) := by
  intro m
  have hm := ha m
  cases hrun : a m with
  | ok x m' =>
    rw [hrun] at hm
    rw [bind_ok hrun, bind_ok hm]
    exact hf x m'
  | error fault m' =>
    rw [hrun] at hm
    rw [bind_error hrun]
    -- A fault that the supply averts ends the comparison; any other is made by both.
    rcases hm with haverts | hsame
    · exact .inl haverts
    · exact .inr (bind_error hsame)

/-! ## Elementary actions -/

/-- A push lacks nothing but cells. -/
theorem lifts_push (v : Int64) : Lifts s (push v) := by
  intro m
  by_cases h : m.stack.size < m.stack.capacity
  · have h' : (m.supply s).stack.size < (m.supply s).stack.capacity := by
      show m.stack.size < (m.stack.extend s.cells).capacity
      rw [Stack.capacity_extend]
      omega
    rw [push_of_lt v h, push_of_lt v h']
    have hpush := Stack.push_extend m.stack s.cells v h h'
    exact congrArg (fun stack => EStateM.Result.ok () ((m.supply s).withStack stack)) hpush
  · rw [push_of_full v (Nat.not_lt.1 h)]
    by_cases hcells : s.cells = 0
    · -- Without further cells the capacity, which the fault mentions, is the same.
      right
      have hsame := m.supply_stack hcells
      rw [push_of_full v (by rw [hsame]; exact Nat.not_lt.1 h), hsame]
      rfl
    · exact .inl hcells

/-- A pop lacks nothing that is supplied. -/
theorem lifts_pop : Lifts s pop := by
  intro m
  by_cases h : 0 < m.stack.size
  · have h' : 0 < (m.supply s).stack.size := h
    rw [pop_of_pos h, pop_of_pos h']
    have htop : (m.supply s).stack.top h' = m.stack.top h := Stack.top_extend m.stack s.cells h
    have hpop := Stack.pop_extend m.stack s.cells h
    rw [htop]
    exact congrArg (fun stack => EStateM.Result.ok _ ((m.supply s).withStack stack)) hpop
  · have hempty : m.stack.size = 0 := by omega
    rw [pop_of_empty hempty]
    exact .inr (pop_of_empty (m := m.supply s) hempty)

/-- A fetch lacks nothing but code. -/
theorem lifts_fetch : Lifts s fetch := by
  intro m
  cases hw : m.word? m.pc with
  | some w =>
    rw [fetch_of_some hw]
    exact fetch_of_some (Machine.word?_supply s hw)
  | none =>
    rw [fetch_of_none hw]
    by_cases hcode : s.code = #[]
    · -- Without further code its length, which the fault mentions, is the same.
      right
      have hsame := m.supply_code hcode
      have hw' : (m.supply s).word? (m.supply s).pc = none := by
        unfold Machine.word? at hw ⊢
        rw [hsame]
        exact hw
      rw [fetch_of_none hw', hsame]
      rfl
    · exact .inl hcode

/-- A jump lacks nothing but code. -/
theorem lifts_jump (target : Int64) : Lifts s (jump target) := by
  intro m
  by_cases h : m.Inside target.toInt
  · rw [jump_of_inside h]
    exact jump_of_inside (Machine.inside_supply s h)
  · rw [jump_of_outside h]
    by_cases hcode : s.code = #[]
    · right
      have hsame := m.supply_code hcode
      have h' : ¬ (m.supply s).Inside target.toInt := by
        unfold Machine.Inside
        rw [hsame]
        exact h
      rw [jump_of_outside h', hsame]
      rfl
    · exact .inl hcode

/-- A read of a local lacks nothing but locals. -/
theorem lifts_readLocal (index : Int64) : Lifts s (readLocal index) := by
  intro m
  by_cases h : 0 ≤ index.toInt ∧ index.toInt < m.locals.size
  · have hlt : index.toInt.toNat < m.locals.size := by omega
    have hsome := Array.getElem?_eq_getElem hlt
    rw [readLocal_of_some h.1 hsome]
    refine readLocal_of_some (m := m.supply s) h.1 ?_
    show (m.locals ++ Array.replicate s.locals 0)[index.toInt.toNat]? = _
    rw [Array.getElem?_append_left hlt, hsome]
  · rw [readLocal_of_outside h]
    -- The fault mentions how many locals there are, which is the same if none are supplied.
    by_cases hlocals : s.locals = 0
    · right
      have hsame := m.supply_locals hlocals
      rw [readLocal_of_outside (by rw [hsame]; exact h), hsame]
      rfl
    · exact .inl hlocals

/-- A write of a local lacks nothing but locals. -/
theorem lifts_writeLocal (index v : Int64) : Lifts s (writeLocal index v) := by
  intro m
  by_cases h : 0 ≤ index.toInt ∧ index.toInt < m.locals.size
  · have hlt : index.toInt.toNat < m.locals.size := by omega
    have h' : 0 ≤ index.toInt ∧ index.toInt < (m.supply s).locals.size := by
      refine ⟨h.1, ?_⟩
      show index.toInt < (m.locals ++ Array.replicate s.locals 0).size
      rw [Array.size_append]
      omega
    rw [writeLocal_of_inside v h, writeLocal_of_inside v h']
    have hset : (m.locals ++ Array.replicate s.locals 0).set index.toInt.toNat v
        (by rw [Array.size_append]; omega) =
        m.locals.set index.toInt.toNat v hlt ++ Array.replicate s.locals 0 :=
      Array.set_append_left hlt
    exact congrArg (fun locals => EStateM.Result.ok () ((m.supply s).withLocals locals)) hset
  · rw [writeLocal_of_outside v h]
    by_cases hlocals : s.locals = 0
    · right
      have hsame := m.supply_locals hlocals
      rw [writeLocal_of_outside v (by rw [hsame]; exact h), hsame]
      rfl
    · exact .inl hlocals

/-- A read relative to the frame pointer lacks nothing that is supplied. -/
theorem lifts_readRelative (offset : Int64) : Lifts s (readRelative offset) := by
  intro m
  -- Slots are found by the frame pointer and the size of the stack, and both are the same.
  have hslot : (m.supply s).slot? offset = m.slot? offset := rfl
  unfold readRelative
  rw [hslot]
  cases m.slot? offset with
  | some i =>
    exact congrArg (fun v => EStateM.Result.ok v (m.supply s))
      (Stack.get_extend m.stack s.cells i i.isLt)
  | none => exact .inr rfl

/-- A write relative to the frame pointer lacks nothing that is supplied. -/
theorem lifts_writeRelative (offset v : Int64) : Lifts s (writeRelative offset v) := by
  intro m
  have hslot : (m.supply s).slot? offset = m.slot? offset := rfl
  unfold writeRelative
  rw [hslot]
  cases m.slot? offset with
  | some i =>
    exact congrArg (fun stack => EStateM.Result.ok () ((m.supply s).withStack stack))
      (Stack.set_extend m.stack s.cells i v i.isLt)
  | none => exact .inr rfl

/-- Printing lacks nothing but room in the sink. -/
theorem lifts_print (v : Int64) : Lifts s (print v) := by
  intro m
  cases hendless : s.endless with
  | true =>
    -- The sink of the supplied machine takes everything, so there is no fault to compare.
    have hout : (m.supply s).out = m.out.unlimited := if_pos hendless
    have hroom : (m.supply s).out.isFull = false := by
      rw [hout]
      rfl
    cases h : m.out.isFull with
    | true =>
      rw [print_of_full v h]
      exact .inl hendless
    | false =>
      rw [print_of_room v h, print_of_room v hroom, hout]
      unfold Machine.supply
      simp [hendless, Sink.unlimited, Sink.write]
  | false =>
    have hout : (m.supply s).out = m.out := if_neg (by rw [hendless]; decide)
    cases h : m.out.isFull with
    | true =>
      rw [print_of_full v h, print_of_full v (by rw [hout]; exact h), hout]
      exact .inr rfl
    | false =>
      rw [print_of_room v h, print_of_room v (by rw [hout]; exact h), hout]
      unfold Machine.supply
      simp [hendless]

/-- Truncating the stack lacks nothing. -/
theorem lifts_truncate (n : Nat) :
    Lifts s (modify fun m => { m with stack := m.stack.truncate n }) :=
  lifts_modify fun m => congrArg (m.supply s).withStack (Stack.truncate_extend m.stack s.cells n)

/-! ## Instructions -/

/-- An instruction that replaces two words lacks what its operation lacks. -/
theorem lifts_binary {f : Int64 → Int64 → Action Int64} (hf : ∀ a b, Lifts s (f a b)) :
    Lifts s (binary f) := by
  unfold binary
  exact lifts_pop.bind fun b => lifts_pop.bind fun a => (hf a b).bind lifts_push

/-- A division lacks nothing that is supplied. -/
theorem lifts_divide (a b : Int64) : Lifts s (divide a b) := by
  unfold divide
  split
  · exact lifts_fail _
  · exact lifts_pure _

/-- A conditional jump lacks nothing but code. -/
theorem lifts_branch (taken : Bool) : Lifts s (branch taken) := by
  unfold branch
  refine lifts_fetch.bind fun target => lifts_pop.bind fun condition => ?_
  split
  · exact lifts_jump target
  · exact lifts_pure _

/-- A call lacks nothing but code and cells. -/
theorem lifts_call : Lifts s call := by
  unfold call
  refine lifts_fetch.bind fun target => lifts_fetch.bind fun argc => ?_
  -- All that is read from here on are registers and the size of the stack.
  refine lifts_get (fun _ => rfl) fun m₀ => ?_
  dsimp only
  split
  · exact lifts_fail _
  refine (lifts_push argc).bind fun _ => ?_
  refine lifts_get (fun _ => rfl) fun m₁ => (lifts_push _).bind fun _ => ?_
  refine lifts_get (fun _ => rfl) fun m₂ => (lifts_push _).bind fun _ => ?_
  exact (lifts_modify fun _ => rfl).bind fun _ => lifts_jump target

/-- A return lacks nothing but code. -/
theorem lifts_ret : Lifts s ret := by
  unfold ret
  refine lifts_get (fun _ => rfl) fun m₀ => ?_
  split
  · exact lifts_fail _
  refine lifts_pop.bind fun value => ?_
  refine lifts_get (fun _ => rfl) fun m₁ => lifts_get (fun _ => rfl) fun m₂ => ?_
  dsimp only
  split
  · exact lifts_fail _
  refine (lifts_truncate _).bind fun _ => ?_
  refine lifts_pop.bind fun returnPc => lifts_pop.bind fun savedFp => lifts_pop.bind fun argc => ?_
  refine lifts_get (fun _ => rfl) fun m₃ => ?_
  split
  · exact lifts_fail _
  refine (lifts_truncate _).bind fun _ => ?_
  split
  · exact lifts_fail _
  refine (lifts_modify fun _ => rfl).bind fun _ => ?_
  exact (lifts_jump returnPc).bind fun _ => lifts_push value

/-- No instruction notices a supply until it falls short of what is supplied. -/
theorem lifts_execute (op : Opcode) : Lifts s (execute op) := by
  have last : ∀ {a : Action Unit}, Lifts s a → Lifts s (a >>= fun _ => pure false) :=
    fun ha => ha.bind fun _ => lifts_pure false
  cases op with
  | add => exact last (lifts_binary fun _ _ => lifts_pure _)
  | sub => exact last (lifts_binary fun _ _ => lifts_pure _)
  | mul => exact last (lifts_binary fun _ _ => lifts_pure _)
  | div => exact last (lifts_binary lifts_divide)
  | lt => exact last (lifts_binary fun _ _ => lifts_pure _)
  | gt => exact last (lifts_binary fun _ _ => lifts_pure _)
  | eq => exact last (lifts_binary fun _ _ => lifts_pure _)
  | jmp => exact lifts_fetch.bind fun target => last (lifts_jump target)
  | jmpt => exact last (lifts_branch true)
  | jmpf => exact last (lifts_branch false)
  | const => exact lifts_fetch.bind fun v => last (lifts_push v)
  | load =>
    exact lifts_fetch.bind fun offset =>
      (lifts_readRelative offset).bind fun v => last (lifts_push v)
  | store =>
    exact lifts_fetch.bind fun offset => lifts_pop.bind fun v => last (lifts_writeRelative offset v)
  | gload =>
    exact lifts_pop.bind fun index => (lifts_readLocal index).bind fun v => last (lifts_push v)
  | gstore =>
    exact lifts_pop.bind fun v => lifts_fetch.bind fun index => last (lifts_writeLocal index v)
  | print => exact lifts_pop.bind fun v => last (lifts_print v)
  | pop => exact lifts_pop.bind fun _ => lifts_pure false
  | halt => exact lifts_pure true
  | call => exact last lifts_call
  | ret => exact last lifts_ret

/-- Nor does the whole dispatch of one. -/
theorem lifts_dispatch : Lifts s dispatch := by
  unfold dispatch
  refine (lifts_modify fun _ => rfl).bind fun _ => lifts_fetch.bind fun word => ?_
  refine (lifts_modify fun _ => rfl).bind fun _ => ?_
  cases Opcode.ofWord? word with
  | some op => exact lifts_execute op
  | none => exact lifts_fail _

end Action

/-! ## Steps -/

namespace Machine

variable {m : Machine} {s : Supply} {j k : Nat}

/-- The machine has faulted for want of what is supplied. -/
def FellShort (s : Supply) (m : Machine) : Prop :=
  ∃ fault, m.status = .faulted fault ∧ s.Averts fault.kind

/-- A machine with a supply has a step left if the budget of the supply has. -/
theorem isSpent_supply (hleft : ∀ limit, s.budget = some limit → m.steps < limit) :
    (m.supply s).isSpent = false := by
  cases hbudget : s.budget with
  | none => exact isSpent_of_unlimited hbudget
  | some limit =>
    have hspent : (m.supply s).isSpent = decide (limit ≤ m.steps) := by
      unfold isSpent
      rw [show (m.supply s).budget = some limit from hbudget]
      rfl
    rw [hspent]
    exact decide_eq_false (Nat.not_le.2 (hleft limit hbudget))

/-- With the machine's own budget it has a step left exactly if the machine has. -/
theorem isSpent_supply_of_budget (hbudget : s.budget = m.budget) :
    (m.supply s).isSpent = m.isSpent := by
  unfold isSpent
  rw [← hbudget]
  rfl

/-- A machine that has stopped makes no step with a supply either. -/
theorem step_supply_of_stopped (h : m.status ≠ .running) :
    (m.supply s).step = m.step.supply s := by
  rw [step_of_stopped h]
  exact step_of_stopped (m := m.supply s) h

/-- If both machines have a step left, they make the same step, unless the one without the supply
falls short in it. -/
theorem step_supply (hready : m.Ready) (hunspent : (m.supply s).isSpent = false) :
    FellShort s m.step ∨ (m.supply s).step = m.step.supply s := by
  have hready' : (m.supply s).Ready := ⟨hready.running, hunspent⟩
  have hlifts := Action.lifts_dispatch (s := s) m
  rw [step_of_ready hready, step_of_ready hready']
  unfold step.advance
  cases hrun : Action.dispatch m with
  | ok halted left =>
    -- All that is done after a dispatch is to count it and to set the run state.
    rw [hrun] at hlifts
    right
    rw [hlifts]
    cases halted with
    | true => rfl
    | false => rfl
  | error fault left =>
    rw [hrun] at hlifts
    rcases hlifts with haverts | hsame
    · exact .inl ⟨fault, rfl, haverts⟩
    · right
      rw [hsame]
      rfl

/-- With the machine's own budget they make the same step in any case, unless the one without the
supply falls short in it. -/
theorem step_supply_of_budget (hbudget : s.budget = m.budget) :
    FellShort s m.step ∨ (m.supply s).step = m.step.supply s := by
  by_cases hrun : m.status = .running
  · have hsame := isSpent_supply_of_budget hbudget
    cases hspent : m.isSpent with
    | true =>
      -- Both have spent it, and both faults mention the same limit.
      obtain ⟨limit, hlimit, hstep⟩ := step_of_spent hrun hspent
      obtain ⟨limit', hlimit', hstep'⟩ :=
        step_of_spent (m := m.supply s) hrun (by rw [hsame]; exact hspent)
      have heq : limit' = limit := by
        have hsome : some limit' = some limit := hlimit'.symm.trans (hbudget.trans hlimit)
        exact Option.some.inj hsome
      right
      rw [hstep, hstep', heq]
      rfl
    | false => exact step_supply ⟨hrun, hspent⟩ (by rw [hsame]; exact hspent)
  · exact .inr (step_supply_of_stopped hrun)

/-- Machines that make the same steps are the same after any number of them. -/
theorem iterate_supply
    (h : ∀ j < k, ((step^[j] m).supply s).step = (step^[j + 1] m).supply s) :
    step^[k] (m.supply s) = (step^[k] m).supply s := by
  -- What the two machines differ in after `k` steps is the supply, and the next step keeps it so.
  induction k with
  | zero => rfl
  | succ k ih =>
    rw [Function.iterate_succ_apply', ih fun j hj => h j (Nat.lt_succ_of_lt hj)]
    exact h k (Nat.lt_succ_self k)

/-- A machine that has not fallen short after `k` steps had not before. -/
theorem not_fellShort_of_iterate (h : ¬ FellShort s (step^[k] m)) (hjk : j ≤ k) :
    ¬ FellShort s (step^[j] m) := by
  rintro ⟨fault, hfault, haverts⟩
  exact h ⟨fault, faulted_iterate hfault hjk, haverts⟩

/-- With the machine's own budget the two are the same after any number of steps, unless the one
without the supply has fallen short by then. -/
theorem iterate_supply_of_budget (hbudget : s.budget = m.budget)
    (hshort : ¬ FellShort s (step^[k] m)) : step^[k] (m.supply s) = (step^[k] m).supply s := by
  refine iterate_supply fun j hj => ?_
  -- A fault stays, so a machine that has not fallen short in the end never has.
  have hshort' := not_fellShort_of_iterate hshort (Nat.succ_le_of_lt hj)
  have hbudget' : s.budget = (step^[j] m).budget := by
    rw [hbudget, budget_iterate]
  rw [Function.iterate_succ_apply'] at hshort' ⊢
  exact (step_supply_of_budget hbudget').resolve_left hshort'

/-! ## Traces and runs -/

/-- Without further code the next instruction is the same. -/
theorem event?_supply (hcode : s.code = #[]) (hspent : (m.supply s).isSpent = m.isSpent) :
    (m.supply s).event? = m.event? := by
  have hsame := m.supply_code hcode
  unfold event?
  rw [hsame, hspent]
  rfl

/-- With the machine's own code and budget the same instructions are dispatched, up to and including
the one in which the machine without the supply falls short. -/
theorem trace_supply_of_budget (hcode : s.code = #[]) (hbudget : s.budget = m.budget)
    (hshort : ∀ j < k, ¬ FellShort s (step^[j] m)) : (m.supply s).trace k = m.trace k := by
  refine trace_congr fun j hj => ?_
  rw [iterate_supply_of_budget hbudget (hshort j hj)]
  refine event?_supply hcode (isSpent_supply_of_budget ?_)
  rw [hbudget, budget_iterate]

end Machine

/-- A run that does not fall short answers the same with the supply. -/
theorem Answers.run_supply {m m' : Machine} {s : Supply} {reply : Reply}
    (h : Answers .run m reply m') (hcode : s.code = #[]) (hbudget : s.budget = m.budget)
    (hshort : ¬ Machine.FellShort s m') : Answers .run (m.supply s) reply (m'.supply s) := by
  obtain ⟨k, hstop, rfl, rfl⟩ := exists_steps_of_run h
  have hsame := Machine.iterate_supply_of_budget hbudget hshort
  have htrace := Machine.trace_supply_of_budget hcode hbudget
    fun j (hj : j < k) => Machine.not_fellShort_of_iterate hshort (Nat.le_of_lt hj)
  rw [answers_run_iff (k := k) (by rw [hsame]; exact hstop), hsame, htrace]
  exact ⟨rfl, rfl⟩

end StackMachine
