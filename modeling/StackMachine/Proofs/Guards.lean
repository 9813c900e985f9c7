import StackMachine.Proofs.Addressing

/-!
# Checks that cannot fail

The machine works on its stack by operations that take a proof that they apply. Without such proofs
the stack checks every operation itself, and its errors have to be dealt with: most of them become
faults, but some cannot arise where the operation is used. `Guarded` is the machine written that
way. It works on the stack by the operations that check, makes faults of their errors as the
instructions say, and reports a *breach* where an error was not to be expected. There are ten such
places (`Guard`).

The guarded machine does what the machine does, instruction by instruction, and never reports a
breach. Nothing is asked of the machine for that: that the frame pointer is not negative and that no
more slots are occupied than there are belong to every machine, whatever a program has written over
its frames.
-/

namespace StackMachine

/-- The places where an error is not to be expected. -/
inductive Guard where
  /-- Reading the slot that an offset was resolved to. -/
  | readSlot
  /-- Writing the slot that an offset was resolved to. -/
  | writeSlot
  /-- Rewinding the stack to the frame pointer on a return that found it on the stack. -/
  | rewind
  /-- Taking the return address off the rewound stack. -/
  | returnAddress
  /-- Discarding as many arguments as the frame was found to have. -/
  | discard
  /-- Pushing the returned value. -/
  | returnValue
  /-- Pushing the result of an instruction that took two operands. -/
  | result
  /-- Pushing the local whose index was popped. -/
  | loaded
  /-- Evaluating an opcode that was dispatched as one with two operands. -/
  | binary
  /-- Recording an error, which has to be a fault. -/
  | record
  deriving DecidableEq, Repr

/-- What can go wrong on a guarded machine. -/
inductive Alarm where
  /-- A fault, in which a machine may end. -/
  | fault (fault : Fault)
  /-- An error of the stack that no fault was made of. -/
  | stack (error : Stack.Error)
  /-- A complaint of the sink that no fault was made of. -/
  | sink (complaint : String)
  /-- An error where none was to be expected. -/
  | breach (guard : Guard)
  deriving DecidableEq, Repr

/-- An action on a machine that checks every operation on the stack and the sink. -/
abbrev Guarded := EStateM Alarm Machine

namespace Guarded

variable {α β : Type}

/-! ## Actions -/

/-- An action that makes its own checks. -/
def lift (a : Action α) : Guarded α := fun m =>
  match a m with
  | .ok x m' => .ok x m'
  | .error fault m' => .error (.fault fault) m'

/-- Fails at the current site. -/
def fail (reason : Reason) : Guarded α :=
  lift (Action.fail reason)

/-- An operation on the stack. Its error is passed on as it is. -/
def onStack (f : Stack → Except Stack.Error (α × Stack)) : Guarded α := fun m =>
  match f m.stack with
  | .ok (x, s) => .ok x { m with stack := s }
  | .error e => .error (.stack e) m

/-- A write to the sink. Its complaint is passed on as it is. -/
def onSink (v : Int64) : Guarded Unit := fun m =>
  if m.out.isFull then .error (.sink m.out.complaint) m else .ok () { m with out := m.out.write v }

/-- Makes a fault of any error. -/
def faulting (reason : Machine → Reason) (a : Guarded α) : Guarded α := fun m =>
  match a m with
  | .ok x m' => .ok x m'
  | .error _ m' => fail (reason m') m'

/-- Makes a breach of any error. -/
def expect (guard : Guard) (a : Guarded α) : Guarded α := fun m =>
  match a m with
  | .ok x m' => .ok x m'
  | .error _ m' => .error (.breach guard) m'

/-- Places `v` on top of the stack. -/
def push (v : Int64) : Guarded Unit :=
  faulting (fun m => .full m.stack.capacity) (onStack fun s => (s.push? v).map fun s => ((), s))

/-- Takes the topmost word off the stack. -/
def pop : Guarded Int64 :=
  faulting (fun _ => .empty) (onStack fun s => s.pop?)

/-- Gives up every word above the first `n`. -/
def truncate (n : Int) : Guarded Unit :=
  onStack fun s => (s.truncate? n).map fun s => ((), s)

/-- The index of the slot at an offset from the frame pointer, if the slot is occupied. -/
def resolve (offset : Int64) : Guarded Int := fun m =>
  let index := (Int64.ofNat m.fp + offset).toInt
  if 0x80000000 ≤ offset.toInt ∨ offset.toInt < -0x80000000 ∨ index < 0 ∨ m.sp < index then
    fail (.frameOffset m.fp offset m.sp) m
  else
    .ok index m

/-- Reads the stack slot at an offset from the frame pointer. -/
def readRelative (offset : Int64) : Guarded Int64 := do
  let index ← resolve offset
  expect .readSlot (onStack fun s => (s.get? index).map fun v => (v, s))

/-- Writes the stack slot at an offset from the frame pointer. -/
def writeRelative (offset v : Int64) : Guarded Unit := do
  let index ← resolve offset
  expect .writeSlot (onStack fun s => (s.set? index v).map fun s => ((), s))

/-- Hands a value to the sink. -/
def print (v : Int64) : Guarded Unit :=
  faulting (fun m => .refused v m.out.complaint) (onSink v)

/-! ## Instructions -/

/-- Applies an opcode with two operands. -/
def eval (op : Opcode) (a b : Int64) : Guarded Int64 :=
  match op with
  | .add => pure (a + b)
  | .sub => pure (a - b)
  | .mul => pure (a * b)
  | .div => if b = 0 then fail (.zeroDivisor a) else pure (a / b)
  | .lt => pure (Action.flag (a < b))
  | .gt => pure (Action.flag (b < a))
  | .eq => pure (Action.flag (a == b))
  | _ => throw (.breach .binary)

/-- Replaces the two topmost words by what the opcode makes of them. -/
def binary (op : Opcode) : Guarded Unit := do
  let b ← pop
  let a ← pop
  let v ← eval op a b
  expect .result (push v)

/-- A jump that is taken when the topmost word is zero (`taken = false`) or not (`taken = true`). -/
def branch (taken : Bool) : Guarded Unit := do
  let target ← lift Action.fetch
  let condition ← pop
  if (condition != 0) == taken then lift (Action.jump target) else pure ()

/-- Links a new frame and jumps. -/
def call : Guarded Unit := do
  let target ← lift Action.fetch
  let argc ← lift Action.fetch
  let held := (← get).stack.size
  if argc.toInt < 0 ∨ (held : Int) < argc.toInt then
    fail (.callArguments argc held)
  else
    push argc
    push (Int64.ofNat (← get).fp)
    push (Int64.ofInt (← get).pc)
    modify fun m => { m with fp := m.stack.size - 1, depth := m.depth + 1 }
    lift (Action.jump target)

/-- Unlinks the current frame and drops its arguments, leaving only the returned value. -/
def ret : Guarded Unit := do
  if (← get).depth = 0 then
    fail .noFrame
  else
    let value ← pop
    let fp := (← get).fp
    let held := (← get).stack.size
    if held ≤ fp then
      fail (.frameAboveTop fp (held - 1))
    else
      expect .rewind (truncate (fp + 1))
      let returnPc ← expect .returnAddress pop
      let savedFp ← pop
      let argc ← pop
      let held := (← get).stack.size
      if argc.toInt < 0 ∨ (held : Int) < argc.toInt then
        fail (.frameArguments argc held)
      else
        expect .discard (truncate (held - argc.toInt))
        if savedFp.toInt < 0 ∨ 0x80000000 ≤ savedFp.toInt then
          fail (.savedFrame savedFp)
        else
          modify fun m => { m with fp := savedFp.toInt.toNat, depth := m.depth - 1 }
          lift (Action.jump returnPc)
          expect .returnValue (push value)

/-- What an opcode does, and whether the machine halts on it. -/
def execute (op : Opcode) : Guarded Bool :=
  match op with
  | .add | .sub | .mul | .div | .lt | .gt | .eq => do binary op; pure false
  | .jmp => do
    let target ← lift Action.fetch
    lift (Action.jump target)
    pure false
  | .jmpt => do branch true; pure false
  | .jmpf => do branch false; pure false
  | .const => do
    let v ← lift Action.fetch
    push v
    pure false
  | .load => do
    let offset ← lift Action.fetch
    let v ← readRelative offset
    push v
    pure false
  | .store => do
    let offset ← lift Action.fetch
    let v ← pop
    writeRelative offset v
    pure false
  | .gload => do
    let index ← pop
    let v ← lift (Action.readLocal index)
    expect .loaded (push v)
    pure false
  | .gstore => do
    let v ← pop
    let index ← lift Action.fetch
    lift (Action.writeLocal index v)
    pure false
  | .print => do
    let v ← pop
    print v
    pure false
  | .pop => do
    let _ ← pop
    pure false
  | .halt => pure true
  | .call => do call; pure false
  | .ret => do ret; pure false

/-- Fetches the opcode at the program counter and executes it. -/
def dispatch : Guarded Bool := do
  modify fun m => { m with site := ⟨m.pc, 0⟩ }
  let word ← lift Action.fetch
  modify fun m => { m with site := ⟨m.site.pc, word⟩ }
  match Opcode.ofWord? word with
  | some op => execute op
  | none => fail (.noOpcode word)

/-! ## Steps -/

/-- Records the fault that the machine ends in. -/
def record (m : Machine) : Alarm → Except Guard Machine
  | .fault fault => .ok { m with status := .faulted fault }
  | .stack _ => .error .record
  | .sink _ => .error .record
  | .breach guard => .error guard

/-- Dispatches one instruction, unless the machine has stopped. -/
def step (m : Machine) : Except Guard Machine :=
  match m.status with
  | .running =>
    match m.budget with
    | some limit =>
      if limit ≤ m.steps then
        let site : Site := ⟨m.pc, 0⟩
        record { m with site } (.fault { site with reason := .budget limit })
      else
        advance m
    | none => advance m
  | _ => .ok m
where
  /-- Dispatches one instruction and records how it ended. -/
  advance (m : Machine) : Except Guard Machine :=
    match dispatch m with
    | .ok true m => .ok { m with steps := m.steps + 1, status := .halted }
    | .ok false m => .ok { m with steps := m.steps + 1 }
    | .error alarm m => record { m with steps := m.steps + 1 } alarm

/-- Steps until the machine stops, at most `fuel` times. -/
def run : Nat → Machine → Except Guard Machine
  | 0, m => .ok m
  | fuel + 1, m =>
    match m.status with
    | .running => do run fuel (← step m)
    | _ => .ok m

/-- The action behind an access of a host. -/
def access : Access → Guarded (Option Int64)
  | .push v => do push v; pure none
  | .pop => do let v ← pop; pure (some v)
  | .fetch => do let v ← lift Action.fetch; pure (some v)
  | .readLocal index => do let v ← lift (Action.readLocal index); pure (some v)
  | .writeLocal index v => do lift (Action.writeLocal index v); pure none
  | .readRelative offset => do let v ← readRelative offset; pure (some v)
  | .writeRelative offset v => do writeRelative offset v; pure none

/-! ## The guarded machine does what the machine does -/

/-- An action that succeeds hands its value and the machine to the next one. -/
theorem bind_of_ok {a : Guarded α} {f : α → Guarded β} {m m' : Machine} {x : α}
    (h : a m = .ok x m') : (a >>= f) m = f x m' := by
  change EStateM.bind a f m = f x m'
  rw [EStateM.bind, h]

/-- An action that fails is the last one. -/
theorem bind_of_error {a : Guarded α} {f : α → Guarded β} {m m' : Machine} {alarm : Alarm}
    (h : a m = .error alarm m') : (a >>= f) m = .error alarm m' := by
  change EStateM.bind a f m = .error alarm m'
  rw [EStateM.bind, h]

/-- From `m` on, `a'` does what `a` does. Its errors are the faults of `a`, and no breach is among
them. -/
def Follows (a' : Guarded α) (a : Action α) (m : Machine) : Prop :=
  a' m = lift a m

namespace Follows

variable {a' : Guarded α} {a : Action α} {m : Machine}

/-- One action after another. What follows the first starts where that one ends. -/
theorem bind {f' : α → Guarded β} {f : α → Action β} (ha : Follows a' a m)
    (hf : ∀ x m', a m = .ok x m' → Follows (f' x) (f x) m') :
    Follows (a' >>= f') (a >>= f) m := by
  unfold Follows lift at *
  -- Where `a` fails, `a'` fails with its fault, and the actions behind both are left out.
  cases hrun : a m with
  | ok x m' =>
    rw [hrun] at ha
    rw [bind_of_ok ha, Action.bind_ok hrun]
    exact hf x m' hrun
  | error fault m' =>
    rw [hrun] at ha
    rw [bind_of_error ha, Action.bind_error hrun]

/-- Reading the machine first. -/
theorem of_get {f' : Machine → Guarded β} {f : Machine → Action β} (hf : Follows (f' m) (f m) m) :
    Follows (get >>= f') (get >>= f) m :=
  hf

/-- Changing the machine first. -/
theorem of_modify {g : Machine → Machine} {f' : PUnit → Guarded β} {f : PUnit → Action β}
    (hf : Follows (f' ⟨⟩) (f ⟨⟩) (g m)) :
    Follows (modify g >>= f') (modify g >>= f) m :=
  hf

/-- Either of two ways. -/
theorem ite {c : Prop} [Decidable c] {b' : Guarded α} {b : Action α}
    (ha : c → Follows a' a m) (hb : ¬ c → Follows b' b m) :
    Follows (if c then a' else b') (if c then a else b) m := by
  by_cases hc : c
  · rw [if_pos hc, if_pos hc]
    exact ha hc
  · rw [if_neg hc, if_neg hc]
    exact hb hc

/-- A guard around an action that succeeds. -/
theorem expect {guard : Guard} {x : α} {m' : Machine} (h : Follows a' a m) (hok : a m = .ok x m') :
    Follows (Guarded.expect guard a') a m := by
  unfold Follows lift Guarded.expect at *
  rw [h, hok]

end Follows

variable {m m' : Machine} {v : Int64} {guard : Guard}

/-- An action that makes its own checks. -/
theorem follows_lift (a : Action α) (m : Machine) : Follows (lift a) a m :=
  rfl

/-- A value. -/
theorem follows_pure (x : α) (m : Machine) : Follows (pure x) (pure x) m :=
  rfl

/-! ### The stack and the sink -/

section Checked

variable {f : Stack → Except Stack.Error (α × Stack)} {x : α} {s : Stack} {e : Stack.Error}
  {a' : Guarded α} {a : Action α} {alarm : Alarm} {reason : Machine → Reason}

/-- An operation that applies. -/
theorem onStack_of_ok (h : f m.stack = .ok (x, s)) : onStack f m = .ok x (m.withStack s) := by
  unfold onStack
  rw [h]

/-- An operation that does not apply. -/
theorem onStack_of_error (h : f m.stack = .error e) : onStack f m = .error (.stack e) m := by
  unfold onStack
  rw [h]

/-- An action without an error needs no fault. -/
theorem follows_faulting_ok (h : a' m = .ok x m') (ha : a m = .ok x m') :
    Follows (faulting reason a') a m := by
  unfold Follows faulting lift
  rw [h, ha]

/-- The fault made of an error is the one that the action would make. -/
theorem follows_faulting_error (h : a' m = .error alarm m')
    (ha : a m = .error { m'.site with reason := reason m' } m') :
    Follows (faulting reason a') a m := by
  unfold Follows faulting
  rw [h]
  unfold lift
  rw [ha]
  rfl

/-- An operation that applies needs no guard. -/
theorem follows_expect_onStack (h : f m.stack = .ok (x, s)) (ha : a m = .ok x (m.withStack s)) :
    Follows (expect guard (onStack f)) a m := by
  unfold Follows expect lift
  rw [onStack_of_ok h, ha]

end Checked

/-- A push makes the overflow of the stack a fault. -/
theorem follows_push (v : Int64) (m : Machine) : Follows (push v) (Action.push v) m := by
  by_cases h : m.stack.size < m.stack.capacity
  · refine follows_faulting_ok (onStack_of_ok ?_) (Action.push_of_lt v h)
    rw [Stack.push?, dif_pos h]
    rfl
  · refine follows_faulting_error (onStack_of_error (e := .overflow) ?_)
      (Action.push_of_full v (Nat.not_lt.1 h))
    rw [Stack.push?, dif_neg h]
    rfl

/-- A pop makes the underflow of the stack a fault. -/
theorem follows_pop (m : Machine) : Follows pop Action.pop m := by
  by_cases h : 0 < m.stack.size
  · exact follows_faulting_ok (onStack_of_ok (dif_pos h)) (Action.pop_of_pos h)
  · exact follows_faulting_error (onStack_of_error (dif_neg h))
      (Action.pop_of_empty (Nat.eq_zero_of_not_pos h))

/-- Printing makes the complaint of the sink a fault. -/
theorem follows_print (v : Int64) (m : Machine) : Follows (print v) (Action.print v) m := by
  cases h : m.out.isFull with
  | true =>
    exact follows_faulting_error (if_pos h) (Action.print_of_full v h)
  | false =>
    refine follows_faulting_ok (if_neg ?_) (Action.print_of_room v h)
    rw [h]
    decide

/-- A push that has room. -/
theorem follows_expect_push (h : m.stack.size < m.stack.capacity) :
    Follows (expect guard (push v)) (Action.push v) m :=
  (follows_push v m).expect (Action.push_of_lt v h)

/-- A pop that finds a word. -/
theorem follows_expect_pop (h : 0 < m.stack.size) :
    Follows (expect guard pop) Action.pop m :=
  (follows_pop m).expect (Action.pop_of_pos h)

/-- Giving up words of the stack, as long as no more are to be kept than there are. -/
theorem follows_expect_truncate {n : Int} {k : Nat} (hn : n = k) (hk : k ≤ m.stack.size) :
    Follows (expect guard (truncate n)) (modify fun m => { m with stack := m.stack.truncate k })
      m := by
  subst hn
  refine follows_expect_onStack ?_ rfl
  rw [Stack.truncate?, if_neg (by omega), Int.toNat_natCast, if_pos hk]
  rfl

/-! ### Slots relative to the frame pointer -/

section Relative

variable {offset : Int64}

/-- The index of the slot that is found is resolved. -/
theorem resolve_of_some {i : Fin m.stack.size} (h : m.slot? offset = some i) :
    resolve offset m = .ok (i : Nat) m := by
  unfold Machine.slot? at h
  dsimp only at h
  split at h
  next hin =>
    cases h
    have hsp : m.sp = m.stack.size - 1 := rfl
    unfold resolve
    dsimp only
    -- The two conditions are negations of each other, up to the index of the top for the size.
    rw [if_neg (by omega), Int.toNat_of_nonneg (by omega)]
  next => cases h

/-- Where no slot is found, none is resolved. -/
theorem resolve_of_none (h : m.slot? offset = none) :
    resolve offset m =
      .error (.fault { m.site with reason := .frameOffset m.fp offset m.sp }) m := by
  unfold Machine.slot? at h
  dsimp only at h
  split at h
  next => cases h
  next hout =>
    have hsp : m.sp = m.stack.size - 1 := rfl
    unfold resolve
    dsimp only
    rw [if_pos (by omega)]
    rfl

/-- A slot that an offset was resolved to can be read. -/
theorem follows_readRelative (offset : Int64) (m : Machine) :
    Follows (readRelative offset) (Action.readRelative offset) m := by
  cases hslot : m.slot? offset with
  | some i =>
    have hget : m.stack.get? (i : Nat) = .ok (m.stack.get i i.isLt) := by
      rw [Stack.get?, if_neg (by omega), dif_pos (by omega)]
      rfl
    -- The slot that was resolved is occupied, so the second check of its index passes.
    refine (bind_of_ok (resolve_of_some hslot)).trans ?_
    exact follows_expect_onStack (s := m.stack) (by rw [hget]; rfl)
      (Action.relative_of_slot hslot 0).1
  | none =>
    refine (bind_of_error (resolve_of_none hslot)).trans ?_
    unfold lift Action.readRelative
    rw [hslot]
    rfl

/-- A slot that an offset was resolved to can be written. -/
theorem follows_writeRelative (offset v : Int64) (m : Machine) :
    Follows (writeRelative offset v) (Action.writeRelative offset v) m := by
  cases hslot : m.slot? offset with
  | some i =>
    have hset : m.stack.set? (i : Nat) v = .ok (m.stack.set i v i.isLt) := by
      rw [Stack.set?, if_neg (by omega), dif_pos (by omega)]
      rfl
    refine (bind_of_ok (resolve_of_some hslot)).trans ?_
    exact follows_expect_onStack (by rw [hset]; rfl) (Action.relative_of_slot hslot v).2
  | none =>
    refine (bind_of_error (resolve_of_none hslot)).trans ?_
    unfold lift Action.writeRelative
    rw [hslot]
    rfl

end Relative

/-! ### Instructions -/

/-- A pop leaves room for a word. -/
theorem room_of_pop (h : Action.pop m = .ok v m') : m'.stack.size < m'.stack.capacity := by
  by_cases hpos : 0 < m.stack.size
  · rw [Action.pop_of_pos hpos] at h
    cases h
    exact ((Stack.Cut.refl m.stack).pop hpos).size_lt_capacity (by omega)
  · rw [Action.pop_of_empty (Nat.eq_zero_of_not_pos hpos)] at h
    cases h

/-- Reading a local changes nothing. -/
theorem eq_of_readLocal {index : Int64} (h : Action.readLocal index m = .ok v m') : m' = m := by
  unfold Action.readLocal at h
  split at h
  · cases h
    rfl
  · cases h

/-- A jump leaves the stack as it is. -/
theorem stack_of_jump {target : Int64} (h : Action.jump target m = .ok () m') :
    m'.stack = m.stack := by
  unfold Action.jump at h
  split at h
  · cases h
    rfl
  · cases h

/-- An opcode with two operands has room for its result, as it has taken both of them. -/
theorem follows_binary {op : Opcode} {f : Int64 → Int64 → Action Int64}
    (heval : ∀ a b m, Follows (eval op a b) (f a b) m)
    (hquiet : ∀ a b m v m', f a b m = .ok v m' → m' = m) (m : Machine) :
    Follows (binary op) (Action.binary f) m := by
  refine (follows_pop m).bind fun b m₁ _ => (follows_pop m₁).bind fun a m₂ hpop => ?_
  -- The operation leaves the machine alone, so the room that the second pop made is still there.
  refine (heval a b m₂).bind fun v m₃ hv => ?_
  obtain rfl := hquiet a b m₂ v m₃ hv
  exact follows_expect_push (room_of_pop hpop)

/-- A branch. -/
theorem follows_branch (taken : Bool) (m : Machine) :
    Follows (branch taken) (Action.branch taken) m :=
  (follows_lift _ m).bind fun target m₁ _ => (follows_pop m₁).bind fun _ m₂ _ =>
    .ite (fun _ => follows_lift (Action.jump target) m₂) fun _ => follows_pure () m₂

/-- A call. -/
theorem follows_call (m : Machine) : Follows call Action.call m := by
  refine (follows_lift _ m).bind fun target m₁ _ => (follows_lift _ m₁).bind fun argc m₂ _ => ?_
  refine .of_get (.ite (fun _ => follows_lift _ m₂) fun _ => ?_)
  refine (follows_push argc m₂).bind fun _ m₃ _ => .of_get ?_
  refine (follows_push _ m₃).bind fun _ m₄ _ => .of_get ?_
  exact (follows_push _ m₄).bind fun _ m₅ _ => .of_modify (follows_lift _ _)

/-- A return. Its frame pointer is on the stack, so the stack can be rewound to it and the return
address is there. What is on the stack then is less than before the returned value was taken off. -/
theorem follows_ret (m : Machine) : Follows ret Action.ret m := by
  refine .of_get (.ite (fun _ => follows_lift _ m) fun _ => ?_)
  refine (follows_pop m).bind fun value m₁ _ => .of_get (.of_get ?_)
  refine .ite (fun _ => follows_lift _ m₁) fun hfp => ?_
  have hlt : m₁.fp < m₁.stack.size := Nat.not_le.1 hfp
  refine (follows_expect_truncate rfl hlt).bind fun _ m₂ hrewind => ?_
  cases hrewind
  -- At least the slot of the frame pointer itself is kept.
  refine (follows_expect_pop ?_).bind fun returnPc m₃ _ => ?_
  · show 0 < (m₁.stack.truncate (m₁.fp + 1)).size
    rw [((Stack.Cut.refl m₁.stack).truncate hlt).size_eq]
    exact Nat.succ_pos _
  refine (follows_pop m₃).bind fun savedFp m₄ _ => (follows_pop m₄).bind fun argc m₅ hpop => ?_
  refine .of_get (.ite (fun _ => follows_lift _ m₅) fun hargc => ?_)
  refine (follows_expect_truncate ?_ (Nat.sub_le _ _)).bind fun _ m₆ hdiscard => ?_
  · omega
  cases hdiscard
  refine .ite (fun _ => follows_lift _ _) fun _ => .of_modify ?_
  refine (follows_lift _ _).bind fun _ m₇ hjump => follows_expect_push ?_
  -- The last pop left room for a word, and nothing has been pushed since.
  rw [stack_of_jump hjump]
  have hcut := (Stack.Cut.refl m₅.stack).truncate (Nat.sub_le m₅.stack.size argc.toInt.toNat)
  show (m₅.stack.truncate _).size < (m₅.stack.truncate _).capacity
  rw [hcut.size_eq, hcut.capacity_eq]
  exact Nat.lt_of_le_of_lt (Nat.sub_le _ _) (room_of_pop hpop)

/-- An opcode that only computes needs nothing but its operands. -/
theorem follows_computing {op : Opcode} (f : Int64 → Int64 → Int64)
    (heval : ∀ a b, eval op a b = pure (f a b)) (m : Machine) :
    Follows (do binary op; pure false) (do Action.binary fun a b => pure (f a b); pure false)
      m := by
  refine (follows_binary (fun a b m => ?_) (fun a b m v m' hv => ?_) m).bind
    fun _ m' _ => follows_pure false m'
  · rw [heval]
    exact follows_pure (f a b) m
  · cases hv
    rfl

/-- Every instruction. -/
theorem follows_execute (op : Opcode) (m : Machine) :
    Follows (execute op) (Action.execute op) m := by
  cases op with
  | add => exact follows_computing (fun a b => a + b) (fun _ _ => rfl) m
  | sub => exact follows_computing (fun a b => a - b) (fun _ _ => rfl) m
  | mul => exact follows_computing (fun a b => a * b) (fun _ _ => rfl) m
  | div =>
    refine (follows_binary (fun a b m => ?_) (fun a b m v m' hv => ?_) m).bind
      fun _ m' _ => follows_pure false m'
    · exact .ite (fun _ => follows_lift _ m) fun _ => follows_pure (a / b) m
    · unfold Action.divide at hv
      split at hv
      · cases hv
      · cases hv
        rfl
  | lt => exact follows_computing (fun a b => Action.flag (a < b)) (fun _ _ => rfl) m
  | gt => exact follows_computing (fun a b => Action.flag (b < a)) (fun _ _ => rfl) m
  | eq => exact follows_computing (fun a b => Action.flag (a == b)) (fun _ _ => rfl) m
  | jmp =>
    exact (follows_lift _ m).bind fun target m₁ _ => (follows_lift _ m₁).bind fun _ m₂ _ =>
      follows_pure false m₂
  | jmpt => exact (follows_branch true m).bind fun _ m' _ => follows_pure false m'
  | jmpf => exact (follows_branch false m).bind fun _ m' _ => follows_pure false m'
  | const =>
    exact (follows_lift _ m).bind fun v m₁ _ => (follows_push v m₁).bind fun _ m₂ _ =>
      follows_pure false m₂
  | load =>
    exact (follows_lift _ m).bind fun offset m₁ _ =>
      (follows_readRelative offset m₁).bind fun v m₂ _ => (follows_push v m₂).bind fun _ m₃ _ =>
        follows_pure false m₃
  | store =>
    exact (follows_lift _ m).bind fun offset m₁ _ => (follows_pop m₁).bind fun v m₂ _ =>
      (follows_writeRelative offset v m₂).bind fun _ m₃ _ => follows_pure false m₃
  | gload =>
    refine (follows_pop m).bind fun index m₁ hpop => (follows_lift _ m₁).bind fun v m₂ hread => ?_
    -- The index was popped and the read changes nothing, so there is room for the local.
    obtain rfl := eq_of_readLocal hread
    exact (follows_expect_push (room_of_pop hpop)).bind fun _ m₃ _ => follows_pure false m₃
  | gstore =>
    exact (follows_pop m).bind fun v m₁ _ => (follows_lift _ m₁).bind fun index m₂ _ =>
      (follows_lift _ m₂).bind fun _ m₃ _ => follows_pure false m₃
  | print =>
    exact (follows_pop m).bind fun v m₁ _ => (follows_print v m₁).bind fun _ m₂ _ =>
      follows_pure false m₂
  | pop => exact (follows_pop m).bind fun _ m' _ => follows_pure false m'
  | halt => exact follows_pure true m
  | call => exact (follows_call m).bind fun _ m' _ => follows_pure false m'
  | ret => exact (follows_ret m).bind fun _ m' _ => follows_pure false m'

/-- A dispatch. -/
theorem follows_dispatch (m : Machine) : Follows dispatch Action.dispatch m := by
  refine .of_modify ((follows_lift _ _).bind fun word m' _ => .of_modify ?_)
  cases Opcode.ofWord? word with
  | some op => exact follows_execute op _
  | none => exact follows_lift _ _

/-! ### Steps, runs and accesses -/

/-- What is dispatched ends as on the machine, and what is recorded is a fault. -/
theorem advance_eq (m : Machine) : step.advance m = .ok (Machine.step.advance m) := by
  unfold step.advance Machine.step.advance
  -- All that a dispatch raises is a fault, and that is what can be recorded.
  rw [show dispatch m = lift Action.dispatch m from follows_dispatch m, lift]
  cases Action.dispatch m with
  | ok halted m' =>
    cases halted with
    | true => rfl
    | false => rfl
  | error fault m' => rfl

/-- A step is that of the machine. -/
theorem step_eq (m : Machine) : step m = .ok m.step := by
  unfold step Machine.step
  cases m.status with
  | running =>
    cases m.budget with
    | some limit =>
      dsimp only
      by_cases hspent : limit ≤ m.steps
      · rw [if_pos hspent, if_pos hspent]
        rfl
      · rw [if_neg hspent, if_neg hspent, advance_eq]
    | none => exact advance_eq m
  | halted => rfl
  | faulted fault => rfl

/-- A run is that of the machine. -/
theorem run_eq (fuel : Nat) (m : Machine) : run fuel m = .ok (m.run fuel) := by
  -- No step is stopped by a guard, so the run goes on where the machine's does.
  induction fuel generalizing m with
  | zero => rfl
  | succ fuel ih =>
    unfold run Machine.run
    cases m.status with
    | running =>
      dsimp only
      rw [step_eq]
      exact ih m.step
    | halted => rfl
    | faulted fault => rfl

/-- An access is that of the machine. -/
theorem follows_access (a : Access) (m : Machine) : Follows (access a) a.action m := by
  cases a with
  | push v => exact (follows_push v m).bind fun _ m' _ => follows_pure none m'
  | pop => exact (follows_pop m).bind fun v m' _ => follows_pure (some v) m'
  | fetch => exact (follows_lift _ m).bind fun v m' _ => follows_pure (some v) m'
  | readLocal index => exact (follows_lift _ m).bind fun v m' _ => follows_pure (some v) m'
  | writeLocal index v => exact (follows_lift _ m).bind fun _ m' _ => follows_pure none m'
  | readRelative offset =>
    exact (follows_readRelative offset m).bind fun v m' _ => follows_pure (some v) m'
  | writeRelative offset v =>
    exact (follows_writeRelative offset v m).bind fun _ m' _ => follows_pure none m'

end Guarded

/-- On every machine, and so on every machine in use whatever its program has written over its
frames, the guarded machine does what the machine does: in every instruction, from whatever state it
starts, in a step, in a run and in an access of a host. So its errors are faults, and at none of the
places that are guarded does an error arise. -/
theorem guards_never_fail (m : Machine) :
    (∀ op, Guarded.execute op m = Guarded.lift (Action.execute op) m) ∧
    Guarded.step m = .ok m.step ∧
    (∀ fuel, Guarded.run fuel m = .ok (m.run fuel)) ∧
    ∀ a : Access, Guarded.access a m = Guarded.lift a.action m :=
  ⟨fun op => Guarded.follows_execute op m, Guarded.step_eq m, fun fuel => Guarded.run_eq fuel m,
    fun a => Guarded.follows_access a m⟩

-- Where there is an error, the guards do report it.
example : let m := Machine.new #[] 0 0 { stackCapacity := 0 }
    Guarded.eval .halt 1 2 m = .error (.breach .binary) m ∧
    Guarded.expect .result (Guarded.push 1) m = .error (.breach .result) m ∧
    Guarded.expect .rewind (Guarded.truncate (m.fp + 1)) m = .error (.breach .rewind) m ∧
    Guarded.record m (.stack .overflow) = .error .record :=
  ⟨rfl, rfl, rfl, rfl⟩

end StackMachine
