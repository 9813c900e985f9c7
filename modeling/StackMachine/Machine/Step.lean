import StackMachine.Machine.Access

/-!
# Execution

One step dispatches one instruction. It either changes the machine as the instruction says, halts
it, or faults it; a machine that has halted or faulted stays as it is. A faulting instruction keeps
what it did before the check that failed.

This is the dispatch loop of §4.2 of the specification. `Action.execute` is its table of opcodes,
`Machine.step` its `Step` and `Machine.run` its `Run`, for which a number of instructions is given;
`Machine.runTraced` calls the tracer of §4.3 before each of them.
-/

namespace StackMachine

namespace Action

/-- The word of a truth value. -/
def flag (b : Bool) : Int64 :=
  if b then 1 else 0

/-- An instruction that replaces the two topmost words, the second operand being on top. -/
def binary (f : Int64 → Int64 → Action Int64) : Action Unit := do
  let b ← pop
  let a ← pop
  let v ← f a b
  push v

/-- An instruction that replaces the two topmost words by whether they are in a relation. -/
def compare (r : Int64 → Int64 → Bool) : Action Unit :=
  binary fun a b => pure (flag (r a b))

/-- Division toward zero. The quotient of the least word by `-1` wraps to the least word. -/
def divide (a b : Int64) : Action Int64 :=
  if b = 0 then fail (.zeroDivisor a) else pure (a / b)

/-- A jump that is taken when the topmost word is zero (`taken = false`) or not (`taken = true`). -/
def branch (taken : Bool) : Action Unit := do
  let target ← fetch
  let condition ← pop
  if (condition != 0) == taken then jump target else pure ()

/-- Links a new frame: pushes the argument count, the caller's frame pointer and the return address,
lets the frame pointer point at the last, and jumps. The arguments stay where they are. -/
def call : Action Unit := do
  let target ← fetch
  let argc ← fetch
  let held := (← get).stack.size
  if argc.toInt < 0 ∨ (held : Int) < argc.toInt then
    fail (.callArguments argc held)
  else
    push argc
    push (Int64.ofNat (← get).fp)
    push (Int64.ofInt (← get).pc)
    modify fun m => { m with fp := m.stack.size - 1, depth := m.depth + 1 }
    jump target

/-- Unlinks the current frame and drops its arguments, leaving only the returned value. -/
def ret : Action Unit := do
  if (← get).depth = 0 then
    fail .noFrame
  else
    let value ← pop
    let fp := (← get).fp
    let held := (← get).stack.size
    if held ≤ fp then
      fail (.frameAboveTop fp (held - 1))
    else
      -- The frame is in the slots from `fp - 2` to `fp`; what the callee left above them goes.
      modify fun m => { m with stack := m.stack.truncate (fp + 1) }
      let returnPc ← pop
      let savedFp ← pop
      let argc ← pop
      let held := (← get).stack.size
      -- A program can write to the slots of a frame, so nothing in them is taken on trust.
      if argc.toInt < 0 ∨ (held : Int) < argc.toInt then
        fail (.frameArguments argc held)
      else
        modify fun m => { m with stack := m.stack.truncate (held - argc.toInt.toNat) }
        if savedFp.toInt < 0 ∨ 0x80000000 ≤ savedFp.toInt then
          fail (.savedFrame savedFp)
        else
          modify fun m => { m with fp := savedFp.toInt.toNat, depth := m.depth - 1 }
          jump returnPc
          push value

/-- What an opcode does, and whether the machine halts on it. -/
def execute : Opcode → Action Bool
  | .add => do binary fun a b => pure (a + b); pure false
  | .sub => do binary fun a b => pure (a - b); pure false
  | .mul => do binary fun a b => pure (a * b); pure false
  | .div => do binary divide; pure false
  | .lt => do compare fun a b => a < b; pure false
  | .gt => do compare fun a b => b < a; pure false
  | .eq => do compare fun a b => a == b; pure false
  | .jmp => do
    let target ← fetch
    jump target
    pure false
  | .jmpt => do branch true; pure false
  | .jmpf => do branch false; pure false
  | .const => do
    let v ← fetch
    push v
    pure false
  | .load => do
    let offset ← fetch
    let v ← readRelative offset
    push v
    pure false
  | .store => do
    let offset ← fetch
    let v ← pop
    writeRelative offset v
    pure false
  -- The slot's index comes off the stack here, but out of the code in `gstore`.
  | .gload => do
    let index ← pop
    let v ← readLocal index
    push v
    pure false
  | .gstore => do
    let v ← pop
    let index ← fetch
    writeLocal index v
    pure false
  | .print => do
    let v ← pop
    print v
    pure false
  | .pop => do
    let _ ← pop
    pure false
  | .halt => pure true
  | .call => do call; pure false
  | .ret => do ret; pure false

/-- Fetches the opcode at the program counter and executes it. -/
def dispatch : Action Bool := do
  -- Where the fetch itself fails, the fault has the address and no opcode.
  modify fun m => { m with site := ⟨m.pc, 0⟩ }
  let word ← fetch
  modify fun m => { m with site := ⟨m.site.pc, word⟩ }
  match Opcode.ofWord? word with
  | some op => execute op
  | none => fail (.noOpcode word)

end Action

namespace Machine

/-- Dispatches one instruction, unless the machine has stopped. An instruction counts as a step even
if it faults, but finding the budget spent does not. -/
def step (m : Machine) : Machine :=
  match m.status with
  | .running =>
    match m.budget with
    | some limit =>
      if limit ≤ m.steps then
        -- Nothing has been fetched yet, so the fault has no opcode to name.
        let site : Site := ⟨m.pc, 0⟩
        { m with site, status := .faulted { site with reason := .budget limit } }
      else
        advance m
    | none => advance m
  | _ => m
where
  /-- Dispatches one instruction and records how it ended. -/
  advance (m : Machine) : Machine :=
    match Action.dispatch m with
    | .ok true m => { m with steps := m.steps + 1, status := .halted }
    | .ok false m => { m with steps := m.steps + 1 }
    | .error fault m => { m with steps := m.steps + 1, status := .faulted fault }

/-- Steps until the machine stops, at most `fuel` times. -/
def run : Nat → Machine → Machine
  | 0, m => m
  | fuel + 1, m =>
    match m.status with
    | .running => run fuel m.step
    | _ => m

/-- An instruction about to be dispatched, with the state it meets. -/
structure Event where
  /-- How many instructions were dispatched before. -/
  step : Nat
  instruction : Instruction
  sp : Int
  fp : Nat
  depth : Nat
  deriving DecidableEq, Repr

/-- The instruction that the next step dispatches, if it dispatches one. -/
def event? (m : Machine) : Option Event :=
  match m.status with
  | .running =>
    if m.isSpent ∨ m.pc < 0 then none
    else
      (Instruction.read? m.code m.pc.toNat).map fun instruction =>
        { step := m.steps, instruction, sp := m.sp, fp := m.fp, depth := m.depth }
  | _ => none

/-- One step together with the instruction it dispatches. -/
def stepTraced (m : Machine) (events : Array Event) : Machine × Array Event :=
  let events := match m.event? with
    | some event => events.push event
    | none => events
  (m.step, events)

/-- Steps as `run` does and collects the instructions that are dispatched. -/
def runTraced : Nat → Machine → Array Event → Machine × Array Event
  | 0, m, events => (m, events)
  | fuel + 1, m, events =>
    match m.status with
    | .running =>
      let (m, events) := m.stepTraced events
      runTraced fuel m events
    | _ => (m, events)

end Machine

end StackMachine
