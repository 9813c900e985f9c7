import StackMachine.Machine.Step
import StackMachine.Proofs.Access

/-!
# The instruction table

The table says of each opcode which checks it makes, in order, with the kind of fault that each one
makes when it fails, and what the state is after all have passed. It is stated over the stack as a
list and over exact integers, without reference to how instructions are put together from actions.

`n` in the comments is the number of occupied slots, and slot `n - 1` the topmost.
-/

namespace StackMachine

/-- The part of a machine's state that instructions act on, with the occupied slots of the stack
listed bottom first. -/
@[ext]
structure View where
  stack : List Int64
  locals : List Int64
  pc : Int
  fp : Nat
  depth : Nat
  out : Sink
  deriving DecidableEq, Repr

/-- What instructions see of a machine. -/
def Machine.view (m : Machine) : View where
  stack := m.stack.toList
  locals := m.locals.toList
  pc := m.pc
  fp := m.fp
  depth := m.depth
  out := m.out

/-- A check of an instruction and the kind of fault it makes. -/
structure Check where
  fails : Bool
  kind : FaultKind
  deriving DecidableEq, Repr

/-- What the table says of an instruction on some machine. -/
structure Row where
  /-- The checks, in the order in which they are made. -/
  checks : List Check
  /-- The state after all checks have passed. -/
  effect : View
  /-- Whether the machine halts then. -/
  halts : Bool := false
  deriving DecidableEq, Repr

/-- The kind of the first check that fails, if one does. -/
def Row.fault? (row : Row) : Option FaultKind :=
  (row.checks.find? Check.fails).map Check.kind

namespace Table

variable (m : Machine)

/-! ## Operands and slots -/

/-- The `k`-th word after the opcode, or zero past the end of the code. -/
def operand (k : Nat) : Int64 :=
  (m.word? (m.pc + k)).getD 0

/-- The word in slot `n - 1`. -/
def top : Int64 :=
  m.stack.slot (m.stack.size - 1)

/-- The word in slot `n - 2`. -/
def below : Int64 :=
  m.stack.slot (m.stack.size - 2)

/-- The slot that the operand of a load or a store names, which may lie outside the stack. -/
def address : Int :=
  m.fp + (operand m 1).toInt

/-! ## Checks -/

/-- The code ends before the `k`-th operand. -/
def missing (k : Nat) : Check :=
  ⟨(m.word? (m.pc + k)).isNone, .invalidProgramCounter⟩

/-- The stack holds fewer than `k` words. -/
def fewer (k : Nat) : Check :=
  ⟨m.stack.size < k, .stackUnderflow⟩

/-- The stack has no room for `k` more words. -/
def full (k : Nat) : Check :=
  ⟨m.stack.capacity < m.stack.size + k, .stackOverflow⟩

/-- A target that is outside the code. -/
def outside (target : Int) : Check :=
  ⟨¬ m.Inside target, .invalidProgramCounter⟩

/-- An address that is not one of the first `n` slots. -/
def unoccupied (n : Nat) (address : Int) : Check :=
  ⟨¬ (0 ≤ address ∧ address < n), .invalidStackAddress⟩

/-- An index outside the locals region. -/
def noLocal (index : Int) : Check :=
  ⟨¬ (0 ≤ index ∧ index < m.locals.size), .invalidLocalAddress⟩

/-! ## Rows -/

/-- The state after an instruction of `width` words that takes `k` words off the stack and puts
others in their place. -/
def replace (k : Nat) (words : List Int64) (width : Nat) : View :=
  { m.view with
    stack := m.stack.toList.take (m.stack.size - k) ++ words
    pc := m.pc + width }

/-- An operation on the two topmost words. -/
def binary (f : Int64 → Int64 → Int64) : Row where
  checks := [fewer m 2]
  effect := replace m 2 [f (below m) (top m)] 1

/-- A jump that takes the topmost word off the stack. A bad target matters only if it is taken. -/
def branch (taken : Bool) : Row where
  checks := [missing m 1, fewer m 1,
    ⟨taken && (outside m (operand m 1).toInt).fails, .invalidProgramCounter⟩]
  effect :=
    { replace m 1 [] 2 with pc := if taken then (operand m 1).toInt else m.pc + 2 }

/-- What the table says of an opcode. -/
def row : Opcode → Row
  | .add => binary m fun a b => a + b
  | .sub => binary m fun a b => a - b
  | .mul => binary m fun a b => a * b
  | .div =>
    { checks := [fewer m 2, ⟨top m = 0, .divisionByZero⟩]
      effect := replace m 2 [below m / top m] 1 }
  | .lt => binary m fun a b => if a < b then 1 else 0
  | .gt => binary m fun a b => if b < a then 1 else 0
  | .eq => binary m fun a b => if a = b then 1 else 0
  | .jmp =>
    { checks := [missing m 1, outside m (operand m 1).toInt]
      effect := { m.view with pc := (operand m 1).toInt } }
  | .jmpt => branch m (top m != 0)
  | .jmpf => branch m (top m == 0)
  | .const =>
    { checks := [missing m 1, full m 1]
      effect := replace m 0 [operand m 1] 2 }
  | .load =>
    { checks := [missing m 1, unoccupied m.stack.size (address m), full m 1]
      effect := replace m 0 [m.stack.slot (address m).toNat] 2 }
  | .store =>
    -- The word that is stored is off the stack when the address is checked.
    { checks := [missing m 1, fewer m 1, unoccupied (m.stack.size - 1) (address m)]
      effect :=
        { replace m 1 [] 2 with
          stack := (m.stack.toList.take (m.stack.size - 1)).set (address m).toNat (top m) } }
  | .gload =>
    { checks := [fewer m 1, noLocal m (top m).toInt]
      effect := replace m 1 [m.locals[(top m).toInt.toNat]?.getD 0] 1 }
  | .gstore =>
    { checks := [fewer m 1, missing m 1, noLocal m (operand m 1).toInt]
      effect :=
        { replace m 1 [] 2 with
          locals := m.locals.toList.set (operand m 1).toInt.toNat (top m) } }
  | .print =>
    { checks := [fewer m 1, ⟨m.out.isFull, .outputFailure⟩]
      effect := { replace m 1 [] 1 with out := m.out.write (top m) } }
  | .pop =>
    { checks := [fewer m 1]
      effect := replace m 1 [] 1 }
  | .halt =>
    { checks := []
      effect := replace m 0 [] 1
      halts := true }
  | .call =>
    { checks := [missing m 1, missing m 2,
        ⟨(operand m 2).toInt < 0 ∨ m.stack.size < (operand m 2).toInt, .stackUnderflow⟩,
        full m 3, outside m (operand m 1).toInt]
      effect :=
        { replace m 0 [operand m 2, Int64.ofNat m.fp, Int64.ofInt (m.pc + 3)] 3 with
          pc := (operand m 1).toInt
          fp := m.stack.size + 2
          depth := m.depth + 1 } }
  | .ret =>
    -- The frame: the argument count in slot `fp - 2`, then the caller's frame pointer, then the
    -- return address in slot `fp`. The returned value is above it.
    let argc := m.stack.slot (m.fp - 2)
    let savedFp := m.stack.slot (m.fp - 1)
    let returnPc := m.stack.slot m.fp
    { checks := [⟨m.depth = 0, .returnOutsideCall⟩, fewer m 1,
        ⟨m.stack.size - 1 ≤ m.fp, .invalidStackAddress⟩,
        ⟨m.fp < 1, .stackUnderflow⟩, ⟨m.fp < 2, .stackUnderflow⟩,
        ⟨argc.toInt < 0 ∨ (m.fp - 2 : Nat) < argc.toInt, .stackUnderflow⟩,
        ⟨savedFp.toInt < 0 ∨ 2^31 ≤ savedFp.toInt, .invalidStackAddress⟩,
        outside m returnPc.toInt]
      effect :=
        { m.view with
          stack := m.stack.toList.take (m.fp - 2 - argc.toInt.toNat) ++ [top m]
          pc := returnPc.toInt
          fp := savedFp.toInt.toNat
          depth := m.depth - 1 } }

end Table

/-- What the table says of the next instruction of a machine. -/
def Machine.row (m : Machine) : Row :=
  match m.word? m.pc with
  | none => { checks := [⟨true, .invalidProgramCounter⟩], effect := m.view }
  | some word =>
    match Opcode.ofWord? word with
    | none => { checks := [⟨true, .unknownOpcode⟩], effect := m.view }
    | some op => Table.row m op

end StackMachine
