import StackMachine.Fault
import StackMachine.Instruction

/-!
# The machine

A machine executes code, a sequence of words it never writes. It has an operand stack on which call
frames live too, a region of locals addressed by absolute index, and a sink that takes what it
prints. It runs until it halts or faults.

A frame is three words on the stack above its arguments: the number of arguments, the caller's frame
pointer and the return address. The frame pointer is the slot of the return address.

The state is that of §3 and §4.1 of the specification, `Machine.new` and its options are the
construction of §4.3, and `Machine.reset` is the `Reset` of §6.
-/

namespace StackMachine

/-- What takes writes. One with limited room refuses every write after that many, with its
complaint. -/
structure Outlet where
  /-- How many more writes are taken, if that is limited. -/
  room : Option Nat := none
  /-- What is said of a write that is refused. -/
  complaint : String := ""
  deriving DecidableEq, Repr

namespace Outlet

/-- Whether the next write is refused. -/
def isFull (o : Outlet) : Bool :=
  o.room == some 0

/-- What is left of an outlet after some writes. -/
def after (o : Outlet) (writes : Nat) : Outlet :=
  { o with room := o.room.map (· - writes) }

end Outlet

/-- Where printed values go: an outlet that takes one write per value. -/
structure Sink extends Outlet where
  /-- The values taken so far. -/
  printed : Array Int64 := #[]
  deriving DecidableEq, Repr

namespace Sink

/-- What one printed value looks like. -/
def line (v : Int64) : String :=
  Decimal.ofWord v ++ "\n"

/-- Everything taken so far, as text. -/
def text (s : Sink) : String :=
  s.printed.foldl (fun acc v => acc ++ line v) ""

/-- Takes one value. -/
def write (s : Sink) (v : Int64) : Sink :=
  { s with printed := s.printed.push v, room := s.room.map (· - 1) }

end Sink

/-- The run state of a machine. -/
inductive Status where
  | running
  | halted
  | faulted (fault : Fault)
  deriving DecidableEq, Repr

namespace Status

/-- The name of a run state. -/
def name : Status → String
  | .running => "Running"
  | .halted => "Halted"
  | .faulted _ => "Faulted"

/-- The name of a run state by its number. -/
def nameOfCode (code : Int) : String :=
  match code with
  | 0 => "Running"
  | 1 => "Halted"
  | 2 => "Faulted"
  | n => "State(" ++ Decimal.ofInt n ++ ")"

/-- The recorded fault, if there is one. -/
def fault? : Status → Option Fault
  | .faulted f => some f
  | _ => none

end Status

/-- The state of a machine. -/
structure Machine where
  /-- The program. -/
  code : Array Int64
  /-- Where execution starts. -/
  entry : Int
  /-- How many instructions may be dispatched, if that is limited. -/
  budget : Option Nat
  /-- The next word to fetch. -/
  pc : Int
  /-- The slot of the current frame's return address. -/
  fp : Nat
  /-- The operand stack. -/
  stack : Stack
  /-- The locals region. -/
  locals : Array Int64
  /-- How many calls are active. -/
  depth : Nat
  /-- How many instructions have been dispatched. -/
  steps : Nat
  /-- The run state. -/
  status : Status
  /-- The instruction being executed. -/
  site : Site
  /-- What has been printed. -/
  out : Sink

namespace Machine

/-- The capacity of the operand stack unless another is asked for. -/
def defaultCapacity : Nat := 100

/-- The largest operand stack a machine makes. -/
def maxCapacity : Nat := 0x100000

/-- The largest locals region a machine makes. -/
def maxLocals : Nat := 0x100000

/-- What can be asked of a new machine. Sizes outside their range are moved to its nearest end, and
a step limit that is not positive is no limit. -/
structure Options where
  stackCapacity : Int := defaultCapacity
  maxSteps : Int := 0
  out : Sink := {}

/-- A size asked for, moved into the range from zero to `limit`. -/
def clamp (limit : Nat) (size : Int) : Nat :=
  min size.toNat limit

/-- The budget that a step limit gives. -/
def budgetOf (maxSteps : Int) : Option Nat :=
  if 0 < maxSteps then some maxSteps.toNat else none

/-- A machine that will execute `code` from `entry` with a locals region of the given size. -/
def new (code : Array Int64) (entry locals : Int) (options : Options := {}) : Machine where
  code := code
  entry := entry
  budget := budgetOf options.maxSteps
  pc := entry
  fp := 0
  stack := Stack.empty (clamp maxCapacity options.stackCapacity)
  locals := Array.replicate (clamp maxLocals locals) 0
  depth := 0
  steps := 0
  status := .running
  site := ⟨0, 0⟩
  out := options.out

/-- Rewinds the machine to its entry, with an empty stack and zero locals. Only the sink keeps what
it has taken. -/
def reset (m : Machine) : Machine :=
  { m with
    pc := m.entry
    fp := 0
    stack := Stack.empty m.stack.capacity
    locals := Array.replicate m.locals.size 0
    depth := 0
    steps := 0
    status := .running
    site := ⟨0, 0⟩ }

/-- The slot of the topmost word, or `-1` when the stack is empty. -/
def sp (m : Machine) : Int :=
  m.stack.size - 1

/-- Whether the budget leaves no further instruction. -/
def isSpent (m : Machine) : Bool :=
  m.budget.any (· ≤ m.steps)

end Machine

end StackMachine
