import StackMachine.Opcode
import StackMachine.Stack

/-!
# Faults

A machine that stops abnormally records a fault: which instruction failed and for what reason. The
reason decides the kind of the fault, the wording of its detail and its underlying cause.

The kinds are those of §7 of the specification, and a `Fault` with its causes is what a host takes
apart there.
-/

namespace StackMachine

/-- The class of a fault. Kinds are numbered; ten of them are in use. -/
inductive FaultKind where
  | stackOverflow
  | stackUnderflow
  | divisionByZero
  | invalidProgramCounter
  | invalidLocalAddress
  | invalidStackAddress
  | unknownOpcode
  | returnOutsideCall
  | stepLimitExceeded
  | outputFailure
  /-- A number that is not in use; zero says that there is no fault. -/
  | unused (code : Int)
  deriving DecidableEq, Repr

namespace FaultKind

/-- The kind that stands for the absence of a fault. -/
def none : FaultKind :=
  .unused 0

/-- The kind with the given number. -/
def ofCode (code : Int) : FaultKind :=
  match code with
  | 1 => .stackOverflow
  | 2 => .stackUnderflow
  | 3 => .divisionByZero
  | 4 => .invalidProgramCounter
  | 5 => .invalidLocalAddress
  | 6 => .invalidStackAddress
  | 7 => .unknownOpcode
  | 8 => .returnOutsideCall
  | 9 => .stepLimitExceeded
  | 10 => .outputFailure
  | n => .unused n

/-- The name of a kind. -/
def name : FaultKind → String
  | .stackOverflow => "StackOverflow"
  | .stackUnderflow => "StackUnderflow"
  | .divisionByZero => "DivisionByZero"
  | .invalidProgramCounter => "InvalidProgramCounter"
  | .invalidLocalAddress => "InvalidLocalAddress"
  | .invalidStackAddress => "InvalidStackAddress"
  | .unknownOpcode => "UnknownOpcode"
  | .returnOutsideCall => "ReturnOutsideCall"
  | .stepLimitExceeded => "StepLimitExceeded"
  | .outputFailure => "OutputFailure"
  | .unused code => if code = 0 then "None" else "FaultKind(" ++ Decimal.ofInt code ++ ")"

/-- What a kind says in a message; a number not in use says nothing. -/
def wording? : FaultKind → Option String
  | .stackOverflow => some "stack overflow"
  | .stackUnderflow => some "stack underflow"
  | .divisionByZero => some "division by zero"
  | .invalidProgramCounter => some "invalid program counter"
  | .invalidLocalAddress => some "invalid local address"
  | .invalidStackAddress => some "invalid stack address"
  | .unknownOpcode => some "unknown opcode"
  | .returnOutsideCall => some "return outside of a call"
  | .stepLimitExceeded => some "maximum steps exceeded"
  | .outputFailure => some "output failed"
  | .unused _ => .none

end FaultKind

/-- The instruction being executed: the offset of its opcode and the opcode's word, which is zero as
long as no opcode has been fetched. -/
structure Site where
  pc : Int
  op : Int64
  deriving DecidableEq, Repr

/-- Why an instruction, or a host's call, failed. -/
inductive Reason where
  /-- A push onto a stack that holds `capacity` words already. -/
  | full (capacity : Nat)
  /-- A pop from the empty stack. -/
  | empty
  /-- A fetch at an offset outside a program of `slots` words. -/
  | fetch (pc : Int) (slots : Nat)
  /-- A jump to an offset outside a program of `slots` words. -/
  | jump (target : Int64) (slots : Nat)
  /-- A read outside a locals region of `slots` words. -/
  | readLocal (index : Int64) (slots : Nat)
  /-- A write outside a locals region of `slots` words. -/
  | writeLocal (index : Int64) (slots : Nat)
  /-- An offset from the frame pointer that leaves the occupied stack. -/
  | frameOffset (fp : Nat) (offset : Int64) (sp : Int)
  /-- A division of `dividend` by zero. -/
  | zeroDivisor (dividend : Int64)
  /-- A word that is no opcode. -/
  | noOpcode (word : Int64)
  /-- A call that claims more arguments than the stack holds, or fewer than none. -/
  | callArguments (argc : Int64) (held : Nat)
  /-- A return while no call is active. -/
  | noFrame
  /-- A return whose frame pointer lies above the stack. -/
  | frameAboveTop (fp : Nat) (sp : Int)
  /-- A return from a frame that records more arguments than the stack holds, or fewer than none. -/
  | frameArguments (argc : Int64) (held : Nat)
  /-- A return to a frame pointer that no frame can have. -/
  | savedFrame (fp : Int64)
  /-- The budget of steps is spent. -/
  | budget (steps : Nat)
  /-- The sink refused a printed value. -/
  | refused (value : Int64) (complaint : String)
  /-- A fault that was not raised by a machine, given by its parts. -/
  | reported (kind : FaultKind) (detail : String) (cause : Option String)
  deriving DecidableEq, Repr

namespace Reason

/-- The kind of fault that a reason makes. -/
def kind : Reason → FaultKind
  | .full _ => .stackOverflow
  | .empty => .stackUnderflow
  | .fetch .. => .invalidProgramCounter
  | .jump .. => .invalidProgramCounter
  | .readLocal .. => .invalidLocalAddress
  | .writeLocal .. => .invalidLocalAddress
  | .frameOffset .. => .invalidStackAddress
  | .zeroDivisor _ => .divisionByZero
  | .noOpcode _ => .unknownOpcode
  | .callArguments .. => .stackUnderflow
  | .noFrame => .returnOutsideCall
  | .frameAboveTop .. => .invalidStackAddress
  | .frameArguments .. => .stackUnderflow
  | .savedFrame _ => .invalidStackAddress
  | .budget _ => .stepLimitExceeded
  | .refused .. => .outputFailure
  | .reported kind .. => kind

/-- The particulars of a reason, as they stand at the end of a message. -/
def detail : Reason → String
  | .full capacity => "capacity " ++ Decimal.ofNat capacity ++ " reached"
  | .empty => "pop from empty stack"
  | .fetch pc slots =>
    "fetch at " ++ Decimal.ofInt pc ++ ", program has " ++ Decimal.ofNat slots ++ " slots"
  | .jump target slots =>
    "jump to " ++ Decimal.ofWord target ++ ", program has " ++ Decimal.ofNat slots ++ " slots"
  | .readLocal index slots =>
    "read of local " ++ Decimal.ofWord index ++ ", region has " ++ Decimal.ofNat slots ++ " slots"
  | .writeLocal index slots =>
    "write of local " ++ Decimal.ofWord index ++ ", region has " ++ Decimal.ofNat slots ++ " slots"
  | .frameOffset fp offset sp =>
    "fp " ++ Decimal.ofNat fp ++ Decimal.signed offset ++ " outside stack [0, "
      ++ Decimal.ofInt sp ++ "]"
  | .zeroDivisor dividend => Decimal.ofWord dividend ++ " / 0"
  | .noOpcode word => "opcode " ++ Decimal.ofWord word
  | .callArguments argc held =>
    "call needs " ++ Decimal.ofWord argc ++ " arguments, stack holds " ++ Decimal.ofNat held
  | .noFrame => "no active frame"
  | .frameAboveTop fp sp =>
    "frame pointer " ++ Decimal.ofNat fp ++ " above stack top " ++ Decimal.ofInt sp
  | .frameArguments argc held =>
    "frame records " ++ Decimal.ofWord argc ++ " arguments, stack holds " ++ Decimal.ofNat held
  | .savedFrame fp => "saved frame pointer " ++ Decimal.ofWord fp
  | .budget steps => "budget of " ++ Decimal.ofNat steps ++ " steps spent"
  | .refused value _ => "print " ++ Decimal.ofWord value
  | .reported _ detail _ => detail

/-- The error underneath a reason, if there is one: the stack's own, or the sink's. -/
def cause? : Reason → Option String
  | .full _ => some Stack.Error.overflow.message
  | .empty => some Stack.Error.underflow.message
  | .refused _ complaint => some complaint
  | .reported _ _ cause => cause
  | _ => none

end Reason

/-- A failure of the instruction at a site. -/
structure Fault extends Site where
  reason : Reason
  deriving DecidableEq, Repr

namespace Fault

/-- The kind of a fault. -/
def kind (f : Fault) : FaultKind :=
  f.reason.kind

/-- The particulars of a fault. -/
def detail (f : Fault) : String :=
  f.reason.detail

/-- The full wording of a fault: what happened, where, and the particulars if there are any. The
opcode is named unless its word is zero. -/
def message (f : Fault) : String :=
  let what := f.kind.wording?.getD f.kind.name
  let place := "pc " ++ Decimal.ofInt f.pc
    ++ (if f.op = 0 then "" else " (" ++ Opcode.nameOfWord f.op ++ ")")
  what ++ " at " ++ place ++ (if f.detail = "" then "" else ": " ++ f.detail)

/-- The errors a fault stands for: that of its kind, then the one underneath. -/
def causes (f : Fault) : List String :=
  f.kind.wording?.toList ++ f.reason.cause?.toList

end Fault

end StackMachine
