import StackMachine.Opcode

/-!
# Instructions in code

An instruction is an opcode word at an offset of the code together with the operand words that
follow it. At the end of the code operands may be missing. The machine's trace and the listing read
instructions through this one view.

The code is the instruction stream of §3 of the specification.
-/

namespace StackMachine

/-- An opcode word at an offset of some code, with its operand words. -/
structure Instruction where
  offset : Nat
  op : Int64
  operands : List Int64
  deriving DecidableEq, Repr

namespace Instruction

/-- The instruction at an offset of the code: as many operands as its opcode asks for, or as many as
the code still has. -/
def read (code : Array Int64) (offset : Nat) (h : offset < code.size) : Instruction where
  offset := offset
  op := code[offset]
  operands := (code.extract (offset + 1) (offset + 1 + Opcode.operandsOfWord code[offset])).toList

/-- The instruction at an offset, if the offset is inside the code. -/
def read? (code : Array Int64) (offset : Nat) : Option Instruction :=
  if h : offset < code.size then some (Instruction.read code offset h) else none

/-- Whether the code ends before the last operand. -/
def isTruncated (i : Instruction) : Bool :=
  i.operands.length < Opcode.operandsOfWord i.op

/-- The offset just past the instruction. -/
def next (i : Instruction) : Nat :=
  i.offset + 1 + i.operands.length

/-- All instructions from an offset on, each starting where the one before it ends. -/
def allFrom (code : Array Int64) (offset : Nat) : List Instruction :=
  if h : offset < code.size then
    let i := Instruction.read code offset h
    i :: allFrom code i.next
  else
    []
termination_by code.size - offset
decreasing_by
  simp only [next, read]
  omega

end Instruction

end StackMachine
