import StackMachine.Decimal

/-!
# Opcodes

The twenty instructions of the machine. A program is a flat sequence of words in which the word of
an opcode is followed by a fixed number of operand words. Opcode words run from `1` to `20`; zero is
never an instruction.

Numbers, mnemonics and operand counts are those of the table in §4.2 of the specification.
-/

namespace StackMachine

/-- An instruction of the machine. -/
inductive Opcode where
  | add | sub | mul | div
  | lt | gt | eq
  | jmp | jmpt | jmpf
  | const
  | load | gload | store | gstore
  | print | pop | halt
  | call | ret
  deriving DecidableEq, Repr

namespace Opcode

/-- All opcodes, in the order of their words. -/
def all : List Opcode :=
  [.add, .sub, .mul, .div, .lt, .gt, .eq, .jmp, .jmpt, .jmpf, .const, .load, .gload, .store,
    .gstore, .print, .pop, .halt, .call, .ret]

/-- The word that stands for an opcode in a program. -/
def word : Opcode → Int64
  | .add => 1
  | .sub => 2
  | .mul => 3
  | .div => 4
  | .lt => 5
  | .gt => 6
  | .eq => 7
  | .jmp => 8
  | .jmpt => 9
  | .jmpf => 10
  | .const => 11
  | .load => 12
  | .gload => 13
  | .store => 14
  | .gstore => 15
  | .print => 16
  | .pop => 17
  | .halt => 18
  | .call => 19
  | .ret => 20

/-- The opcode that a word stands for, if it stands for one. -/
def ofWord? (w : Int64) : Option Opcode :=
  match w with
  | 1 => some .add
  | 2 => some .sub
  | 3 => some .mul
  | 4 => some .div
  | 5 => some .lt
  | 6 => some .gt
  | 7 => some .eq
  | 8 => some .jmp
  | 9 => some .jmpt
  | 10 => some .jmpf
  | 11 => some .const
  | 12 => some .load
  | 13 => some .gload
  | 14 => some .store
  | 15 => some .gstore
  | 16 => some .print
  | 17 => some .pop
  | 18 => some .halt
  | 19 => some .call
  | 20 => some .ret
  | _ => none

/-- The name of an opcode in listings and messages. -/
def mnemonic : Opcode → String
  | .add => "ADD"
  | .sub => "SUB"
  | .mul => "MUL"
  | .div => "DIV"
  | .lt => "LT"
  | .gt => "GT"
  | .eq => "EQ"
  | .jmp => "JMP"
  | .jmpt => "JMPT"
  | .jmpf => "JMPF"
  | .const => "CONST"
  | .load => "LOAD"
  | .gload => "GLOAD"
  | .store => "STORE"
  | .gstore => "GSTORE"
  | .print => "PRINT"
  | .pop => "POP"
  | .halt => "HALT"
  | .call => "CALL"
  | .ret => "RET"

/-- The opcode with the given name. -/
def ofMnemonic? (name : String) : Option Opcode :=
  all.find? fun op => op.mnemonic == name

/-- How many operand words follow the opcode. -/
def operands : Opcode → Nat
  | .jmp | .jmpt | .jmpf | .const | .load | .store | .gstore => 1
  | .call => 2
  | _ => 0

/-- The name of any word read as an opcode: its mnemonic, or `OP(n)` if it stands for none. -/
def nameOfWord (w : Int64) : String :=
  match ofWord? w with
  | some op => op.mnemonic
  | none => "OP(" ++ Decimal.ofWord w ++ ")"

/-- How many operand words follow a word read as an opcode; none follow an unknown one. -/
def operandsOfWord (w : Int64) : Nat :=
  match ofWord? w with
  | some op => op.operands
  | none => 0

end Opcode

end StackMachine
