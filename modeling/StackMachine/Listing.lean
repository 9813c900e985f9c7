import StackMachine.Instruction

/-!
# Listings

A listing shows code as text: a title line and then one line for each instruction, with its offset,
its mnemonic and its operands. Words that are no opcode get a line of their own, and an instruction
whose operands are cut off by the end of the code says so.

This is the disassembler of §4.4 of the specification. `Listing.text` is its `Disassemble`, and
`Listing.lineAt` its `DisassembleInstruction`.
-/

namespace StackMachine

namespace Listing

/-- A name followed by blanks up to six places. -/
def column (name : String) : String :=
  name ++ String.ofList (List.replicate (6 - name.length) ' ')

/-- The line of one instruction. -/
def line (i : Instruction) : String :=
  let name := Opcode.nameOfWord i.op
  let start := Decimal.padded 4 i.offset ++ " "
  if Opcode.operandsOfWord i.op = 0 then
    start ++ name
  else
    let operands := i.operands.foldl (fun acc w => acc ++ " " ++ Decimal.ofWord w) ""
    start ++ column name ++ operands ++ (if i.isTruncated then " <truncated>" else "")

/-- The line at any offset, and the offset of the line after it. Outside the code the line says so,
and the next offset, which is a word, may wrap. -/
def lineAt (code : Array Int64) (offset : Int64) : String × Int64 :=
  let outside := (Decimal.padded 4 offset.toInt ++ " <out of range>", offset + 1)
  if offset < 0 then outside
  else
    match Instruction.read? code offset.toInt.toNat with
    | some i => (line i, Int64.ofNat i.next)
    | none => outside

/-- The listing of some code under a title. -/
def text (code : Array Int64) (title : String) : String :=
  (Instruction.allFrom code 0).foldl (fun acc i => acc ++ line i ++ "\n")
    ("== " ++ title ++ " ==\n")

end Listing

end StackMachine
