import StackMachine.Main
import StackMachine.Proofs.Access
import StackMachine.Proofs.Run
import StackMachine.Proofs.Invariant
import StackMachine.Proofs.Table
import StackMachine.Proofs.Dispatch
import StackMachine.Proofs.Discipline
import StackMachine.Proofs.Frames
import StackMachine.Proofs.Calls
import StackMachine.Proofs.Reset
import StackMachine.Proofs.Budget
import StackMachine.Proofs.Resources
import StackMachine.Proofs.Output
import StackMachine.Proofs.Opcode
import StackMachine.Proofs.Instruction
import StackMachine.Proofs.Listing
import StackMachine.Proofs.Decoding
import StackMachine.Proofs.Coverage
import StackMachine.Proofs.Bytes
import StackMachine.Proofs.Cbor
import StackMachine.Proofs.ImageCbor
import StackMachine.Proofs.Files
import StackMachine.Proofs.Delimited
import StackMachine.Proofs.Scalars
import StackMachine.Proofs.Scanning
import StackMachine.Proofs.Lines
import StackMachine.Proofs.Document
import StackMachine.Proofs.ImageYaml
import StackMachine.Proofs.Conversion
import StackMachine.Proofs.Preparation
import StackMachine.Proofs.Blocks
import StackMachine.Proofs.Countdown
import StackMachine.Proofs.Fibonacci
import StackMachine.Proofs.Outcome
import StackMachine.Proofs.Isolation
import StackMachine.Proofs.BoundedList
import StackMachine.Proofs.Residue
import StackMachine.Proofs.Addressing
import StackMachine.Proofs.Blame
import StackMachine.Proofs.Arithmetic
import StackMachine.Proofs.Recursion
import StackMachine.Proofs.Colors
import StackMachine.Proofs.Guards
import StackMachine.Proofs.Transcript
