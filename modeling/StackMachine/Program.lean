import StackMachine.Image.Basic
import StackMachine.Text.Quoted

/-!
# Built-in programs

Three programs that come with the machine: one calls itself, one computes a sum, and one counts down
in a loop over a local.

They are the programs of §6.2 of the specification, which `ofName?` finds by name.
-/

namespace StackMachine.Program

/-- Where the main routine of the Fibonacci program starts. -/
def fibonacciEntry : Nat := 38

/-- A program that prints the `n`-th Fibonacci number, by a procedure that calls itself. The zeroth
is zero, and below three all others are one. -/
def fibonacci (n : Int64) : Image where
  name := "fibonacci"
  entry := Int64.ofNat fibonacciEntry
  code := some #[
    -- At 0: unless the argument is zero, go on at 10.
    Opcode.load.word, -3,
    Opcode.const.word, 0,
    Opcode.eq.word,
    Opcode.jmpf.word, 10,
    Opcode.const.word, 0,
    Opcode.ret.word,
    -- At 10: unless the argument is below three, go on at 20.
    Opcode.load.word, -3,
    Opcode.const.word, 3,
    Opcode.lt.word,
    Opcode.jmpf.word, 20,
    Opcode.const.word, 1,
    Opcode.ret.word,
    -- At 20: the sum of the two numbers before.
    Opcode.load.word, -3,
    Opcode.const.word, 1,
    Opcode.sub.word,
    Opcode.call.word, 0, 1,
    Opcode.load.word, -3,
    Opcode.const.word, 2,
    Opcode.sub.word,
    Opcode.call.word, 0, 1,
    Opcode.add.word,
    Opcode.ret.word,
    -- At 38: the main routine.
    Opcode.const.word, n,
    Opcode.call.word, 0, 1,
    Opcode.print.word,
    Opcode.halt.word]

/-- A program that prints the sum of two words. -/
def add (a b : Int64) : Image where
  name := "add"
  code := some #[
    Opcode.const.word, a,
    Opcode.const.word, b,
    Opcode.add.word,
    Opcode.print.word,
    Opcode.halt.word]

/-- A program that prints `n` and every number below it down to one. Its counter is a local. -/
def countdown (n : Int64) : Image where
  name := "countdown"
  locals := 1
  code := some #[
    Opcode.const.word, n,
    Opcode.gstore.word, 0,
    -- At 4: unless the counter is positive, go on at 26.
    Opcode.const.word, 0,
    Opcode.gload.word,
    Opcode.const.word, 0,
    Opcode.gt.word,
    Opcode.jmpf.word, 26,
    Opcode.const.word, 0,
    Opcode.gload.word,
    Opcode.print.word,
    Opcode.const.word, 0,
    Opcode.gload.word,
    Opcode.const.word, 1,
    Opcode.sub.word,
    Opcode.gstore.word, 0,
    Opcode.jmp.word, 4,
    -- At 26.
    Opcode.halt.word]

/-- The programs that can be asked for by name, each of one argument, sorted by name. The sum is
that of its argument with itself. -/
def table : List (String × (Int64 → Image)) :=
  [("add", fun n => add n n), ("countdown", countdown), ("fib", fibonacci)]

/-- The names of the built-in programs. -/
def names : List String :=
  table.map Prod.fst

/-- The built-in program of a name, if there is one. -/
def ofName? (name : String) (argument : Int64) : Option Image :=
  (table.lookup name).map (· argument)

/-- What is said of a name that no program has. -/
def unknown (name : String) : String :=
  "unknown program " ++ Text.Quoted.text name ++ " (available: [" ++ " ".intercalate names ++ "])"

end StackMachine.Program
