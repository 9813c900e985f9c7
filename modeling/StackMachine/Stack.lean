/-!
# The operand stack

A stack of words with a fixed number of cells. Slot `0` is the bottom and slot `size - 1` the top.
The cells live in one array of the stack's capacity, of which the first `size` are occupied; a cell
that is given up is set back to zero.

Every operation comes in two forms. The plain one (`push`, `pop`, `set`, ...) takes a proof that it
applies and always succeeds. The one with a question mark (`push?`, `pop?`, `set?`, ...) takes any
arguments, negative indices included, and answers with the reason why it does not apply.

It is the bounded stack of §2 of the specification, which backs the operand stack of §3. By
`truncate` a return sets the stack pointer back.
-/

namespace StackMachine

/-- A bounded stack of words that can also be addressed by index. -/
structure Stack where
  /-- All cells, occupied or not; their number is the capacity. -/
  cells : Array Int64
  /-- How many cells are occupied. -/
  size : Nat
  /-- The occupied cells are cells of the array. -/
  size_le : size ≤ cells.size

namespace Stack

/-- Why an operation on a stack does not apply. -/
inductive Error where
  | overflow
  | underflow
  | outOfRange
  deriving DecidableEq, Repr

/-- The wording of a stack error. -/
def Error.message : Error → String
  | .overflow => "stack overflow"
  | .underflow => "stack underflow"
  | .outOfRange => "stack index out of range"

/-- The number of words the stack can hold. -/
abbrev capacity (s : Stack) : Nat :=
  s.cells.size

/-- The empty stack with room for `capacity` words. -/
def empty (capacity : Nat) : Stack where
  cells := Array.replicate capacity 0
  size := 0
  size_le := Nat.zero_le _

/-- A stack that holds `seeds`, bottom first, with room for `capacity` words or for the seeds
alone, whichever is more. -/
def ofList (capacity : Int) (seeds : List Int64) : Stack where
  cells := seeds.toArray ++ Array.replicate (capacity.toNat - seeds.length) 0
  size := seeds.length
  size_le := by simp

/-- The occupied slots, bottom first. -/
def toList (s : Stack) : List Int64 :=
  s.cells.toList.take s.size

/-- Places `v` on top. -/
def push (s : Stack) (v : Int64) (h : s.size < s.capacity) : Stack where
  cells := s.cells.set s.size v h
  size := s.size + 1
  size_le := by rw [Array.size_set]; exact h

/-- The topmost word. -/
def top (s : Stack) (h : 0 < s.size) : Int64 :=
  have := s.size_le
  s.cells[s.size - 1]

/-- Gives up the topmost word. -/
def pop (s : Stack) (h : 0 < s.size) : Stack where
  cells := s.cells.set (s.size - 1) 0 (by have := s.size_le; omega)
  size := s.size - 1
  size_le := by rw [Array.size_set]; have := s.size_le; omega

/-- The word in slot `i`, counted from the bottom. -/
def get (s : Stack) (i : Nat) (h : i < s.size) : Int64 :=
  have := s.size_le
  s.cells[i]

/-- Overwrites slot `i`, counted from the bottom. -/
def set (s : Stack) (i : Nat) (v : Int64) (h : i < s.size) : Stack where
  cells := s.cells.set i v (Nat.lt_of_lt_of_le h s.size_le)
  size := s.size
  size_le := by rw [Array.size_set]; exact s.size_le

/-- Gives up the topmost `n` words, or all of them if there are fewer. -/
def drop (s : Stack) : Nat → Stack
  | 0 => s
  | n + 1 => if h : 0 < s.size then (s.pop h).drop n else s

/-- Gives up every word above the first `n`. -/
def truncate (s : Stack) (n : Nat) : Stack :=
  s.drop (s.size - n)

/-- Places `v` on top, unless the stack is full. -/
def push? (s : Stack) (v : Int64) : Except Error Stack :=
  if h : s.size < s.capacity then .ok (s.push v h) else .error .overflow

/-- Takes the topmost word off, unless the stack is empty. -/
def pop? (s : Stack) : Except Error (Int64 × Stack) :=
  if h : 0 < s.size then .ok (s.top h, s.pop h) else .error .underflow

/-- The topmost word, unless the stack is empty. -/
def peek? (s : Stack) : Except Error Int64 :=
  if h : 0 < s.size then .ok (s.top h) else .error .underflow

/-- The word in slot `i`, if that slot is occupied. -/
def get? (s : Stack) (i : Int) : Except Error Int64 :=
  if i < 0 then .error .outOfRange
  else if h : i.toNat < s.size then .ok (s.get i.toNat h)
  else .error .outOfRange

/-- Overwrites slot `i`, if that slot is occupied. -/
def set? (s : Stack) (i : Int) (v : Int64) : Except Error Stack :=
  if i < 0 then .error .outOfRange
  else if h : i.toNat < s.size then .ok (s.set i.toNat v h)
  else .error .outOfRange

/-- Gives up every word above the first `n`; the stack never grows this way. -/
def truncate? (s : Stack) (n : Int) : Except Error Stack :=
  if n < 0 then .error .underflow
  else if n.toNat ≤ s.size then .ok (s.truncate n.toNat)
  else .error .outOfRange

end Stack

end StackMachine
