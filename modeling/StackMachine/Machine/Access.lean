import StackMachine.Machine.Basic

/-!
# Access to a machine's state

The elementary actions out of which instructions are made. A host may perform them too. Each one
either takes effect or answers with a fault at the current site and changes nothing; none of them
touches the run state.

They are the operations of §4.1 of the specification: `push`, `pop`, `fetch`, `readLocal`,
`writeLocal`, `readRelative` and `writeRelative` are its `Push`, `Pop`, `FetchNext`, `ReadLocal`,
`WriteLocal`, `ReadStackRelative` and `WriteStackRelative`.
-/

namespace StackMachine

/-- An action on a machine that may fail. A failing action keeps what was done before it. -/
abbrev Action := EStateM Fault Machine

namespace Action

/-- Fails at the current site. -/
def fail {α : Type} (reason : Reason) : Action α := fun m =>
  .error { m.site with reason } m

/-- Places `v` on top of the stack. -/
def push (v : Int64) : Action Unit := fun m =>
  if h : m.stack.size < m.stack.capacity then
    .ok () { m with stack := m.stack.push v h }
  else
    fail (.full m.stack.capacity) m

/-- Takes the topmost word off the stack. -/
def pop : Action Int64 := fun m =>
  if h : 0 < m.stack.size then
    let v := m.stack.top h
    .ok v { m with stack := m.stack.pop h }
  else
    fail .empty m

/-- Reads the word at the program counter and moves past it. -/
def fetch : Action Int64 := fun m =>
  if h : 0 ≤ m.pc ∧ m.pc < m.code.size then
    have : m.pc.toNat < m.code.size := by omega
    let v := m.code[m.pc.toNat]
    .ok v { m with pc := m.pc + 1 }
  else
    fail (.fetch m.pc m.code.size) m

/-- Moves the program counter to `target`. -/
def jump (target : Int64) : Action Unit := fun m =>
  if 0 ≤ target.toInt ∧ target.toInt < m.code.size then
    .ok () { m with pc := target.toInt }
  else
    fail (.jump target m.code.size) m

/-- Reads a slot of the locals region. -/
def readLocal (index : Int64) : Action Int64 := fun m =>
  if h : 0 ≤ index.toInt ∧ index.toInt < m.locals.size then
    have : index.toInt.toNat < m.locals.size := by omega
    .ok m.locals[index.toInt.toNat] m
  else
    fail (.readLocal index m.locals.size) m

/-- Writes a slot of the locals region. -/
def writeLocal (index v : Int64) : Action Unit := fun m =>
  if h : 0 ≤ index.toInt ∧ index.toInt < m.locals.size then
    .ok () { m with locals := m.locals.set index.toInt.toNat v (by omega) }
  else
    fail (.writeLocal index m.locals.size) m

end Action

/-- The slot at an offset from the frame pointer, if it is occupied. The sum is a word and may wrap;
offsets are confined to 32 bits. -/
def Machine.slot? (m : Machine) (offset : Int64) : Option (Fin m.stack.size) :=
  let i := (Int64.ofNat m.fp + offset).toInt
  if h : -0x80000000 ≤ offset.toInt ∧ offset.toInt < 0x80000000 ∧ 0 ≤ i ∧ i < m.stack.size then
    some ⟨i.toNat, by omega⟩
  else
    none

namespace Action

/-- Reads the stack slot at an offset from the frame pointer. Negative offsets reach the arguments,
positive ones the words pushed since the call. -/
def readRelative (offset : Int64) : Action Int64 := fun m =>
  match m.slot? offset with
  | some i => .ok (m.stack.get i i.isLt) m
  | none => fail (.frameOffset m.fp offset m.sp) m

/-- Writes the stack slot at an offset from the frame pointer. -/
def writeRelative (offset v : Int64) : Action Unit := fun m =>
  match m.slot? offset with
  | some i => .ok () { m with stack := m.stack.set i v i.isLt }
  | none => fail (.frameOffset m.fp offset m.sp) m

/-- Hands a value to the sink. -/
def print (v : Int64) : Action Unit := fun m =>
  if m.out.isFull then
    fail (.refused v m.out.complaint) m
  else
    .ok () { m with out := m.out.write v }

end Action

end StackMachine
