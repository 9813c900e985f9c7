import Mathlib
import StackMachine.Machine.Access
import StackMachine.Proofs.Stack

/-!
# What the elementary actions do

Each elementary action has two equations here, one for when it takes effect and one for when it
answers with a fault. The hypotheses speak of the machine as the instruction table does: of words of
the code by their offset, of slots by their index, and of frame offsets by an exact sum of integers.
Instructions are opened with these equations and with `bind_ok` and `bind_error`, one action at a
time.

The sum of the frame pointer and an offset is computed in words and guarded by a window of 32 bits.
`slot?_of_mem` and `slot?_of_not_mem` show that neither shows through on a machine whose frame
pointer and capacity are in their bounds (`Machine.Bounded`).
-/

namespace StackMachine

namespace Machine

/-! ## The code -/

/-- The word of the code at an offset, if the offset is inside the code. -/
def word? (m : Machine) (offset : Int) : Option Int64 :=
  if 0 ≤ offset then m.code[offset.toNat]? else none

/-- The words are those of the array. -/
theorem word?_natCast (m : Machine) (offset : Nat) : m.word? offset = m.code[offset]? := by
  unfold word?
  rw [if_pos (Int.natCast_nonneg offset), Int.toNat_natCast]

/-- Whether an offset is inside the code. -/
abbrev Inside (m : Machine) (offset : Int) : Prop :=
  0 ≤ offset ∧ offset < m.code.size

/-- There is a word exactly at the offsets inside the code. -/
theorem word?_isSome_iff (m : Machine) (offset : Int) :
    (m.word? offset).isSome ↔ m.Inside offset := by
  unfold word? Inside
  split
  · rw [Option.isSome_iff_ne_none, Ne, Array.getElem?_eq_none_iff]
    omega
  · simp only [Option.isSome_none, Bool.false_eq_true, false_iff]
    omega

/-- An offset that has a word is inside the code. -/
theorem inside_of_word? {m : Machine} {offset : Int} {w : Int64} (h : m.word? offset = some w) :
    m.Inside offset :=
  (m.word?_isSome_iff offset).1 (by rw [h]; rfl)

/-- Outside the code there is no word. -/
theorem word?_eq_none_iff (m : Machine) (offset : Int) :
    m.word? offset = none ↔ ¬ m.Inside offset := by
  rw [← word?_isSome_iff, Option.not_isSome_iff_eq_none]

/-- Inside the code there is a word. -/
theorem exists_word? {m : Machine} {offset : Int} (h : m.Inside offset) :
    ∃ w, m.word? offset = some w :=
  Option.isSome_iff_exists.1 ((m.word?_isSome_iff offset).2 h)

/-- The word at an offset is that of the array. -/
theorem getElem_of_word? {m : Machine} {offset : Nat} {w : Int64} (h : m.word? offset = some w) :
    ∃ hlt : offset < m.code.size, m.code[offset] = w := by
  rw [word?_natCast] at h
  exact Array.getElem?_eq_some_iff.1 h

/-! ## Updates -/

/-- The machine with another stack. -/
@[simps]
abbrev withStack (m : Machine) (stack : Stack) : Machine := { m with stack }

/-- The machine with another program counter. -/
@[simps]
abbrev withPc (m : Machine) (pc : Int) : Machine := { m with pc }

/-- The machine with other locals. -/
@[simps]
abbrev withLocals (m : Machine) (locals : Array Int64) : Machine := { m with locals }

/-- The machine with another sink. -/
@[simps]
abbrev withOut (m : Machine) (out : Sink) : Machine := { m with out }

/-- The machine at another instruction. -/
@[simps]
abbrev withSite (m : Machine) (site : Site) : Machine := { m with site }

/-- The machine with a frame opened at the top of its stack. -/
@[simps]
abbrev link (m : Machine) : Machine :=
  { m with fp := m.stack.size - 1, depth := m.depth + 1 }

/-- The machine with a frame closed, back in the one at `fp`. -/
@[simps]
abbrev unlink (m : Machine) (fp : Nat) : Machine :=
  { m with fp, depth := m.depth - 1 }

/-! ## Bounds -/

/-- The bounds that keep frame-relative addresses exact: no more slots than a machine makes, and a
frame pointer that fits 32 bits. -/
structure Bounded (m : Machine) : Prop where
  capacity_le : m.stack.capacity ≤ maxCapacity
  fp_lt : m.fp < 2^31

/-- A bounded machine's stack has room for at most `maxCapacity` words. -/
theorem Bounded.size_le {m : Machine} (h : m.Bounded) : m.stack.size ≤ maxCapacity :=
  Nat.le_trans m.stack.size_le_capacity h.capacity_le

end Machine

namespace Action

variable {α β : Type} {m m' : Machine}

/-! ## Sequencing -/

/-- After a success the next action goes on with its value and its machine. -/
theorem bind_ok {a : Action α} {f : α → Action β} {x : α} (h : a m = .ok x m') :
    (a >>= f) m = f x m' := by
  change EStateM.bind a f m = f x m'
  rw [EStateM.bind, h]

/-- After a failure the next action is skipped. -/
theorem bind_error {a : Action α} {f : α → Action β} {e : Fault} (h : a m = .error e m') :
    (a >>= f) m = .error e m' := by
  change EStateM.bind a f m = .error e m'
  rw [EStateM.bind, h]

/-- What follows an action depends only on its result. -/
theorem bind_eq_bind {a b : Action α} (f : α → Action β) (h : a m = b m') :
    (a >>= f) m = (b >>= f) m' := by
  change EStateM.bind a f m = EStateM.bind b f m'
  rw [EStateM.bind, EStateM.bind, h]

/-- Reading the machine hands it to the next action. -/
theorem get_bind (f : Machine → Action β) : (get >>= f) m = f m m := rfl

/-- Changing the machine hands the changed one to the next action. -/
theorem modify_bind (g : Machine → Machine) (f : PUnit → Action β) :
    (modify g >>= f) m = f ⟨⟩ (g m) := rfl

/-! ## The stack -/

/-- A push on a stack with room. -/
theorem push_of_lt (v : Int64) (h : m.stack.size < m.stack.capacity) :
    push v m = .ok () (m.withStack (m.stack.push v h)) :=
  dif_pos h

/-- A push on a full stack. -/
theorem push_of_full (v : Int64) (h : m.stack.capacity ≤ m.stack.size) :
    push v m = .error { m.site with reason := .full m.stack.capacity } m :=
  dif_neg (Nat.not_lt.2 h)

/-- A pop from a stack that holds a word. -/
theorem pop_of_pos (h : 0 < m.stack.size) :
    pop m = .ok (m.stack.top h) (m.withStack (m.stack.pop h)) :=
  dif_pos h

/-- A pop from the empty stack. -/
theorem pop_of_empty (h : m.stack.size = 0) :
    pop m = .error { m.site with reason := .empty } m :=
  dif_neg (by omega)

/-! ## The code -/

/-- A fetch at an offset that has a word. -/
theorem fetch_of_some {w : Int64} (h : m.word? m.pc = some w) :
    fetch m = .ok w (m.withPc (m.pc + 1)) := by
  have hin : 0 ≤ m.pc ∧ m.pc < m.code.size := Machine.inside_of_word? h
  have hlt : m.pc.toNat < m.code.size := by omega
  -- `word?` reads the array as an option, `fetch` under a bound that holds where there is a word.
  unfold Machine.word? at h
  rw [if_pos hin.1, Array.getElem?_eq_getElem hlt] at h
  unfold fetch
  rw [dif_pos hin]
  exact congrArg (EStateM.Result.ok · (m.withPc (m.pc + 1))) (Option.some.inj h)

/-- A fetch outside the code. -/
theorem fetch_of_none (h : m.word? m.pc = none) :
    fetch m = .error { m.site with reason := .fetch m.pc m.code.size } m := by
  have hout : ¬ (0 ≤ m.pc ∧ m.pc < m.code.size) := by
    intro hin
    -- A word would have been found there.
    have hsome := (m.word?_isSome_iff m.pc).2 hin
    rw [h] at hsome
    cases hsome
  exact dif_neg hout

/-- A jump inside the code. -/
theorem jump_of_inside {target : Int64} (h : m.Inside target.toInt) :
    jump target m = .ok () (m.withPc target.toInt) :=
  if_pos h

/-- A jump outside the code. -/
theorem jump_of_outside {target : Int64} (h : ¬ m.Inside target.toInt) :
    jump target m = .error { m.site with reason := .jump target m.code.size } m :=
  if_neg h

/-! ## The locals and the sink -/

/-- A read of a local that exists. -/
theorem readLocal_of_some {index w : Int64} (h0 : 0 ≤ index.toInt)
    (h : m.locals[index.toInt.toNat]? = some w) : readLocal index m = .ok w m := by
  obtain ⟨hlt, hw⟩ := Array.getElem?_eq_some_iff.1 h
  unfold readLocal
  rw [dif_pos ⟨h0, by omega⟩]
  exact congrArg (EStateM.Result.ok · m) hw

/-- A read outside the locals region. -/
theorem readLocal_of_outside {index : Int64}
    (h : ¬ (0 ≤ index.toInt ∧ index.toInt < m.locals.size)) :
    readLocal index m = .error { m.site with reason := .readLocal index m.locals.size } m :=
  dif_neg h

/-- A write of a local that exists. -/
theorem writeLocal_of_inside {index : Int64} (v : Int64)
    (h : 0 ≤ index.toInt ∧ index.toInt < m.locals.size) :
    writeLocal index v m =
      .ok () (m.withLocals (m.locals.set index.toInt.toNat v (by omega))) :=
  dif_pos h

/-- A write outside the locals region. -/
theorem writeLocal_of_outside {index : Int64} (v : Int64)
    (h : ¬ (0 ≤ index.toInt ∧ index.toInt < m.locals.size)) :
    writeLocal index v m = .error { m.site with reason := .writeLocal index m.locals.size } m :=
  dif_neg h

/-- A sink with room takes the value. -/
theorem print_of_room (v : Int64) (h : m.out.isFull = false) :
    print v m = .ok () (m.withOut (m.out.write v)) := by
  unfold print
  rw [h]
  rfl

/-- A sink without room refuses the value. -/
theorem print_of_full (v : Int64) (h : m.out.isFull = true) :
    print v m = .error { m.site with reason := .refused v m.out.complaint } m := by
  unfold print
  rw [h]
  rfl

end Action

/-! ## Frame-relative slots -/

namespace Machine

variable {m : Machine}

/-- Inside the window of 32 bits the sum of the frame pointer and an offset does not wrap. -/
theorem toInt_fp_add (hb : m.Bounded) (offset : Int64) (hlo : -2^31 ≤ offset.toInt)
    (hhi : offset.toInt < 2^31) : (Int64.ofNat m.fp + offset).toInt = m.fp + offset.toInt := by
  have hfp := hb.fp_lt
  rw [Int64.toInt_add, Int64.toInt_ofNat_of_lt (by omega)]
  -- Both summands are at most `2^31` in size, so that their sum is far from the ends of a word.
  exact Int.bmod_eq_of_le (by omega) (by omega)

/-- The exact sum decides: inside the occupied slots it is the slot that is found. -/
theorem slot?_of_mem (hb : m.Bounded) {offset : Int64} {i : Nat} (hi : m.fp + offset.toInt = i)
    (hlt : i < m.stack.size) : m.slot? offset = some ⟨i, hlt⟩ := by
  have hfp := hb.fp_lt
  have hsize := hb.size_le
  -- An occupied slot is below the capacity and the frame pointer fits 32 bits, so the offset, which
  -- is their difference, fits the window.
  have hcap : maxCapacity = 2^20 := rfl
  have hsum := toInt_fp_add hb offset (by omega) (by omega)
  unfold slot?
  rw [dif_pos (by rw [hsum]; omega)]
  simp only [hsum, hi, Int.toNat_natCast]

/-- The exact sum decides: outside the occupied slots no slot is found. -/
theorem slot?_of_not_mem (hb : m.Bounded) {offset : Int64}
    (h : ¬ (0 ≤ m.fp + offset.toInt ∧ m.fp + offset.toInt < m.stack.size)) :
    m.slot? offset = none := by
  unfold slot?
  apply dif_neg
  -- An offset that passes the window has an exact sum, and that one is no slot.
  rintro ⟨hlo, hhi, h0, h1⟩
  rw [toInt_fp_add hb offset (by omega) (by omega)] at h0 h1
  exact h ⟨h0, h1⟩

end Machine

namespace Action

variable {m : Machine}

/-- A read of an occupied slot relative to the frame pointer. -/
theorem readRelative_of_mem (hb : m.Bounded) {offset : Int64} {i : Nat}
    (hi : m.fp + offset.toInt = i) (hlt : i < m.stack.size) :
    readRelative offset m = .ok (m.stack.get i hlt) m := by
  unfold readRelative
  rw [Machine.slot?_of_mem hb hi hlt]

/-- A read relative to the frame pointer that leaves the occupied slots. -/
theorem readRelative_of_not_mem (hb : m.Bounded) {offset : Int64}
    (h : ¬ (0 ≤ m.fp + offset.toInt ∧ m.fp + offset.toInt < m.stack.size)) :
    readRelative offset m = .error { m.site with reason := .frameOffset m.fp offset m.sp } m := by
  unfold readRelative
  rw [Machine.slot?_of_not_mem hb h]
  rfl

/-- A write of an occupied slot relative to the frame pointer. -/
theorem writeRelative_of_mem (hb : m.Bounded) {offset : Int64} (v : Int64) {i : Nat}
    (hi : m.fp + offset.toInt = i) (hlt : i < m.stack.size) :
    writeRelative offset v m = .ok () (m.withStack (m.stack.set i v hlt)) := by
  unfold writeRelative
  rw [Machine.slot?_of_mem hb hi hlt]

/-- A write relative to the frame pointer that leaves the occupied slots. -/
theorem writeRelative_of_not_mem (hb : m.Bounded) {offset : Int64} (v : Int64)
    (h : ¬ (0 ≤ m.fp + offset.toInt ∧ m.fp + offset.toInt < m.stack.size)) :
    writeRelative offset v m =
      .error { m.site with reason := .frameOffset m.fp offset m.sp } m := by
  unfold writeRelative
  rw [Machine.slot?_of_not_mem hb h]
  rfl

end Action

end StackMachine
