import StackMachine.Proofs.Invariant

/-!
# Frame-relative addresses

The slot at an offset from the frame pointer is found by adding the two as words, where the sum may
wrap, and only offsets that fit 32 bits are let through. On a machine in use neither shows. Its
frame pointer fits 32 bits whatever a program has written over its frames, and its stack is far
shorter than that. So the slot that is found is the one at the exact sum, and one is found whenever
the exact sum is the index of an occupied slot.
-/

namespace StackMachine

namespace Machine

variable {m : Machine}

/-- An index is that of an occupied slot exactly if it lies between zero and the top. -/
theorem exists_slot_iff (m : Machine) (index : Int) :
    (∃ i : Nat, i < m.stack.size ∧ index = i) ↔ 0 ≤ index ∧ index ≤ m.sp := by
  have hsp : m.sp = m.stack.size - 1 := rfl
  constructor
  · rintro ⟨i, hlt, rfl⟩
    omega
  · rintro ⟨h0, h1⟩
    exact ⟨index.toNat, by omega, by omega⟩

/-- The slot that is found is the one at the exact sum. -/
theorem slot?_eq_some_iff (hb : m.Bounded) {offset : Int64} {i : Fin m.stack.size} :
    m.slot? offset = some i ↔ m.fp + offset.toInt = i := by
  constructor
  · intro h
    -- The exact sum is inside or not; outside nothing is found, against the hypothesis.
    by_cases hmem : 0 ≤ m.fp + offset.toInt ∧ m.fp + offset.toInt < m.stack.size
    · obtain ⟨index, hindex⟩ := Int.eq_ofNat_of_zero_le hmem.1
      have hlt : index < m.stack.size := by omega
      rw [slot?_of_mem hb hindex hlt] at h
      cases h
      exact hindex
    · rw [slot?_of_not_mem hb hmem] at h
      cases h
  · intro h
    exact slot?_of_mem hb h i.isLt

/-- No slot is found exactly if the exact sum is not between zero and the top. -/
theorem slot?_eq_none_iff (hb : m.Bounded) {offset : Int64} :
    m.slot? offset = none ↔ ¬ (0 ≤ m.fp + offset.toInt ∧ m.fp + offset.toInt ≤ m.sp) := by
  rw [← exists_slot_iff, Option.eq_none_iff_forall_ne_some]
  constructor
  · rintro h ⟨i, hlt, hi⟩
    exact h ⟨i, hlt⟩ ((slot?_eq_some_iff hb).2 hi)
  · intro h i hi
    exact h ⟨i, i.isLt, (slot?_eq_some_iff hb).1 hi⟩

end Machine

namespace Stack

/-- Setting a slot changes no other cell, occupied or not. -/
theorem getElem?_cells_set (s : Stack) (i : Nat) (v : Int64) (h : i < s.size) (j : Nat) :
    (s.set i v h).cells[j]? = if j = i then some v else s.cells[j]? := by
  unfold set
  rw [Array.getElem?_set]
  by_cases hj : i = j
  · rw [if_pos hj, if_pos hj.symm]
  · rw [if_neg hj, if_neg (Ne.symm hj)]

end Stack

namespace Action

variable {m : Machine} {offset : Int64}

/-- A read and a write where a slot is found. -/
theorem relative_of_slot {i : Fin m.stack.size} (h : m.slot? offset = some i) (v : Int64) :
    readRelative offset m = .ok (m.stack.get i i.isLt) m ∧
      writeRelative offset v m = .ok () (m.withStack (m.stack.set i v i.isLt)) := by
  unfold readRelative writeRelative
  rw [h]
  exact ⟨rfl, rfl⟩

/-- A read and a write where none is found. -/
theorem relative_of_none (h : m.slot? offset = none) (v : Int64) :
    ∃ fault : Fault, fault.kind = .invalidStackAddress ∧
      readRelative offset m = .error fault m ∧ writeRelative offset v m = .error fault m := by
  unfold readRelative writeRelative
  rw [h]
  exact ⟨{ m.site with reason := .frameOffset m.fp offset m.sp }, rfl, rfl, rfl⟩

end Action

/-- On a machine in use, reads and writes relative to the frame pointer succeed exactly if the frame
pointer and the offset add up to the index of an occupied slot, in exact arithmetic. A read takes
the word of that slot and changes nothing. A write changes that slot and no other cell. A read or a
write that fails says so by its kind and changes nothing. -/
theorem frame_addressing_exact {m : Machine} (hreach : m.Reachable) (offset v : Int64) :
    let address : Int := m.fp + offset.toInt
    ((∃ word left, Action.readRelative offset m = .ok word left) ↔
      0 ≤ address ∧ address ≤ m.sp) ∧
    ((∃ left, Action.writeRelative offset v m = .ok () left) ↔
      0 ≤ address ∧ address ≤ m.sp) ∧
    (∀ word left, Action.readRelative offset m = .ok word left →
      (∃ i : Nat, i = address ∧ m.stack.toList[i]? = some word) ∧ left = m) ∧
    (∀ left, Action.writeRelative offset v m = .ok () left →
      ∃ s, left = m.withStack s ∧ s.size = m.stack.size ∧ s.capacity = m.stack.capacity ∧
        ∀ i : Nat, s.cells[i]? = if i = address then some v else m.stack.cells[i]?) ∧
    (∀ fault left, Action.readRelative offset m = .error fault left →
      fault.kind = .invalidStackAddress ∧ left = m) ∧
    (∀ fault left, Action.writeRelative offset v m = .error fault left →
      fault.kind = .invalidStackAddress ∧ left = m) := by
  intro address
  have hb := hreach.bounded
  -- Reads and writes look for the same slot, so one case split serves all six statements.
  cases hslot : m.slot? offset with
  | none =>
    have hout : ¬ (0 ≤ address ∧ address ≤ m.sp) := (Machine.slot?_eq_none_iff hb).1 hslot
    obtain ⟨fault, hkind, hread, hwrite⟩ := Action.relative_of_none hslot v
    -- Both actions fail with the same fault, which leaves the two statements about failures.
    rw [hread, hwrite]
    refine ⟨⟨?_, fun h => absurd h hout⟩, ⟨?_, fun h => absurd h hout⟩, ?_, ?_, ?_, ?_⟩
    · rintro ⟨word, left, ⟨⟩⟩
    · rintro ⟨left, ⟨⟩⟩
    · rintro word left ⟨⟩
    · rintro left ⟨⟩
    · rintro fault left ⟨⟩
      exact ⟨hkind, rfl⟩
    · rintro fault left ⟨⟩
      exact ⟨hkind, rfl⟩
  | some i =>
    have haddress : address = (i : Nat) := (Machine.slot?_eq_some_iff hb).1 hslot
    have hin : 0 ≤ address ∧ address ≤ m.sp :=
      (m.exists_slot_iff address).1 ⟨i, i.isLt, haddress⟩
    obtain ⟨hread, hwrite⟩ := Action.relative_of_slot hslot v
    rw [hread, hwrite]
    refine ⟨⟨fun _ => hin, fun _ => ⟨_, _, rfl⟩⟩, ⟨fun _ => hin, fun _ => ⟨_, rfl⟩⟩, ?_, ?_, ?_, ?_⟩
    · rintro word left ⟨⟩
      exact ⟨⟨i, haddress.symm, m.stack.getElem?_toList_get i i.isLt⟩, rfl⟩
    · rintro left ⟨⟩
      refine ⟨m.stack.set i v i.isLt, rfl, rfl, m.stack.capacity_set i v i.isLt, fun j => ?_⟩
      -- Cells have natural indices, and the address is an integer.
      rw [Stack.getElem?_cells_set, haddress]
      simp only [Int.natCast_inj]
    · rintro fault left ⟨⟩
    · rintro fault left ⟨⟩

/-- A function overwrites the frame pointer it has saved by the largest one a return accepts. Its
return leaves one word on the stack, and the one offset that reaches it is almost at the end of what
fits 32 bits. The next one, and the largest offset of all, reach nothing. -/
theorem frame_addressing_exact_forged :
    let code := #[Opcode.call.word, 3, 0, Opcode.const.word, 2147483647, Opcode.store.word, -1,
      Opcode.const.word, 7, Opcode.ret.word]
    let m := (Machine.new code 0 0 { stackCapacity := 8 }).step.step.step.step.step
    m.fp = 2147483647 ∧ m.stack.toList = [7] ∧
      (∃ word left, Action.readRelative (-2147483647) m = .ok word left) ∧
      (¬ ∃ word left, Action.readRelative (-2147483648) m = .ok word left) ∧
      ¬ ∃ left, Action.writeRelative 9223372036854775807 0 m = .ok () left := by
  intro code m
  -- Five steps: the call, the constant, the store into the frame, the value and the return.
  have hreach : m.Reachable :=
    (Machine.reachable_new code 0 0 { stackCapacity := 8 }).step.step.step.step.step
  have hfp : m.fp = 2147483647 := by decide +kernel
  have hsp : m.sp = 0 := by decide +kernel
  have hlow : (-2147483647 : Int64).toInt = -2147483647 := by decide
  have hbelow : (-2147483648 : Int64).toInt = -2147483648 := by decide
  have hhigh : (9223372036854775807 : Int64).toInt = 9223372036854775807 := by decide
  refine ⟨hfp, by decide +kernel, ?_, ?_, ?_⟩
  · rw [(frame_addressing_exact hreach (-2147483647) 0).1, hfp, hsp, hlow]
    decide
  · rw [(frame_addressing_exact hreach (-2147483648) 0).1, hfp, hsp, hbelow]
    decide
  · rw [(frame_addressing_exact hreach 9223372036854775807 0).2.1, hfp, hsp, hhigh]
    decide

end StackMachine
