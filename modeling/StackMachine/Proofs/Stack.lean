import StackMachine.Stack

/-!
# The stack as a list

Everything that is proved about a stack is stated through `toList`, the occupied slots from the
bottom up, and its capacity. This file says once what each operation does to the two; the cells of
the array do not appear after it.
-/

namespace StackMachine.Stack

/-! ## Slots -/

/-- The list has as many words as slots are occupied. -/
@[simp]
theorem length_toList (s : Stack) : s.toList.length = s.size := by
  unfold toList
  rw [List.length_take, Array.length_toList]
  exact Nat.min_eq_left s.size_le

/-- No more slots are occupied than there are. -/
theorem size_le_capacity (s : Stack) : s.size ≤ s.capacity := s.size_le

/-- A position of the list is the cell of the same index, as long as it is occupied. -/
theorem getElem?_toList (s : Stack) (i : Nat) :
    s.toList[i]? = if i < s.size then s.cells[i]? else none := by
  unfold toList
  rw [List.getElem?_take, Array.getElem?_toList]

/-- The word of an occupied slot is the list's. -/
theorem getElem?_toList_get (s : Stack) (i : Nat) (h : i < s.size) :
    s.toList[i]? = some (s.get i h) := by
  rw [getElem?_toList, if_pos h]
  exact Array.getElem?_eq_getElem (Nat.lt_of_lt_of_le h s.size_le)

/-- The word in slot `i`, or zero if the slot is not occupied. -/
def slot (s : Stack) (i : Nat) : Int64 :=
  s.toList[i]?.getD 0

/-- An occupied slot holds its word of the list. -/
theorem getElem?_toList_slot (s : Stack) (i : Nat) (h : i < s.size) :
    s.toList[i]? = some (s.slot i) := by
  rw [slot, getElem?_toList_get s i h, Option.getD_some]

/-- Reading an occupied slot. -/
theorem get_eq_slot (s : Stack) (i : Nat) (h : i < s.size) : s.get i h = s.slot i := by
  rw [slot, getElem?_toList_get s i h, Option.getD_some]

/-- The topmost word is in the last slot. -/
theorem top_eq_slot (s : Stack) (h : 0 < s.size) : s.top h = s.slot (s.size - 1) :=
  get_eq_slot s (s.size - 1) (by omega)

/-- The first `i + 1` words are the first `i` and the one in slot `i`. -/
theorem take_succ_toList (s : Stack) (i : Nat) (h : i < s.size) :
    s.toList.take (i + 1) = s.toList.take i ++ [s.slot i] := by
  rw [List.take_add_one, getElem?_toList_slot s i h]
  rfl

/-- Taking as many words as there are takes all. -/
@[simp]
theorem take_size_toList (s : Stack) : s.toList.take s.size = s.toList :=
  List.take_of_length_le (Nat.le_of_eq s.length_toList)

/-- Two stacks that agree in the first `k` slots have the same first `k` words. -/
theorem take_eq_of_slots {s t : Stack} {k : Nat} (hs : k ≤ s.size) (ht : k ≤ t.size)
    (h : ∀ i < k, t.slot i = s.slot i) : t.toList.take k = s.toList.take k := by
  apply List.ext_getElem?
  intro i
  rw [List.getElem?_take, List.getElem?_take]
  by_cases hi : i < k
  · rw [if_pos hi, if_pos hi, getElem?_toList_slot t i (by omega),
      getElem?_toList_slot s i (by omega), h i hi]
  · rw [if_neg hi, if_neg hi]

/-- A stack whose list is that of another cut to `k` words, and more: its size. -/
theorem size_of_append {s t : Stack} {k : Nat} {words : List Int64} (hk : k ≤ s.size)
    (h : t.toList = s.toList.take k ++ words) : t.size = k + words.length := by
  rw [← length_toList, h, List.length_append, List.length_take, length_toList, Nat.min_eq_left hk]

/-- A stack whose list is that of another cut to `k` words, and more: the slots below `k`. -/
theorem slot_of_append {s t : Stack} {k i : Nat} {words : List Int64} (hk : k ≤ s.size)
    (h : t.toList = s.toList.take k ++ words) (hi : i < k) : t.slot i = s.slot i := by
  have hlen : i < (s.toList.take k).length := by
    rw [List.length_take, length_toList]
    omega
  rw [slot, h, List.getElem?_append_left hlen, List.getElem?_take, if_pos hi, slot]

/-- A stack whose list is that of another, and more: the slots after it. -/
theorem slot_add_of_append {s t : Stack} {words : List Int64} (h : t.toList = s.toList ++ words)
    (j : Nat) : t.slot (s.size + j) = words[j]?.getD 0 := by
  rw [slot, h, ← s.length_toList, List.getElem?_append_right (Nat.le_add_right _ _),
    Nat.add_sub_cancel_left]

/-! ## Operations -/

/-- The empty stack has the capacity it was made with. -/
@[simp]
theorem capacity_empty (capacity : Nat) : (empty capacity).capacity = capacity :=
  Array.size_replicate

/-- A push adds one word at the end. -/
@[simp]
theorem toList_push (s : Stack) (v : Int64) (h : s.size < s.capacity) :
    (s.push v h).toList = s.toList ++ [v] := by
  apply List.ext_getElem?
  intro i
  rw [getElem?_toList, List.getElem?_append, length_toList, getElem?_toList]
  simp only [push, Array.getElem?_set]
  -- Below the top the cell is not the one that is set, at the top it is, and above it neither side
  -- has a word.
  by_cases hi : i < s.size
  · rw [if_pos (by omega), if_neg (by omega), if_pos hi, if_pos hi]
  · rcases Nat.lt_or_ge s.size i with hlt | hge
    · rw [if_neg (by omega), if_neg hi]
      symm
      exact List.getElem?_eq_none (by simp; omega)
    · have heq : i = s.size := by omega
      subst heq
      simp

/-- A push occupies one more slot. -/
@[simp]
theorem size_push (s : Stack) (v : Int64) (h : s.size < s.capacity) :
    (s.push v h).size = s.size + 1 := rfl

/-- A push keeps the capacity. -/
@[simp]
theorem capacity_push (s : Stack) (v : Int64) (h : s.size < s.capacity) :
    (s.push v h).capacity = s.capacity := by
  unfold push
  rw [capacity, Array.size_set]

/-- A pop gives up the last word. -/
@[simp]
theorem toList_pop (s : Stack) (h : 0 < s.size) :
    (s.pop h).toList = s.toList.take (s.size - 1) := by
  apply List.ext_getElem?
  intro i
  rw [getElem?_toList, List.getElem?_take, getElem?_toList]
  simp only [pop, Array.getElem?_set]
  -- The cell that is cleared is the one that is no longer occupied, so it does not show in the
  -- list.
  by_cases hi : i < s.size - 1
  · rw [if_pos hi, if_neg (by omega), if_pos hi, if_pos (by omega)]
  · rw [if_neg hi, if_neg hi]

/-- A pop frees one slot. -/
@[simp]
theorem size_pop (s : Stack) (h : 0 < s.size) : (s.pop h).size = s.size - 1 := rfl

/-- A pop keeps the capacity. -/
@[simp]
theorem capacity_pop (s : Stack) (h : 0 < s.size) : (s.pop h).capacity = s.capacity := by
  unfold pop
  rw [capacity, Array.size_set]

/-- Overwriting a slot changes that word of the list. -/
@[simp]
theorem toList_set (s : Stack) (i : Nat) (v : Int64) (h : i < s.size) :
    (s.set i v h).toList = s.toList.set i v := by
  unfold toList set
  rw [Array.toList_set, List.take_set]

/-- Overwriting a slot keeps the capacity. -/
@[simp]
theorem capacity_set (s : Stack) (i : Nat) (v : Int64) (h : i < s.size) :
    (s.set i v h).capacity = s.capacity := by
  unfold set
  rw [capacity, Array.size_set]

/-- Giving up `n` words shortens the list by as many. -/
theorem toList_drop (s : Stack) (n : Nat) : (s.drop n).toList = s.toList.take (s.size - n) := by
  -- Words are given up one by one, each from the stack that the one before has left.
  induction n generalizing s with
  | zero =>
    rw [drop, Nat.sub_zero]
    exact s.take_size_toList.symm
  | succ n ih =>
    rw [drop]
    split
    · rw [ih, toList_pop, List.take_take]
      congr 1
      simp only [pop]
      omega
    · -- Nothing is left to give up, and a prefix of the empty list is empty.
      have hzero : s.size = 0 := by omega
      have hnil : s.toList = [] := List.eq_nil_of_length_eq_zero (by rw [length_toList, hzero])
      rw [hnil, List.take_nil]

/-- Truncating to `n` words keeps the first `n` of the list. -/
@[simp]
theorem toList_truncate (s : Stack) (n : Nat) : (s.truncate n).toList = s.toList.take n := by
  rw [truncate, toList_drop]
  -- Asking for more words than there are gives up none of them.
  rcases Nat.le_total n s.size with h | h
  · rw [Nat.sub_sub_self h]
  · rw [List.take_of_length_le (by rw [length_toList]; omega),
      List.take_of_length_le (by rw [length_toList]; exact h)]

/-- Giving up words keeps the capacity. -/
@[simp]
theorem capacity_drop (s : Stack) (n : Nat) : (s.drop n).capacity = s.capacity := by
  induction n generalizing s with
  | zero => rfl
  | succ n ih =>
    rw [drop]
    split
    · rw [ih, capacity_pop]
    · rfl

/-- Truncating keeps the capacity. -/
@[simp]
theorem capacity_truncate (s : Stack) (n : Nat) : (s.truncate n).capacity = s.capacity :=
  capacity_drop s (s.size - n)

/-! ## Cutting a stack down -/

/-- `s` is `t` with only its first `k` words left. -/
structure Cut (t : Stack) (k : Nat) (s : Stack) : Prop where
  le_size : k ≤ t.size
  toList_eq : s.toList = t.toList.take k
  capacity_eq : s.capacity = t.capacity

namespace Cut

variable {s t : Stack} {k : Nat}

/-- A stack is itself with all its words left. -/
theorem refl (s : Stack) : Cut s s.size s :=
  ⟨Nat.le_refl _, s.take_size_toList.symm, rfl⟩

/-- As many words are left as the cut says. -/
theorem size_eq (h : Cut t k s) : s.size = k := by
  rw [← length_toList, h.toList_eq, List.length_take, length_toList]
  exact Nat.min_eq_left h.le_size

/-- Where a word has been cut off, there is room for one. -/
theorem size_lt_capacity (h : Cut t k s) (hk : k < t.size) : s.size < s.capacity := by
  rw [h.size_eq, h.capacity_eq]
  exact Nat.lt_of_lt_of_le hk t.size_le_capacity

/-- The words that are left are in their slots. -/
theorem slot_eq (h : Cut t k s) {i : Nat} (hi : i < k) : s.slot i = t.slot i := by
  rw [slot, h.toList_eq, List.getElem?_take, if_pos hi, slot]

/-- The topmost word that is left. -/
theorem top_eq (h : Cut t k s) (hpos : 0 < s.size) : s.top hpos = t.slot (k - 1) := by
  have hk := h.size_eq
  rw [top_eq_slot, hk]
  exact h.slot_eq (by omega)

/-- A pop cuts one word more. -/
theorem pop (h : Cut t k s) (hpos : 0 < s.size) : Cut t (k - 1) (s.pop hpos) := by
  refine ⟨Nat.le_trans (Nat.sub_le _ _) h.le_size, ?_, ?_⟩
  · rw [toList_pop, h.toList_eq, List.take_take, h.size_eq, Nat.min_eq_left (Nat.sub_le _ _)]
  · rw [capacity_pop, h.capacity_eq]

/-- Truncating cuts down to the words that are asked for. -/
theorem truncate (h : Cut t k s) {j : Nat} (hj : j ≤ k) : Cut t j (s.truncate j) := by
  refine ⟨Nat.le_trans hj h.le_size, ?_, ?_⟩
  · rw [toList_truncate, h.toList_eq, List.take_take, Nat.min_eq_left hj]
  · rw [capacity_truncate, h.capacity_eq]

end Cut

end StackMachine.Stack
