import StackMachine.Proofs.Discipline

/-!
# Arithmetic and comparisons

The seven instructions that replace the two topmost words act on exact integers as far as words of
64 bits go. Sums, differences and products are reduced to the range of words, which is what
`Int.bmod` by the number of words does. Quotients are truncated toward zero: `IsQuotient` says so by
the remainder, which is smaller than the divisor and on the side of the dividend, and no other
quotient has such a remainder. One quotient alone is out of range, that of the least word by `-1`.

What an instruction puts in the place of two words does not depend on the machine around them
(`Opcode.Yields`). So the comparisons can be compared with each other, which are different
instructions.
-/

namespace StackMachine

/-! ## Instructions on two words -/

/-- The machine is about to execute `op` on `a` and, above it, `b`, with `rest` below the two. -/
structure Machine.Applies (m : Machine) (op : Opcode) (rest : List Int64) (a b : Int64) :
    Prop where
  ready : m.Ready
  opcode_eq : m.opcode? = some op
  stack_eq : m.stack.toList = rest ++ [a, b]

/-- On every machine the instruction replaces `a` and `b` by `v` and moves past its opcode. Nothing
else that instructions see changes, and the machine runs on. -/
def Opcode.Yields (op : Opcode) (a b v : Int64) : Prop :=
  ∀ (m : Machine) (rest : List Int64), m.Applies op rest a b →
    m.step.view = { m.view with stack := rest ++ [v], pc := m.pc + 1 } ∧ m.step.status = .running

namespace Machine.Applies

variable {m : Machine} {op : Opcode} {rest : List Int64} {a b : Int64}

/-- The two words are the topmost of the stack. -/
theorem size_eq (h : m.Applies op rest a b) : m.stack.size = rest.length + 2 := by
  rw [← m.stack.length_toList, h.stack_eq, List.length_append]
  rfl

/-- There are two words. -/
theorem fewer (h : m.Applies op rest a b) : (Table.fewer m 2).fails = false := by
  have hsize := h.size_eq
  exact decide_eq_false (by omega)

/-- The word on top. -/
theorem top_eq (h : m.Applies op rest a b) : Table.top m = b := by
  have hindex : m.stack.size - 1 = rest.length + 1 := by
    rw [h.size_eq]
    rfl
  rw [Table.top, Stack.slot, hindex, h.stack_eq, List.getElem?_append_right (Nat.le_add_right _ _),
    Nat.add_sub_cancel_left]
  rfl

/-- The word below it. -/
theorem below_eq (h : m.Applies op rest a b) : Table.below m = a := by
  have hindex : m.stack.size - 2 = rest.length := by
    rw [h.size_eq]
    rfl
  rw [Table.below, Stack.slot, hindex, h.stack_eq, List.getElem?_append_right (Nat.le_refl _),
    Nat.sub_self]
  rfl

/-- The view in which a word takes the place of the two. -/
theorem replace_eq (h : m.Applies op rest a b) (v : Int64) :
    Table.replace m 2 [v] 1 = { m.view with stack := rest ++ [v], pc := m.pc + 1 } := by
  have hkept : m.stack.size - 2 = rest.length := by
    rw [h.size_eq]
    rfl
  rw [Table.replace, hkept, h.stack_eq, List.take_left' rfl]
  rfl

end Machine.Applies

namespace Opcode

variable {op : Opcode} {a b v : Int64}

/-- An instruction yields a word if its row says so. No bounds of the machine are needed, since the
instruction neither loads nor stores. -/
theorem yields_of_row (hload : op ≠ .load) (hstore : op ≠ .store) (hhalt : op ≠ .halt)
    (hrow : ∀ m rest, Machine.Applies m op rest a b →
      (Table.row m op).fault? = none ∧ (Table.row m op).effect = Table.replace m 2 [v] 1) :
    op.Yields a b v := by
  intro m rest h
  obtain ⟨hpass, heffect⟩ := hrow m rest h
  obtain ⟨word, hw, hop⟩ := Option.bind_eq_some_iff.1 h.opcode_eq
  have hagrees : (Table.row m op).Agrees (Action.dispatch m) := by
    rw [Machine.dispatch_of_some hw, hop]
    exact Table.execute_agrees_of_ne hload hstore
  obtain ⟨hview, hstatus⟩ := Machine.step_of_agrees h.ready hagrees hpass
  rw [Machine.halts_of_ne hhalt] at hstatus
  exact ⟨hview.trans (heffect.trans (h.replace_eq v)), hstatus⟩

/-- An operation that cannot fail yields its value. -/
theorem yields_binary (f : Int64 → Int64 → Int64) (hload : op ≠ .load) (hstore : op ≠ .store)
    (hhalt : op ≠ .halt) (hrow : ∀ m, Table.row m op = Table.binary m f) :
    op.Yields a b (f a b) := by
  refine yields_of_row hload hstore hhalt fun m rest h => ?_
  rw [hrow, Table.binary, h.top_eq, h.below_eq]
  exact ⟨Row.fault?_of_passes h.fewer, rfl⟩

/-- A division by another word than zero yields the quotient. -/
theorem yields_div (hb : b ≠ 0) : Opcode.div.Yields a b (a / b) := by
  refine yields_of_row (by decide) (by decide) (by decide) fun m rest h => ?_
  rw [Table.row, h.top_eq, h.below_eq]
  constructor
  · rw [Row.fault?_of_passes h.fewer, Row.fault?_of_passes (decide_eq_false hb)]
    rfl
  · rfl

end Opcode

/-! ## Quotients -/

/-- `q` is the quotient of `x` by `y` whose remainder is smaller than `y` and, unless it is zero,
has the sign of `x`. -/
def IsQuotient (x y q : Int) : Prop :=
  ∃ r, x = y * q + r ∧ |r| < |y| ∧ (r = 0 ∨ r.sign = x.sign)

/-- The quotient that is truncated toward zero is such a quotient, and the only one. -/
theorem isQuotient_iff {x y : Int} (hy : y ≠ 0) (q : Int) :
    IsQuotient x y q ↔ q = x.tdiv y := by
  constructor
  · rintro ⟨r, hx, hlt, hsign⟩
    rw [Int.abs_eq_natAbs, Int.abs_eq_natAbs] at hlt
    -- The remainder is between zero and the divisor, on the side of the dividend.
    rcases Int.le_total 0 x with hpos | hneg
    · have hr : 0 ≤ r := by
        rcases hsign with rfl | hsign
        · exact Int.le_refl 0
        · rw [← Int.sign_nonneg_iff, hsign, Int.sign_nonneg_iff]
          exact hpos
      exact ((Int.tdiv_tmod_unique hpos hy).2 ⟨by omega, hr, by omega⟩).1.symm
    · have hr : r ≤ 0 := by
        rcases hsign with rfl | hsign
        · exact Int.le_refl 0
        · rw [← Int.sign_nonpos_iff, hsign, Int.sign_nonpos_iff]
          exact hneg
      exact ((Int.tdiv_tmod_unique' hneg hy).2 ⟨by omega, by omega, hr⟩).1.symm
  · rintro rfl
    refine ⟨x.tmod y, (Int.mul_tdiv_add_tmod x y).symm, ?_, ?_⟩
    · rw [Int.abs_eq_natAbs, Int.abs_eq_natAbs, Int.natAbs_tmod]
      have hlt := Nat.mod_lt x.natAbs (Int.natAbs_pos.2 hy)
      omega
    · rw [Int.sign_tmod]
      split
      · next hdvd => exact .inl (Int.tmod_eq_zero_of_dvd hdvd)
      · exact .inr rfl

/-- The quotient of two words is a word, with one exception. -/
theorem toInt_div_of_inRange {a b : Int64} (h : ¬ (a.toInt = -2^63 ∧ b.toInt = -1)) :
    (a / b).toInt = a.toInt.tdiv b.toInt := by
  -- Only the least word has a quotient that is out of range, and only by -1.
  by_cases ha : a = Int64.minValue
  · refine Int64.toInt_div_of_ne_right a b fun hb => h ?_
    rw [ha, hb]
    exact ⟨Int64.toInt_minValue, rfl⟩
  · exact Int64.toInt_div_of_ne_left a b ha

/-! ## Comparisons -/

/-- Of two words one is less than the other, or they are equal, and only one of the three is so. -/
theorem word_trichotomy (a b : Int64) :
    (a < b ∧ ¬ b < a ∧ a ≠ b) ∨ (¬ a < b ∧ b < a ∧ a ≠ b) ∨ (¬ a < b ∧ ¬ b < a ∧ a = b) := by
  rw [Int64.lt_iff_toInt_lt, Int64.lt_iff_toInt_lt, Ne, ← Int64.toInt_inj]
  omega

/-- The words of the three comparisons are zero or one, and exactly one of them is one. -/
theorem comparison_words (a b : Int64) :
    let words : List Int64 :=
      [if a < b then 1 else 0, if b < a then 1 else 0, if a = b then 1 else 0]
    (∀ v ∈ words, v = 0 ∨ v = 1) ∧ words.count 1 = 1 := by
  intro words
  -- In each case the three words are literals.
  obtain ⟨hlt, hgt, hne⟩ | ⟨hlt, hgt, hne⟩ | ⟨hlt, hgt, heq⟩ := word_trichotomy a b
  · have hwords : words = [1, 0, 0] := by
      simp only [words, if_pos hlt, if_neg hgt, if_neg hne]
    rw [hwords]
    exact ⟨by simp, by decide⟩
  · have hwords : words = [0, 1, 0] := by
      simp only [words, if_neg hlt, if_pos hgt, if_neg hne]
    rw [hwords]
    exact ⟨by simp, by decide⟩
  · have hwords : words = [0, 0, 1] := by
      simp only [words, if_neg hlt, if_neg hgt, if_pos heq]
    rw [hwords]
    exact ⟨by simp, by decide⟩

/-! ## The instructions -/

/-- On a running machine that has a step left and whose two topmost words are `a` and, above it,
`b`, an instruction puts a word in their place, and changes no other slot, no local, and neither the
frame pointer nor the depth nor the output. For a sum, a difference and a product the word is the
exact result reduced to the range of words. For a quotient, unless the divisor is zero, it is the
one whose remainder is smaller than the divisor and zero or of the sign of the dividend; only the
least word by `-1` gives the least word. A comparison gives zero or one, of the three comparisons
exactly one gives one, the second gives what the first gives on the words exchanged, and the first
says which words are in the order of integers. -/
theorem arithmetic_exact (a b : Int64) :
    (∃ v, Opcode.add.Yields a b v ∧ v.toInt = (a.toInt + b.toInt).bmod (2^64)) ∧
    (∃ v, Opcode.sub.Yields a b v ∧ v.toInt = (a.toInt - b.toInt).bmod (2^64)) ∧
    (∃ v, Opcode.mul.Yields a b v ∧ v.toInt = (a.toInt * b.toInt).bmod (2^64)) ∧
    (b ≠ 0 → ∃ v, Opcode.div.Yields a b v ∧
      (¬ (a.toInt = -2^63 ∧ b.toInt = -1) → ∀ q, IsQuotient a.toInt b.toInt q ↔ q = v.toInt) ∧
      (a.toInt = -2^63 ∧ b.toInt = -1 → v.toInt = -2^63)) ∧
    (∃ less greater equal, Opcode.lt.Yields a b less ∧ Opcode.gt.Yields a b greater ∧
      Opcode.eq.Yields a b equal ∧
      (∀ v ∈ [less, greater, equal], v = 0 ∨ v = 1) ∧ [less, greater, equal].count 1 = 1 ∧
      Opcode.lt.Yields b a greater ∧ (less = 1 ↔ a.toInt < b.toInt)) := by
  refine ⟨⟨a + b, ?_, Int64.toInt_add a b⟩, ⟨a - b, ?_, Int64.toInt_sub a b⟩,
    ⟨a * b, ?_, Int64.toInt_mul a b⟩,
    fun hb => ⟨a / b, Opcode.yields_div hb, fun h q => ?_, ?_⟩, ?_⟩
  · exact Opcode.yields_binary (· + ·) (by decide) (by decide) (by decide) fun _ => rfl
  · exact Opcode.yields_binary (· - ·) (by decide) (by decide) (by decide) fun _ => rfl
  · exact Opcode.yields_binary (· * ·) (by decide) (by decide) (by decide) fun _ => rfl
  · -- The quotient of the words is the exact one, and that is the only quotient of its kind.
    have hy : b.toInt ≠ 0 := fun hzero => hb (Int64.toInt_inj.1 hzero)
    rw [toInt_div_of_inRange h, isQuotient_iff hy]
  · rintro ⟨ha, hb⟩
    rw [Int64.toInt_div, ha, hb]
    decide
  · obtain ⟨hflags, hone⟩ := comparison_words a b
    -- The first comparison is used on the words in both orders.
    have hless (a b : Int64) : Opcode.lt.Yields a b (if a < b then 1 else 0) :=
      Opcode.yields_binary (fun a b => if a < b then 1 else 0) (by decide) (by decide) (by decide)
        fun _ => rfl
    refine ⟨_, _, _, hless a b, ?_, ?_, hflags, hone, hless b a, ?_⟩
    · exact Opcode.yields_binary (fun a b => if b < a then 1 else 0) (by decide) (by decide)
        (by decide) fun _ => rfl
    · exact Opcode.yields_binary (fun a b => if a = b then 1 else 0) (by decide) (by decide)
        (by decide) fun _ => rfl
    · rw [← Int64.lt_iff_toInt_lt]
      split <;> simp_all

/-- The least word divided by `-1`, and the largest word and one added up, with a word below them
each time: both results are the least word, and the word below is untouched. -/
theorem arithmetic_exact_ends :
    let start (op : Opcode) (a b : Int64) :=
      (Machine.new #[Opcode.const.word, 5, Opcode.const.word, a, Opcode.const.word, b, op.word] 0
        0).step.step.step
    (start .div (-9223372036854775808) (-1)).step.view.stack = [5, -9223372036854775808] ∧
      (start .add 9223372036854775807 1).step.view.stack = [5, -9223372036854775808] := by
  intro start
  -- The general statement gives the values of the results, and words of one value are equal.
  have hleast {v : Int64} (hv : v.toInt = -2^63) : v = -9223372036854775808 :=
    Int64.toInt_inj.1 (hv.trans (by decide))
  constructor
  · obtain ⟨v, hyields, -, hwraps⟩ :=
      (arithmetic_exact (-9223372036854775808) (-1)).2.2.2.1 (by decide)
    have happlies : (start .div (-9223372036854775808) (-1)).Applies .div [5]
        (-9223372036854775808) (-1) :=
      ⟨⟨by decide +kernel, by decide +kernel⟩, by decide +kernel, by decide +kernel⟩
    rw [(hyields _ _ happlies).1, hleast (hwraps (by decide))]
    rfl
  · obtain ⟨v, hyields, hsum⟩ := (arithmetic_exact 9223372036854775807 1).1
    have happlies : (start .add 9223372036854775807 1).Applies .add [5] 9223372036854775807 1 :=
      ⟨⟨by decide +kernel, by decide +kernel⟩, by decide +kernel, by decide +kernel⟩
    rw [(hyields _ _ happlies).1, hleast (hsum.trans (by decide))]
    rfl

end StackMachine
