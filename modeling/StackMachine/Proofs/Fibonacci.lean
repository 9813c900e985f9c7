import StackMachine.Program
import StackMachine.Proofs.Blocks

/-!
# The program for the Fibonacci numbers

The procedure of the program calls itself twice. `Serves` is the contract of one call, whatever lies
on the stack below its argument: with enough room it leaves the number in place of the argument and
the caller's frame as it was, and with less it overflows. The contract follows by induction on the
argument (`serves`), since both inner calls are of smaller ones.

The room that a call needs is exact. A call for less than three needs six words: its argument, its
frame of three, and the two words of a comparison. Any other call has its argument and its frame on
the stack during the first inner call, and the first result besides during the second, so that it
needs four words more than the call for one less and five more than the call for two less
(`fibRoom_of_three_le`). The second decides for three, and the first for every number above.
-/

namespace StackMachine

namespace Program

/-! ## The numbers and the room for them -/

/-- The number that the procedure returns, before it is reduced to a word. -/
def fib (n : Int) : Nat :=
  if n < 0 then 1 else Nat.fib n.toNat

/-- How many words of the stack a call of the procedure needs, its argument included. -/
def fibRoom (n : Int) : Nat :=
  if n ≤ 2 then 6 else (4 * n - 1).toNat

/-- Below three, all numbers but the zeroth are one. -/
theorem fib_of_lt_three {n : Int} (hzero : n ≠ 0) (hlt : n < 3) : fib n = 1 := by
  unfold fib
  rcases lt_or_ge n 0 with hneg | hpos
  · rw [if_pos hneg]
  · have hcases : n = 1 ∨ n = 2 := by omega
    rcases hcases with rfl | rfl
    · exact Nat.fib_one
    · exact Nat.fib_two

/-- From three on, a number is the sum of the two before it. -/
theorem fib_of_three_le {n : Int} (hn : 3 ≤ n) : fib n = fib (n - 1) + fib (n - 2) := by
  -- The recurrence is known of natural numbers, and from three on the argument is one.
  obtain ⟨k, rfl⟩ : ∃ k : Nat, n = k + 2 := ⟨(n - 2).toNat, by omega⟩
  have hone : ((k : Int) + 2 - 1).toNat = k + 1 := by omega
  have htwo : ((k : Int) + 2 - 2).toNat = k := by omega
  have hself : ((k : Int) + 2).toNat = k + 2 := by omega
  unfold fib
  rw [if_neg (by omega), if_neg (by omega), if_neg (by omega), hone, htwo, hself, Nat.fib_add_two,
    Nat.add_comm]

/-- Every call needs room for a comparison. -/
theorem six_le_fibRoom (n : Int) : 6 ≤ fibRoom n := by
  unfold fibRoom
  split <;> omega

/-- From three on, the room is that of the inner calls with what lies below them. -/
theorem fibRoom_of_three_le {n : Int} (hn : 3 ≤ n) :
    fibRoom n = max (4 + fibRoom (n - 1)) (5 + fibRoom (n - 2)) := by
  unfold fibRoom
  split <;> split <;> split <;> omega

/-! ## The parts of the procedure -/

variable {n x : Int64} {capacity base depth p : Nat} {s stack : List Int64} {out : Sink}

/-- The program has forty-five words. -/
theorem size_fibonacci (n : Int64) : (fibonacci n).words.size = 45 := rfl

/-- What instructions of the procedure see, at an offset, if its argument lies at `base`. -/
abbrev serving (base pc : Nat) (stack : List Int64) (depth : Nat) (out : Sink) : View :=
  ⟨stack, [], pc, base + 3, depth, out⟩

/-- Three instructions at `p` that apply an operation to the argument and a constant. -/
structure OperationAt (n : Int64) (p : Nat) (op : Opcode) (w : Int64) : Prop where
  load : (fibonacci n).words[p]? = some Opcode.load.word
  index : (fibonacci n).words[p + 1]? = some (-3)
  const : (fibonacci n).words[p + 2]? = some Opcode.const.word
  word : (fibonacci n).words[p + 3]? = some w
  apply : (fibonacci n).words[p + 4]? = some op.word

/-- The argument lies three words below the frame pointer. -/
theorem argument_address (base : Nat) : ((base + 3 : Nat) : Int) + (-3 : Int64).toInt = base := by
  have hindex : (-3 : Int64).toInt = -3 := rfl
  omega

/-- An operation on the argument needs two words and leaves its result. -/
theorem operation_block {op : Opcode} {w : Int64} (f : Int64 → Int64 → Int64)
    (hat : OperationAt n p op w) (hrow : ∀ m, Table.row m op = Table.binary m f)
    (harg : stack[base]? = some x) (hroom : stack.length + 2 ≤ capacity) :
    Block (fibonacci n).words capacity 3 (serving base p stack depth out)
      (serving base (p + 5) (stack ++ [f x w]) depth out) := by
  have hlength : (stack ++ [x]).length = stack.length + 1 := List.length_append
  calc
    Block (fibonacci n).words capacity 1 (serving base p stack depth out)
        (serving base (p + 2) (stack ++ [x]) depth out) :=
      block_load hat.load hat.index (argument_address base) harg (by omega)
    Block (fibonacci n).words capacity 1 _
        (serving base (p + 4) (stack ++ [x] ++ [w]) depth out) :=
      block_const hat.const hat.word (by omega)
    Block (fibonacci n).words capacity 1 _
        (serving base (p + 5) (stack ++ [f x w]) depth out) :=
      block_binary op f hrow hat.apply

/-- Without room for two words the operation overflows. -/
theorem overflows_operation {op : Opcode} {w : Int64} (hat : OperationAt n p op w)
    (harg : stack[base]? = some x) (hfull : capacity < stack.length + 2) :
    Overflows (fibonacci n).words capacity (serving base p stack depth out) := by
  have hlt : base < stack.length := (List.getElem?_eq_some_iff.1 harg).1
  have hlength : (stack ++ [x]).length = stack.length + 1 := List.length_append
  -- There is room for one word, and the constant is the one that does not fit, or for none.
  rcases Nat.lt_or_ge stack.length capacity with hroom | hroom
  · have hload : Block (fibonacci n).words capacity 1 (serving base p stack depth out)
        (serving base (p + 2) (stack ++ [x]) depth out) :=
      block_load hat.load hat.index (argument_address base) harg hroom
    exact .of_block hload rfl (overflows_const hat.const hat.word (by omega))
  · exact overflows_load hat.load hat.index (argument_address base) hlt hroom

/-- The two tests at the head of the procedure: an argument of zero leads to 7, any other below
three to 17, and all others to 20. -/
theorem tests_block (n : Int64) (harg : stack[base]? = some x)
    (hroom : stack.length + 2 ≤ capacity) :
    ∃ k, Block (fibonacci n).words capacity k (serving base 0 stack depth out)
      (serving base (if x = 0 then 7 else if x < 3 then 17 else 20) stack depth out) := by
  have hzero : OperationAt n 0 .eq 0 := ⟨rfl, rfl, rfl, rfl, rfl⟩
  have hthree : OperationAt n 10 .lt 3 := ⟨rfl, rfl, rfl, rfl, rfl⟩
  have hfirst : Block (fibonacci n).words capacity 3 (serving base 0 stack depth out)
      (serving base 5 (stack ++ [if x = 0 then 1 else 0]) depth out) :=
    operation_block (fun a b => if a = b then 1 else 0) hzero (fun _ => rfl) harg hroom
  -- Where the first test succeeds, the jump is not taken.
  by_cases hx : x = 0
  · rw [if_pos hx] at hfirst ⊢
    exact ⟨_, hfirst.trans (block_jmpf rfl rfl (by decide))⟩
  rw [if_neg hx] at hfirst ⊢
  have hnext : Block (fibonacci n).words capacity 1 (serving base 5 (stack ++ [0]) depth out)
      (serving base 10 stack depth out) :=
    block_jmpf_taken rfl rfl rfl (by rw [size_fibonacci]; decide)
  have hsecond : Block (fibonacci n).words capacity 3 (serving base 10 stack depth out)
      (serving base 15 (stack ++ [if x < 3 then 1 else 0]) depth out) :=
    operation_block (fun a b => if a < b then 1 else 0) hthree (fun _ => rfl) harg hroom
  by_cases hlt : x < 3
  · rw [if_pos hlt] at hsecond ⊢
    exact ⟨_, (hfirst.trans hnext).trans (hsecond.trans (block_jmpf rfl rfl (by decide)))⟩
  · rw [if_neg hlt] at hsecond ⊢
    have hlast : Block (fibonacci n).words capacity 1 (serving base 15 (stack ++ [0]) depth out)
        (serving base 20 stack depth out) :=
      block_jmpf_taken rfl rfl rfl (by rw [size_fibonacci]; decide)
    exact ⟨_, (hfirst.trans hnext).trans (hsecond.trans hlast)⟩

/-! ## The calls -/

/-- A call of the procedure at `p`. -/
structure CallAt (n : Int64) (p : Nat) : Prop where
  call : (fibonacci n).words[p]? = some Opcode.call.word
  target : (fibonacci n).words[p + 1]? = some 0
  count : (fibonacci n).words[p + 2]? = some 1
  next : p + 3 < 45

/-- The stack in a call at `p` from a frame at `fp`, up to the frame of the call. -/
abbrev called (s : List Int64) (x : Int64) (fp p : Nat) : List Int64 :=
  s ++ [x] ++ [1, Int64.ofNat fp, Int64.ofNat (p + 3)]

/-- The argument and its frame are four words. -/
theorem length_called (s : List Int64) (x : Int64) (fp p : Nat) :
    (called s x fp p).length = s.length + 4 := by
  rw [List.length_append, List.length_append]
  rfl

/-- The argument of a call lies where the stack of its caller ended. -/
theorem argument_called (s : List Int64) (x : Int64) (fp p : Nat) :
    (called s x fp p)[s.length]? = some x := by
  unfold called
  rw [List.append_assoc, List.getElem?_append_right (Nat.le_refl _), Nat.sub_self]
  rfl

/-- A call enters the procedure. -/
theorem call_block (hat : CallAt n p) (x : Int64) (fp : Nat) (hroom : s.length + 4 ≤ capacity) :
    Block (fibonacci n).words capacity 1 ⟨s ++ [x], [], p, fp, depth, out⟩
      (serving s.length 0 (called s x fp p) (depth + 1) out) := by
  have hlength : (s ++ [x]).length = s.length + 1 := List.length_append
  have hcall : Block (fibonacci n).words capacity 1 ⟨s ++ [x], [], p, fp, depth, out⟩
      ⟨called s x fp p, [], (0 : Nat), (s ++ [x]).length + 2, depth + 1, out⟩ :=
    block_call (n := 1) hat.call hat.target hat.count rfl (by omega) (by omega) rfl
      (by rw [size_fibonacci]; decide)
  rw [hlength] at hcall
  exact hcall

/-- A return to the caller with a result. -/
theorem return_block {q fp : Nat} {w : Int64} (hat : CallAt n p) (hfp : fp < 2 ^ 31)
    (hret : (fibonacci n).words[q]? = some Opcode.ret.word) :
    Block (fibonacci n).words capacity 1
      (serving s.length q (called s x fp p ++ [w]) (depth + 1) out)
      ⟨s ++ [w], [], (p + 3 : Nat), fp, depth, out⟩ := by
  have hnext := hat.next
  exact block_ret hret (show (1 : Int64).toInt = [x].length from rfl)
    (Int64.toInt_ofNat_of_lt (by omega)) hfp (Int64.toInt_ofNat_of_lt (by omega))
    (by rw [size_fibonacci]; exact hnext)

/-- A call with room for its frame and a comparison comes to where its argument belongs. -/
theorem enter_block (hat : CallAt n p) (x : Int64) (fp depth : Nat) (out : Sink)
    (hroom : s.length + 6 ≤ capacity) :
    ∃ k, Block (fibonacci n).words capacity k ⟨s ++ [x], [], p, fp, depth, out⟩
      (serving s.length (if x = 0 then 7 else if x < 3 then 17 else 20) (called s x fp p)
        (depth + 1) out) := by
  have hlength := length_called s x fp p
  obtain ⟨k, htests⟩ := tests_block n (argument_called s x fp p)
    (show (called s x fp p).length + 2 ≤ capacity by omega)
  exact ⟨_, (call_block hat x fp (by omega)).trans htests⟩

/-- A call without that room overflows. -/
theorem overflows_enter (hat : CallAt n p) (x : Int64) (fp : Nat)
    (hfull : capacity < s.length + 6) :
    Overflows (fibonacci n).words capacity ⟨s ++ [x], [], p, fp, depth, out⟩ := by
  have hlength : (s ++ [x]).length = s.length + 1 := List.length_append
  -- The frame does not fit, or it does and the first comparison does not.
  rcases Nat.lt_or_ge capacity (s.length + 4) with hframe | hframe
  · exact overflows_call (n := 1) hat.call hat.target hat.count rfl (by omega) (by omega)
  · have hcalled := length_called s x fp p
    have hat' : OperationAt n 0 .eq 0 := ⟨rfl, rfl, rfl, rfl, rfl⟩
    exact .of_block (call_block hat x fp hframe) rfl
      (overflows_operation hat' (argument_called s x fp p) (by omega))

/-! ## The contract of a call -/

/-- The contract of a call with argument `x`: if there is room for it, the number takes the place of
the argument and the caller goes on behind the call; otherwise the call overflows. -/
structure Serves (n : Int64) (capacity : Nat) (x : Int64) : Prop where
  returns : ∀ {s : List Int64} {p fp depth : Nat} {out : Sink}, CallAt n p → fp < 2 ^ 31 →
    s.length + fibRoom x.toInt ≤ capacity →
    ∃ k, Block (fibonacci n).words capacity k ⟨s ++ [x], [], p, fp, depth, out⟩
      ⟨s ++ [Int64.ofNat (fib x.toInt)], [], (p + 3 : Nat), fp, depth, out⟩
  overflows : ∀ {s : List Int64} {p fp depth : Nat} {out : Sink}, CallAt n p → fp < 2 ^ 31 →
    capacity < s.length + fibRoom x.toInt →
    Overflows (fibonacci n).words capacity ⟨s ++ [x], [], p, fp, depth, out⟩

/-- The contract for arguments below three, where no inner call is made. -/
theorem serves_of_lt_three (n : Int64) (capacity : Nat) (hx : x.toInt < 3) :
    Serves n capacity x := by
  have hroom : fibRoom x.toInt = 6 := if_pos (by omega)
  constructor
  · intro s p fp depth out hat hfp hle
    rw [hroom] at hle
    have hlength := length_called s x fp p
    obtain ⟨k, henter⟩ := enter_block hat x fp depth out hle
    -- Zero has a number of its own; all the others below three share one.
    by_cases hzero : x = 0
    · subst hzero
      have hconst : Block (fibonacci n).words capacity 1
          (serving s.length 7 (called s 0 fp p) (depth + 1) out)
          (serving s.length 9 (called s 0 fp p ++ [0]) (depth + 1) out) :=
        block_const rfl rfl (by omega)
      exact ⟨_, henter.trans (hconst.trans (return_block hat hfp rfl))⟩
    · have hone : fib x.toInt = 1 :=
        fib_of_lt_three (fun h => hzero (Int64.toInt_inj.1 h)) hx
      have hlt : x < 3 := Int64.lt_iff_toInt_lt.2 hx
      have hconst : Block (fibonacci n).words capacity 1
          (serving s.length 17 (called s x fp p) (depth + 1) out)
          (serving s.length 19 (called s x fp p ++ [1]) (depth + 1) out) :=
        block_const rfl rfl (by omega)
      rw [if_neg hzero, if_pos hlt] at henter
      rw [hone]
      exact ⟨_, henter.trans (hconst.trans (return_block hat hfp rfl))⟩
  · intro s p fp depth out hat _ hlt
    rw [hroom] at hlt
    exact overflows_enter hat x fp hlt

/-- The way of an argument from three on to the first inner call. -/
theorem first_block (hat : CallAt n p) (hx : 3 ≤ x.toInt) (fp depth : Nat) (out : Sink)
    (hroom : s.length + 6 ≤ capacity) :
    ∃ k, Block (fibonacci n).words capacity k ⟨s ++ [x], [], p, fp, depth, out⟩
      (serving s.length 25 (called s x fp p ++ [x - 1]) (depth + 1) out) := by
  have hlength := length_called s x fp p
  have hzero : x ≠ 0 := by
    rintro rfl
    exact absurd hx (by decide)
  have hlt : ¬ x < 3 := by
    rw [Int64.lt_iff_toInt_lt]
    exact not_lt.2 hx
  have hat' : OperationAt n 20 .sub 1 := ⟨rfl, rfl, rfl, rfl, rfl⟩
  obtain ⟨k, henter⟩ := enter_block hat x fp depth out hroom
  rw [if_neg hzero, if_neg hlt] at henter
  exact ⟨_, henter.trans (operation_block (fun a b => a - b) hat' (fun _ => rfl)
    (argument_called s x fp p) (by omega))⟩

/-- The way from the first inner call, whose result is `r`, to the second. -/
theorem second_block (n : Int64) (fp p : Nat) (r : Int64) (hroom : s.length + 7 ≤ capacity) :
    Block (fibonacci n).words capacity 3 (serving s.length 28 (called s x fp p ++ [r]) depth out)
      (serving s.length 33 (called s x fp p ++ [r] ++ [x - 2]) depth out) := by
  have hlength := length_called s x fp p
  have hat : OperationAt n 28 .sub 2 := ⟨rfl, rfl, rfl, rfl, rfl⟩
  have harg : (called s x fp p ++ [r])[s.length]? = some x := by
    rw [List.getElem?_append_left (by omega)]
    exact argument_called s x fp p
  exact operation_block (fun a b => a - b) hat (fun _ => rfl) harg
    (by rw [List.length_append, hlength]; exact hroom)

/-- From three on, the arguments of the inner calls do not wrap around. -/
theorem toInt_inner (hx : 3 ≤ x.toInt) :
    (x - 1).toInt = x.toInt - 1 ∧ (x - 2).toInt = x.toInt - 2 := by
  have htwo : (2 : Int64).toInt = 2 := rfl
  constructor
  · exact toInt_sub_of_le (by decide) (by rw [Int64.toInt_one]; omega)
  · exact toInt_sub_of_le (by decide) (by rw [htwo]; omega)

/-- The contract for arguments from three on, by those of the two inner calls. -/
theorem serves_of_three_le (hx : 3 ≤ x.toInt) (hcapacity : capacity ≤ 2 ^ 20)
    (hone : Serves n capacity (x - 1)) (htwo : Serves n capacity (x - 2)) :
    Serves n capacity x := by
  have hat₁ : CallAt n 25 := ⟨rfl, rfl, rfl, by decide⟩
  have hat₂ : CallAt n 33 := ⟨rfl, rfl, rfl, by decide⟩
  obtain ⟨hx₁, hx₂⟩ := toInt_inner hx
  have hneed := fibRoom_of_three_le hx
  rw [← hx₁, ← hx₂] at hneed
  have hsix := six_le_fibRoom (x - 1).toInt
  -- The sum is that of words, and so reduced in the same way as the number itself.
  have hsum : Int64.ofNat (fib x.toInt) =
      Int64.ofNat (fib (x - 1).toInt) + Int64.ofNat (fib (x - 2).toInt) := by
    rw [fib_of_three_le hx, Int64.ofNat_add, hx₁, hx₂]
  constructor
  · intro s p fp depth out hat hfp hle
    have hlength := length_called s x fp p
    have hlength' (r : Int64) : (called s x fp p ++ [r]).length = s.length + 5 := by
      rw [List.length_append, hlength]
      rfl
    -- The frame of this call is the caller's frame of both inner calls.
    have hfp' : s.length + 3 < 2 ^ 31 := by omega
    obtain ⟨k, hfirst⟩ := first_block hat hx fp depth out (show s.length + 6 ≤ capacity by omega)
    obtain ⟨k₁, hcall₁⟩ := hone.returns hat₁ hfp' (s := called s x fp p) (by omega)
    obtain ⟨k₂, hcall₂⟩ := htwo.returns hat₂ hfp'
      (s := called s x fp p ++ [Int64.ofNat (fib (x - 1).toInt)]) (by rw [hlength']; omega)
    have hadd : Block (fibonacci n).words capacity 1
        (serving s.length 36 (called s x fp p ++ [Int64.ofNat (fib (x - 1).toInt)] ++
          [Int64.ofNat (fib (x - 2).toInt)]) (depth + 1) out)
        (serving s.length 37 (called s x fp p ++ [Int64.ofNat (fib x.toInt)]) (depth + 1) out) := by
      rw [hsum]
      exact block_binary .add (fun a b => a + b) (fun _ => rfl) rfl
    exact ⟨_, (hfirst.trans hcall₁).trans ((second_block n fp p _ (by omega)).trans
      (hcall₂.trans (hadd.trans (return_block hat hfp rfl))))⟩
  · intro s p fp depth out hat hfp hlt
    have hlength := length_called s x fp p
    -- Where the room ends: at this call itself, in the first inner call, or in the second.
    rcases Nat.lt_or_ge capacity (s.length + 6) with hshort | henough
    · exact overflows_enter hat x fp hshort
    have hfp' : s.length + 3 < 2 ^ 31 := by omega
    obtain ⟨k, hfirst⟩ := first_block hat hx fp depth out henough
    rcases Nat.lt_or_ge capacity (s.length + 4 + fibRoom (x - 1).toInt) with hshort | henough₁
    · exact .of_block hfirst rfl (hone.overflows hat₁ hfp' (by omega))
    · -- The first inner call has its room, so it is the second one that has not.
      obtain ⟨k₁, hcall₁⟩ := hone.returns hat₁ hfp' (s := called s x fp p) (by omega)
      have hway := (hfirst.trans hcall₁).trans (second_block (s := s) n fp p _ (by omega))
      refine .of_block hway rfl (htwo.overflows hat₂ hfp' ?_)
      rw [List.length_append, hlength]
      simp only [List.length_cons, List.length_nil]
      omega

/-- Every call keeps to the contract. -/
theorem serves (n : Int64) (hcapacity : capacity ≤ 2 ^ 20) (x : Int64) : Serves n capacity x := by
  -- The induction is on the argument, with every number below zero taken for zero.
  induction hk : x.toInt.toNat using Nat.strong_induction_on generalizing x with
  | _ k ih =>
    rcases lt_or_ge x.toInt 3 with hlt | hle
    · exact serves_of_lt_three n capacity hlt
    · obtain ⟨hx₁, hx₂⟩ := toInt_inner hle
      exact serves_of_three_le hle hcapacity (ih _ (by omega) _ rfl) (ih _ (by omega) _ rfl)

/-! ## The main routine -/

/-- What instructions of the main routine see. -/
abbrev outermost (pc : Nat) (stack : List Int64) (out : Sink) : View :=
  ⟨stack, [], pc, 0, 0, out⟩

/-- The call of the main routine. -/
theorem mainCall (n : Int64) : CallAt n 40 := ⟨rfl, rfl, rfl, by decide⟩

/-- The argument is pushed before the call. -/
theorem argument_block (n : Int64) (out : Sink) (hroom : 0 < capacity) :
    Block (fibonacci n).words capacity 1 (outermost fibonacciEntry [] out) (outermost 40 [n] out) :=
  block_const (s := []) rfl rfl hroom

/-- With room for the call, all steps but the last one, which halts. -/
theorem fibonacci_block (n : Int64) (hcapacity : capacity ≤ 2 ^ 20)
    (hroom : fibRoom n.toInt ≤ capacity) (hout : out.room = none) :
    ∃ k, Block (fibonacci n).words capacity k (outermost fibonacciEntry [] out)
      (outermost 44 [] (out.writeAll [Int64.ofNat (fib n.toInt)])) := by
  have hsix := six_le_fibRoom n.toInt
  obtain ⟨k, hcall⟩ := (serves n hcapacity n).returns (s := []) (mainCall n) (Nat.two_pow_pos 31)
    (by rw [List.length_nil]; omega)
  have hprint : Block (fibonacci n).words capacity 1
      (outermost 43 [Int64.ofNat (fib n.toInt)] out)
      (outermost 44 [] (out.write (Int64.ofNat (fib n.toInt)))) :=
    block_print (s := []) rfl (Outlet.isFull_of_room hout)
  exact ⟨_, (argument_block n out (by omega)).trans (hcall.trans hprint)⟩

/-- Without that room the program overflows, before anything is printed. -/
theorem overflows_fibonacci (n : Int64) (out : Sink) (hcapacity : capacity ≤ 2 ^ 20)
    (hroom : capacity < fibRoom n.toInt) :
    Overflows (fibonacci n).words capacity (outermost fibonacciEntry [] out) := by
  rcases Nat.eq_zero_or_pos capacity with hzero | hpos
  · exact overflows_const (s := []) rfl rfl (Nat.le_of_eq hzero)
  · exact .of_block (argument_block n out hpos) rfl
      ((serves n hcapacity n).overflows (s := []) (mainCall n) (Nat.two_pow_pos 31)
        (by rw [List.length_nil]; omega))

end Program

open Program in
/-- The program for the `n`-th Fibonacci number, on a stack of `c` words, without a limit of steps
and with a sink that takes everything. If the stack has the room that `fibRoom` says, it halts and
has printed one line, the number reduced to a word, with an empty stack outside of any call. If the
stack has less, the program overflows and prints nothing. -/
theorem fibonacci_correct (n : Int64) {c : Nat} (hc : c ≤ 2 ^ 20) {limit : Int} (hlimit : limit ≤ 0)
    {sink : Sink} (hsink : sink.room = none) :
    let start := (fibonacci n).machine { stackCapacity := c, maxSteps := limit, out := sink }
    let value := Int64.ofNat (fib n.toInt)
    (fibRoom n.toInt ≤ c → ∃ events m, Answers .run start (.outcome .halted events) m ∧
      m.out.printed.toList = sink.printed.toList ++ [value] ∧
      m.out.text = sink.text ++ Sink.line value ∧
      m.stack.toList = [] ∧ m.depth = 0 ∧ m.fp = 0) ∧
    (c < fibRoom n.toInt → ∃ events fault m,
      Answers .run start (.outcome (.faulted fault) events) m ∧
      fault.kind = .stackOverflow ∧ m.out.printed = sink.printed) := by
  intro start value
  have hclamp : Machine.clamp Machine.maxCapacity (c : Int) = c := by
    unfold Machine.clamp
    rw [Int.toNat_natCast]
    exact Nat.min_eq_left hc
  have hshows : start.Shows (fibonacci n).words c (outermost fibonacciEntry [] sink) := by
    rw [← hclamp]
    exact Machine.shows_new _ _ _ hlimit
  constructor
  · intro hroom
    obtain ⟨k, hblock⟩ := fibonacci_block n hc hroom hsink
    obtain ⟨hhalted, hview, -⟩ := hblock.halts rfl hshows
    obtain ⟨events, hanswer⟩ := Machine.answers_of_iterate hhalted Status.noConfusion
    have hout := congrArg View.out hview
    refine ⟨events, _, hanswer, ?_, ?_, congrArg View.stack hview, congrArg View.depth hview,
      congrArg View.fp hview⟩
    · exact (congrArg (fun s : Sink => s.printed.toList) hout).trans (sink.printed_writeAll _)
    · have hline : String.join ([value].map Sink.line) = Sink.line value := String.empty_append
      rw [← hline]
      exact (congrArg Sink.text hout).trans (sink.text_writeAll _)
  · intro hroom
    exact (overflows_fibonacci n sink hc hroom).answers hshows

open Program in
/-- The third number is two, and eleven words are enough for it; ten are not. -/
theorem fibonacci_correct_three :
    (∃ events m, Answers .run ((fibonacci 3).machine { stackCapacity := 11 })
        (.outcome .halted events) m ∧
      m.out.printed.toList = [2] ∧ m.stack.toList = [] ∧ m.depth = 0 ∧ m.fp = 0) ∧
    ∃ events fault m, Answers .run ((fibonacci 3).machine { stackCapacity := 10 })
      (.outcome (.faulted fault) events) m ∧ fault.kind = .stackOverflow ∧ m.out.printed = #[] := by
  have hsink : ({} : Sink).room = none := rfl
  have hvalue : Int64.ofNat (fib (3 : Int64).toInt) = 2 := by decide
  obtain ⟨hhalts, -⟩ := fibonacci_correct 3 (c := 11) (by decide) (Int.le_refl 0) hsink
  obtain ⟨-, hover⟩ := fibonacci_correct 3 (c := 10) (by decide) (Int.le_refl 0) hsink
  obtain ⟨events, m, hanswer, hprinted, -, hend⟩ := hhalts (by decide)
  rw [hvalue] at hprinted
  exact ⟨⟨events, m, hanswer, hprinted, hend⟩, hover (by decide)⟩

end StackMachine
