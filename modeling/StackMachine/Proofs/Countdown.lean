import StackMachine.Program
import StackMachine.Proofs.Blocks
import StackMachine.Proofs.Budget

/-!
# The program that counts down

The loop of the program keeps its counter in the only local and comes back to its head with an empty
stack. One round prints the counter and takes one from it, in fourteen steps (`countdown_round`), so
that the rounds from a counter of `k` take `14 * k` steps and print the numbers from `k` down to one
(`countdown_rounds`). Two steps lead to the head of the loop and six from there to the halt, which
makes the count of all steps exact, and with it the budgets under which the program halts.
-/

namespace StackMachine

namespace Program

/-- The numbers from `k` down to one. -/
def downFrom : Nat → List Int64
  | 0 => []
  | k + 1 => Int64.ofNat (k + 1) :: downFrom k

variable {n x : Int64} {capacity k : Nat} {out : Sink}

/-- What instructions see of the program at an offset, with a counter of `x`. -/
abbrev counting (pc : Nat) (stack : List Int64) (x : Int64) (out : Sink) : View :=
  ⟨stack, [x], pc, 0, 0, out⟩

/-! ## One round -/

/-- The program has twenty-seven words. -/
theorem size_countdown (n : Int64) : (countdown n).words.size = 27 := rfl

/-- The test at the head of the loop. -/
theorem countdown_test (n x : Int64) (out : Sink) (hroom : 2 ≤ capacity) :
    Block (countdown n).words capacity 4 (counting 4 [] x out)
      (counting 10 [if 0 < x then 1 else 0] x out) := by
  have hroom' : 1 < capacity := hroom
  calc
    Block (countdown n).words capacity 1 (counting 4 [] x out) (counting 6 [0] x out) :=
      block_const (s := []) rfl rfl (Nat.zero_lt_of_lt hroom')
    Block (countdown n).words capacity 1 _ (counting 7 [x] x out) :=
      block_gload (s := []) (i := 0) rfl rfl rfl
    Block (countdown n).words capacity 1 _ (counting 9 [x, 0] x out) :=
      block_const (s := [x]) rfl rfl hroom'
    Block (countdown n).words capacity 1 _ (counting 10 [if 0 < x then 1 else 0] x out) :=
      block_binary .gt (fun a b => if b < a then 1 else 0) (s := []) (fun _ => rfl) rfl

/-- A round with a positive counter prints it and takes one from it. -/
theorem countdown_round (n : Int64) (hroom : 2 ≤ capacity) (hout : out.isFull = false)
    (hpos : 0 < x) :
    Block (countdown n).words capacity 14 (counting 4 [] x out)
      (counting 4 [] (x - 1) (out.write x)) := by
  have hroom' : 1 < capacity := hroom
  have hroom₀ : 0 < capacity := Nat.zero_lt_of_lt hroom'
  have htest := countdown_test n x out hroom
  rw [if_pos hpos] at htest
  calc
    Block (countdown n).words capacity 4 (counting 4 [] x out) (counting 10 [1] x out) := htest
    Block (countdown n).words capacity 1 _ (counting 12 [] x out) :=
      block_jmpf (s := []) rfl rfl (by decide)
    -- The counter is printed,
    Block (countdown n).words capacity 1 _ (counting 14 [0] x out) :=
      block_const (s := []) rfl rfl hroom₀
    Block (countdown n).words capacity 1 _ (counting 15 [x] x out) :=
      block_gload (s := []) (i := 0) rfl rfl rfl
    Block (countdown n).words capacity 1 _ (counting 16 [] x (out.write x)) :=
      block_print (s := []) rfl hout
    -- and goes down by one.
    Block (countdown n).words capacity 1 _ (counting 18 [0] x (out.write x)) :=
      block_const (s := []) rfl rfl hroom₀
    Block (countdown n).words capacity 1 _ (counting 19 [x] x (out.write x)) :=
      block_gload (s := []) (i := 0) rfl rfl rfl
    Block (countdown n).words capacity 1 _ (counting 21 [x, 1] x (out.write x)) :=
      block_const (s := [x]) rfl rfl hroom'
    Block (countdown n).words capacity 1 _ (counting 22 [x - 1] x (out.write x)) :=
      block_binary .sub (fun a b => a - b) (s := []) (fun _ => rfl) rfl
    Block (countdown n).words capacity 1 _ (counting 24 [] (x - 1) (out.write x)) :=
      block_gstore (s := []) (i := 0) rfl rfl rfl (show 0 < [x].length from Nat.zero_lt_one)
    Block (countdown n).words capacity 1 _ (counting 4 [] (x - 1) (out.write x)) :=
      block_jmp rfl rfl rfl (by rw [size_countdown]; decide)

/-- With any other counter the loop is left. -/
theorem countdown_leave (n : Int64) (hroom : 2 ≤ capacity) (hpos : ¬ 0 < x) :
    Block (countdown n).words capacity 5 (counting 4 [] x out) (counting 26 [] x out) := by
  have htest := countdown_test n x out hroom
  rw [if_neg hpos] at htest
  calc
    Block (countdown n).words capacity 4 (counting 4 [] x out) (counting 10 [0] x out) := htest
    Block (countdown n).words capacity 1 _ (counting 26 [] x out) :=
      block_jmpf_taken (s := []) rfl rfl rfl (by rw [size_countdown]; decide)

/-! ## All rounds -/

/-- The rounds from a counter of `k` to zero. -/
theorem countdown_rounds (n : Int64) (hroom : 2 ≤ capacity) (hout : out.room = none)
    (hx : x.toInt = k) :
    Block (countdown n).words capacity (14 * k) (counting 4 [] x out)
      (counting 4 [] 0 (out.writeAll (downFrom k))) := by
  induction k generalizing x out with
  | zero =>
    have hzero : x = 0 := Int64.toInt_inj.1 hx
    rw [hzero]
    exact Block.refl _
  | succ k ih =>
    have hlt := Int64.toInt_lt x
    have hpos : 0 < x := by
      rw [Int64.lt_iff_toInt_lt, hx, Int64.toInt_zero]
      omega
    have hword : x = Int64.ofNat (k + 1) := by
      rw [← Int64.toInt_inj, Int64.toInt_ofNat_of_lt (by omega), hx]
    have hnext : (x - 1).toInt = k := by
      rw [toInt_sub_of_le (by decide) (by rw [Int64.toInt_one]; omega), Int64.toInt_one]
      omega
    have hround := countdown_round n hroom (Outlet.isFull_of_room hout) hpos
    have hrest := ih (Sink.room_write hout x) hnext
    rw [Nat.mul_succ, Nat.add_comm, downFrom, ← hword]
    exact hround.trans hrest

/-! ## The whole program -/

/-- What instructions see of the program before its first step. -/
abbrev countdownStart (out : Sink) : View :=
  counting 0 [] 0 out

/-- The counter is set before the first round. -/
theorem countdown_enter (n : Int64) (out : Sink) (hroom : 0 < capacity) :
    Block (countdown n).words capacity 2 (countdownStart out) (counting 4 [] n out) := by
  calc
    Block (countdown n).words capacity 1 (countdownStart out) (counting 2 [n] 0 out) :=
      block_const (s := []) rfl rfl hroom
    Block (countdown n).words capacity 1 _ (counting 4 [] n out) :=
      block_gstore (s := []) (i := 0) rfl rfl rfl (show 0 < [0].length from Nat.zero_lt_one)

/-- All steps but the last one, which halts. -/
theorem countdown_block (n : Int64) (hroom : 2 ≤ capacity) (hout : out.room = none) :
    Block (countdown n).words capacity (14 * n.toInt.toNat + 7) (countdownStart out)
      (counting 26 [] (Int64.ofInt (min n.toInt 0)) (out.writeAll (downFrom n.toInt.toNat))) := by
  have henter := countdown_enter n out (Nat.lt_of_lt_of_le Nat.zero_lt_two hroom)
  rcases Int.le_total n.toInt 0 with hneg | hpos
  · -- There is no round.
    have hnone : n.toInt.toNat = 0 := Int.toNat_of_nonpos hneg
    have hstop : ¬ 0 < n := by
      rw [Int64.lt_iff_toInt_lt, Int64.toInt_zero]
      omega
    rw [hnone, min_eq_left hneg, Int64.ofInt_toInt]
    exact henter.trans (countdown_leave n hroom hstop)
  · obtain ⟨k, hk⟩ := Int.eq_ofNat_of_zero_le hpos
    rw [min_eq_right hpos, hk, Int.toNat_natCast]
    have hcount : 14 * k + 7 = 2 + (14 * k + 5) := by omega
    rw [hcount]
    have hrounds := countdown_rounds n hroom hout hk
    exact henter.trans (hrounds.trans (countdown_leave n hroom (by decide)))

/-- A stack of fewer than two words is too small, before anything is printed. -/
theorem overflows_countdown (n : Int64) (out : Sink) (hroom : capacity < 2) :
    Overflows (countdown n).words capacity (countdownStart out) := by
  rcases Nat.eq_zero_or_pos capacity with hzero | hpos
  · exact overflows_const (s := []) rfl rfl (Nat.le_of_eq hzero)
  · -- The test compares two words.
    have htest : Block (countdown n).words capacity 4 (countdownStart out)
        (counting 7 [n] n out) := by
      calc
        Block (countdown n).words capacity 2 (countdownStart out) (counting 4 [] n out) :=
          countdown_enter n out hpos
        Block (countdown n).words capacity 1 _ (counting 6 [0] n out) :=
          block_const (s := []) rfl rfl hpos
        Block (countdown n).words capacity 1 _ (counting 7 [n] n out) :=
          block_gload (s := []) (i := 0) rfl rfl rfl
    exact .of_block htest rfl (overflows_const (s := [n]) rfl rfl (Nat.le_of_lt_succ hroom))

/-- The machine of the program without a step limit, before its first step. -/
theorem shows_countdown (n : Int64) (c : Int) {limit : Int} (hlimit : limit ≤ 0) (sink : Sink) :
    ((countdown n).machine { stackCapacity := c, maxSteps := limit, out := sink }).Shows
      (countdown n).words (Machine.clamp Machine.maxCapacity c) (countdownStart sink) :=
  Machine.shows_new _ _ _ hlimit

/-- The machine of the program with a budget is the one without, apart from the budget. -/
theorem machine_countdown_metered (n : Int64) (c limit : Int) (sink : Sink) {b : Int} (hb : 0 < b) :
    (countdown n).machine { stackCapacity := c, maxSteps := b, out := sink } =
      ((countdown n).machine { stackCapacity := c, maxSteps := limit, out := sink }).metered
        b.toNat := by
  unfold Image.machine Machine.new Machine.metered Machine.budgetOf
  rw [if_pos hb]

end Program

open Program in
/-- The program that counts down from `n`, on a stack of `c` words and with a sink that takes
everything. With two words or more it halts after `14 * max n 0 + 8` steps, a number that fits a
word, and has printed the lines of `n` and of every number below it down to one; the stack is empty,
and the only local is the lesser of `n` and zero. With fewer words it overflows and prints nothing.
With two words or more and a budget, it halts exactly if the budget allows all these steps. -/
theorem countdown_correct {n : Int64} (hn : n.toInt ≤ 2 ^ 59) (c : Int) {limit : Int}
    (hlimit : limit ≤ 0) {sink : Sink} (hsink : sink.room = none) :
    let total : Int := 14 * max n.toInt 0 + 8
    let start := (countdown n).machine { stackCapacity := c, maxSteps := limit, out := sink }
    (2 ≤ c → ∃ events m, Answers .run start (.outcome .halted events) m ∧
      m.steps = total ∧ total < 2 ^ 63 ∧
      m.out.printed.toList = sink.printed.toList ++ downFrom n.toInt.toNat ∧
      m.out.text = sink.text ++ String.join ((downFrom n.toInt.toNat).map Sink.line) ∧
      m.stack.toList = [] ∧ m.locals.toList = [Int64.ofInt (min n.toInt 0)]) ∧
    (c < 2 → ∃ events fault m, Answers .run start (.outcome (.faulted fault) events) m ∧
      fault.kind = .stackOverflow ∧ m.out.printed = sink.printed) ∧
    (2 ≤ c → ∀ b : Int, 0 < b →
      ((∃ events m, Answers .run
          ((countdown n).machine { stackCapacity := c, maxSteps := b, out := sink })
          (.outcome .halted events) m) ↔ total ≤ b)) := by
  intro total start
  have hshows : start.Shows _ _ _ := shows_countdown n c hlimit sink
  have hmax : (Machine.maxCapacity : Int) = 2 ^ 20 := rfl
  have hclamp : Machine.clamp Machine.maxCapacity c = min c.toNat Machine.maxCapacity := rfl
  have htotal : total = (14 * n.toInt.toNat + 7 + 1 : Nat) := by
    omega
  -- All steps but the last are a block, and the next one halts.
  have hblock (hc : 2 ≤ c) := countdown_block n
    (show 2 ≤ Machine.clamp Machine.maxCapacity c by omega) hsink
  have hhalts (hc : 2 ≤ c) := (hblock hc).halts rfl hshows
  refine ⟨fun hc => ?_, fun hc => (overflows_countdown n sink (by omega)).answers hshows,
    fun hc b hb => ?_⟩
  · obtain ⟨hhalted, hview, hsteps⟩ := hhalts hc
    obtain ⟨events, hanswer⟩ := Machine.answers_of_iterate hhalted Status.noConfusion
    have hout := congrArg View.out hview
    refine ⟨events, _, hanswer, ?_, by omega, ?_, ?_, ?_, ?_⟩
    · rw [hsteps, htotal]
      exact congrArg Nat.cast (Nat.zero_add _)
    · exact (congrArg (fun s : Sink => s.printed.toList) hout).trans (sink.printed_writeAll _)
    · exact (congrArg Sink.text hout).trans (sink.text_writeAll _)
    · exact congrArg View.stack hview
    · exact congrArg View.locals hview
  · have hfree : start.budget = none := hshows.unlimited
    have hnew : start.steps = 0 := rfl
    rw [machine_countdown_metered n c limit sink hb, htotal]
    constructor
    · -- A budget that does not allow all steps is spent before the halt.
      rintro ⟨events, m, hanswer⟩
      by_contra hshort
      have hrun : (Machine.step^[b.toNat] start).status = .running :=
        Machine.running_of_iterate (hblock hc _ hshows).running (by omega)
      have hreply := ((answers_run_metered hfree hnew hrun).1 hanswer).1
      cases hreply
    · intro hle
      have hhalted := congrArg Machine.status
        (Machine.iterate_metered (k := 14 * n.toInt.toNat + 7 + 1) hfree
          (show start.steps + (14 * n.toInt.toNat + 7 + 1) ≤ b.toNat by omega))
      obtain ⟨events, hanswer⟩ :=
        Machine.answers_of_iterate (hhalted.trans (hhalts hc).1) Status.noConfusion
      exact ⟨events, _, hanswer⟩

open Program in
/-- Counting down from two takes thirty-six steps: a budget of one step less is too small, and so is
a stack of one word. -/
theorem countdown_correct_two :
    (∃ events m, Answers .run ((countdown 2).machine { stackCapacity := 2 })
        (.outcome .halted events) m ∧
      m.steps = 36 ∧ m.out.printed.toList = [2, 1] ∧ m.stack.toList = [] ∧ m.locals.toList = [0]) ∧
    (∃ events m, Answers .run ((countdown 2).machine { stackCapacity := 2, maxSteps := 36 })
      (.outcome .halted events) m) ∧
    (¬ ∃ events m, Answers .run ((countdown 2).machine { stackCapacity := 2, maxSteps := 35 })
      (.outcome .halted events) m) ∧
    ∃ events fault m, Answers .run ((countdown 2).machine { stackCapacity := 1 })
      (.outcome (.faulted fault) events) m ∧ fault.kind = .stackOverflow ∧ m.out.printed = #[] := by
  have htwo : (2 : Int64).toInt ≤ 2 ^ 59 := by decide
  have hsink : ({} : Sink).room = none := rfl
  obtain ⟨hhalts, -, hbudget⟩ := countdown_correct htwo 2 (Int.le_refl 0) hsink
  obtain ⟨-, hover, -⟩ := countdown_correct htwo 1 (Int.le_refl 0) hsink
  obtain ⟨events, m, hanswer, hsteps, -, hprinted, -, hstack, hlocals⟩ := hhalts (Int.le_refl 2)
  refine ⟨⟨events, m, hanswer, Int.ofNat.inj hsteps, hprinted, hstack, hlocals⟩, ?_, ?_, ?_⟩
  · exact (hbudget (Int.le_refl 2) 36 (by decide)).2 (by decide)
  · exact mt (hbudget (Int.le_refl 2) 35 (by decide)).1 (by decide)
  · exact hover (by decide)

end StackMachine
