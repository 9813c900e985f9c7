import StackMachine.Proofs.Discipline

/-!
# The chain of frames

Every frame holds the frame pointer of the one it was opened from, so the frames on the stack form a
chain from the current one down to the first. `Linked` describes such a chain from any frame on;
it is an inductive predicate in which opening a frame adds a constructor and closing one takes it
off. The frame lemmas at the end of the first section say which slots a chain depends on.

A machine is well linked when its frames are linked all the way down. Disciplined steps keep it so,
and on a well-linked machine a return has only one way left to fail.
-/

namespace StackMachine

/-! ## Chains -/

/-- `Linked s limit d₀ f₀ d f`: starting from the frame at `f₀`, the `d₀`-th, a chain of frames
leads up to the one at `f`, the `d`-th. Each frame points at the one before it, and lies above it
together with its arguments; below the first of all there is no frame, so its arguments may start
anywhere. -/
inductive Linked (s : Stack) (limit d₀ f₀ : Nat) : Nat → Nat → Prop where
  | base : Linked s limit d₀ f₀ d₀ f₀
  | frame {d g f argc : Nat} (outer : Linked s limit d₀ f₀ d g) (frame : Frame s limit f g argc)
      (above : 0 < d → g + argc + 2 < f) : Linked s limit d₀ f₀ (d + 1) f

variable {s s' : Stack} {limit d₀ f₀ d f g argc : Nat} {m m' : Machine}

/-- A frame consists of three slots. -/
theorem Frame.congr (h : Frame s limit f g argc) (hargc : s'.slot (f - 2) = s.slot (f - 2))
    (hsaved : s'.slot (f - 1) = s.slot (f - 1)) (hreturn : s'.slot f = s.slot f) :
    Frame s' limit f g argc where
  argc_eq := by rw [hargc, h.argc_eq]
  saved_eq := by rw [hsaved, h.saved_eq]
  return_nonneg := by rw [hreturn]; exact h.return_nonneg
  return_le := by rw [hreturn]; exact h.return_le
  args_le := h.args_le

namespace Linked

/-- A chain leads up. -/
theorem le_depth (h : Linked s limit d₀ f₀ d f) : d₀ ≤ d := by
  induction h with
  | base => exact Nat.le_refl _
  | frame _ _ _ ih => exact Nat.le_succ_of_le ih

/-- The frames of a chain lie one above the other. -/
theorem le_fp (h : Linked s limit d₀ f₀ d f) (hpos : 0 < d₀) : f₀ ≤ f := by
  induction h with
  | base => exact Nat.le_refl _
  | frame outer _ above ih =>
    have habove := above (Nat.lt_of_lt_of_le hpos outer.le_depth)
    omega

/-- A chain that does not go beyond its start is empty. -/
theorem fp_eq (h : Linked s limit d₀ f₀ d f) (hd : d ≤ d₀) : f = f₀ := by
  cases h with
  | base => rfl
  | frame outer _ _ =>
    have hle := outer.le_depth
    omega

/-- A chain that goes beyond its start ends in a frame that points at the one before. -/
theorem exists_outer (h : Linked s limit d₀ f₀ d f) (hd : d₀ < d) :
    ∃ e g argc, d = e + 1 ∧ Linked s limit d₀ f₀ e g ∧ Frame s limit f g argc ∧
      (0 < e → g + argc + 2 < f) := by
  cases h with
  | base => exact absurd hd (Nat.lt_irrefl d₀)
  | frame outer frame above => exact ⟨_, _, _, rfl, outer, frame, above⟩

/-- A chain depends on nothing above its last frame. -/
theorem congr (h : Linked s limit d₀ f₀ d f)
    (hslots : 0 < d → ∀ i ≤ f, s'.slot i = s.slot i) : Linked s' limit d₀ f₀ d f := by
  induction h with
  | base => exact .base
  | @frame d g f argc outer frame above ih =>
    have hslots := hslots (Nat.succ_pos d)
    have hargs := frame.args_le
    -- The outer frames lie below this one, so the slots they consist of are among those kept.
    have houter : 0 < d → ∀ i ≤ g, s'.slot i = s.slot i := by
      intro hd i hi
      have habove := above hd
      exact hslots i (by omega)
    exact .frame (ih houter)
      (frame.congr (hslots _ (by omega)) (hslots _ (by omega)) (hslots _ (Nat.le_refl f))) above

/-- A chain does not depend on the arguments of its last frame either. -/
theorem congr_of_own (h : Linked s limit d₀ f₀ d f)
    (hslots : 0 < d → ∀ i ≤ f,
      ¬ ((f : Int) - 2 - (s.slot (f - 2)).toInt ≤ i ∧ (i : Int) ≤ f - 3) →
        s'.slot i = s.slot i) :
    Linked s' limit d₀ f₀ d f := by
  cases h with
  | base => exact .base
  | @frame d g f argc outer frame above =>
    have hslots := hslots (Nat.succ_pos d)
    have hargs := frame.args_le
    rw [frame.argc_eq] at hslots
    -- The arguments are between the outer frame and the three words of this one.
    have houter : 0 < d → ∀ i ≤ g, s'.slot i = s.slot i := by
      intro hd i hi
      have habove := above hd
      exact hslots i (by omega) (by omega)
    exact .frame (outer.congr houter)
      (frame.congr (hslots _ (by omega) (by omega)) (hslots _ (by omega) (by omega))
        (hslots _ (Nat.le_refl f) (by omega))) above

/-- Three slots go to each frame. -/
theorem three_mul_le (h : Linked s limit 0 0 d f) : 3 * d ≤ f + 1 := by
  induction h with
  | base => omega
  | @frame d g f argc outer frame above ih =>
    have hargs := frame.args_le
    rcases Nat.eq_zero_or_pos d with rfl | hd
    · -- The first frame has no frame below it to count from.
      omega
    · have habove := above hd
      omega

/-! ## Chains and moves -/

/-- A machine that stays in its frame keeps the chain. -/
theorem stays (h : Linked m.stack limit d₀ f₀ m.depth m.fp)
    (hfp : 0 < m.depth → m.fp < m.stack.size) (hmove : m.Stays m') :
    Linked m'.stack limit d₀ f₀ m'.depth m'.fp := by
  rw [hmove.depth_eq, hmove.fp_eq]
  exact h.congr_of_own fun hopen => hmove.kept hopen (hfp hopen)

/-- A machine that opens a frame makes the chain longer by it. -/
theorem opens (h : Linked m.stack m.code.size d₀ f₀ m.depth m.fp)
    (hfp : 0 < m.depth → m.fp < m.stack.size) (hmove : m.Opens m' argc)
    (habove : 0 < m.depth → m.fp + argc < m.stack.size) :
    Linked m'.stack m.code.size d₀ f₀ m'.depth m'.fp := by
  rw [hmove.depth_eq, hmove.fp_eq]
  have hkept : 0 < m.depth → ∀ i ≤ m.fp, m'.stack.slot i = m.stack.slot i := by
    intro hopen i hi
    exact hmove.kept i (Nat.lt_of_le_of_lt hi (hfp hopen))
  refine .frame (h.congr hkept) hmove.frame fun hopen => ?_
  have hlt := habove hopen
  omega

/-- A machine that closes the last frame of a chain goes back to the frame before, keeps the words
up to that one's frame pointer, and leaves the value above it. -/
theorem closes (h : Linked m.stack limit d₀ f₀ m.depth m.fp) (hmove : m.Closes m')
    (hd : d₀ < m.depth) :
    Linked m'.stack limit d₀ f₀ m'.depth m'.fp ∧
      (0 < m'.depth → m'.fp < m'.stack.size ∧
        ∀ i ≤ m'.fp, m'.stack.slot i = m.stack.slot i) := by
  obtain ⟨e, g, argc, hdepth, outer, frame, above⟩ := h.exists_outer hd
  obtain rfl : m'.depth = e := by
    have hdepth' := hmove.depth_eq
    omega
  have hfp : m'.fp = g := Int.ofNat_inj.1 (hmove.fp_eq.trans frame.saved_eq)
  have hstack := hmove.stack_eq
  rw [frame.argc_eq, Int.toNat_natCast] at hstack
  have hvalue := hmove.value_above
  have hle : m.fp - 2 - argc ≤ m.stack.size := by omega
  -- The stack is cut below the arguments, which is still above the outer frame.
  have hkept : 0 < m'.depth → ∀ i ≤ g, m'.stack.slot i = m.stack.slot i := by
    intro hopen i hi
    have habove := above hopen
    exact Stack.slot_of_append hle hstack (by omega)
  rw [hfp]
  refine ⟨outer.congr hkept, fun hopen => ⟨?_, hkept hopen⟩⟩
  have habove := above hopen
  rw [Stack.size_of_append hle hstack, List.length_singleton]
  omega

end Linked

/-! ## Well-linked machines -/

namespace Machine

/-- The frames of a machine are linked from the current one down to the first, and the current one
is on the stack. -/
structure WellLinked (m : Machine) : Prop where
  linked : Linked m.stack m.code.size 0 0 m.depth m.fp
  fp_lt : 0 < m.depth → m.fp < m.stack.size

/-- A new machine has no frames to link. -/
theorem wellLinked_new (code : Array Int64) (entry locals : Int) (options : Options) :
    (new code entry locals options).WellLinked where
  linked := .base
  fp_lt h := absurd h (Nat.lt_irrefl 0)

namespace WellLinked

/-- The frame pointer of a well-linked machine is within its bounds. -/
theorem bounded (h : m.WellLinked) (hcap : m.stack.capacity ≤ maxCapacity) : m.Bounded := by
  refine ⟨hcap, ?_⟩
  have hmax : maxCapacity = 2^20 := rfl
  have hsize := m.stack.size_le_capacity
  rcases Nat.eq_zero_or_pos m.depth with hzero | hopen
  · -- Without a frame the chain is empty and the frame pointer is zero.
    rw [h.linked.fp_eq (Nat.le_of_eq hzero)]
    exact Nat.two_pow_pos 31
  · have hlt := h.fp_lt hopen
    omega

/-- A disciplined step that does not fault keeps the frames linked. -/
theorem step (h : m.WellLinked) (hcode : m.code.size < 2^63)
    (hcap : m.stack.capacity ≤ maxCapacity) (hd : m.Disciplined)
    (hok : m.step.status.fault? = none) : m.step.WellLinked := by
  cases moves_of_step (h.bounded hcap) hcode hd hok with
  | stays hmove =>
    refine ⟨?_, fun hopen => ?_⟩
    · rw [code_step]
      exact h.linked.stays h.fp_lt hmove
    · rw [hmove.depth_eq] at hopen
      rw [hmove.fp_eq]
      exact hmove.fp_lt hopen (h.fp_lt hopen)
  | opens argc hmove habove =>
    refine ⟨?_, fun _ => ?_⟩
    · rw [code_step]
      exact h.linked.opens h.fp_lt hmove fun hopen => habove hopen (h.fp_lt hopen)
    · rw [hmove.fp_eq, hmove.size_eq]
      omega
  | closes hmove =>
    have hdepth := hmove.depth_eq
    obtain ⟨hlinked, hfp⟩ := h.linked.closes hmove (by omega)
    refine ⟨?_, fun hopen => (hfp hopen).1⟩
    rw [code_step]
    exact hlinked

/-- On a well-linked machine with a value above the frame, a return fails only for want of an
instruction to return to, and that only if the call was the last one of the code. -/
theorem fault?_of_ret (h : m.WellLinked) (hcap : m.stack.capacity ≤ maxCapacity)
    (hop : m.opcode? = some .ret) (hopen : 0 < m.depth) (hvalue : m.fp + 1 < m.stack.size) :
    m.row.fault? =
      if (m.stack.slot m.fp).toInt = m.code.size then some .invalidProgramCounter else none := by
  obtain ⟨d, g, argc, hdepth, outer, frame, above⟩ := h.linked.exists_outer hopen
  have hargs := frame.args_le
  have hargc := frame.argc_eq
  have hsaved := frame.saved_eq
  have hnonneg := frame.return_nonneg
  have hle := frame.return_le
  -- The saved frame pointer is a slot of the stack, unless it is that of no frame.
  have hg : g < 2^31 := by
    have hfp := (h.bounded hcap).fp_lt
    rcases Nat.eq_zero_or_pos d with rfl | hd
    · rw [outer.fp_eq (Nat.le_refl 0)]
      exact Nat.two_pow_pos 31
    · have habove := above hd
      omega
  -- The checks in order: an open frame, a value, the value above the frame, the other two words of
  -- the frame, the argument count, the saved frame pointer and, last, the return address.
  rw [row_of_opcode hop, Table.row]
  refine (Row.fault?_of_passes (decide_eq_false ?_)).trans ?_
  · omega
  refine (Row.fault?_of_passes (decide_eq_false ?_)).trans ?_
  · omega
  refine (Row.fault?_of_passes (decide_eq_false ?_)).trans ?_
  · omega
  refine (Row.fault?_of_passes (decide_eq_false ?_)).trans ?_
  · omega
  refine (Row.fault?_of_passes (decide_eq_false ?_)).trans ?_
  · omega
  refine (Row.fault?_of_passes (decide_eq_false ?_)).trans ?_
  · omega
  refine (Row.fault?_of_passes (decide_eq_false ?_)).trans ?_
  · omega
  split
  · rename_i hend
    refine Row.fault?_of_fails (decide_eq_true ?_)
    omega
  · rename_i hend
    refine Row.fault?_of_passes (decide_eq_false ?_)
    omega

end WellLinked

/-! ## Runs -/

/-- The first `n` steps of a machine are disciplined and do not fault. -/
def Orderly (m : Machine) (n : Nat) : Prop :=
  ∀ j < n, (step^[j] m).Disciplined ∧ (step^[j + 1] m).status.fault? = none

/-- Order can be checked. -/
instance (m : Machine) (n : Nat) : Decidable (m.Orderly n) :=
  inferInstanceAs (Decidable (∀ j < n, _ ∧ _))

/-- An orderly run from a new machine keeps the machine's invariant and the frames linked. -/
theorem wellLinked_of_orderly {code : Array Int64} {entry locals : Int} {options : Options}
    (hcode : code.size < 2^63) {n : Nat} (h : (new code entry locals options).Orderly n) :
    (step^[n] (new code entry locals options)).Invariant code entry locals options ∧
      (step^[n] (new code entry locals options)).WellLinked := by
  induction n with
  | zero => exact ⟨.new, wellLinked_new code entry locals options⟩
  | succ n ih =>
    obtain ⟨hinv, hlinked⟩ := ih fun j hj => h j (Nat.lt_succ_of_lt hj)
    obtain ⟨hd, hok⟩ := h n (Nat.lt_succ_self n)
    rw [Function.iterate_succ_apply'] at hok ⊢
    exact ⟨hinv.step, hlinked.step (by rw [hinv.code_eq]; exact hcode) hinv.capacity_le hd hok⟩

end Machine

/-- On code whose offsets are words, a new machine is well linked, and every disciplined step that
does not fault keeps a machine well linked. So after an orderly run there are at least three words
on the stack for every open frame, and a return with a value above the frame faults exactly if it
would return to the end of the code, with an invalid program counter; otherwise it succeeds. -/
theorem frames_stay_linked (code : Array Int64) (entry locals : Int) (options : Machine.Options)
    (hcode : code.size < 2^63) :
    (Machine.new code entry locals options).WellLinked ∧
    (∀ m : Machine, m.code = code → m.stack.capacity ≤ Machine.maxCapacity → m.WellLinked →
      m.Disciplined → m.step.status.fault? = none → m.step.WellLinked) ∧
    ∀ n m, (Machine.new code entry locals options).Orderly n →
      m = Machine.step^[n] (Machine.new code entry locals options) →
      (3 * m.depth ≤ m.stack.size ∧ m.stack.size ≤ m.stack.capacity) ∧
      (m.Ready → m.opcode? = some .ret → 0 < m.depth → m.fp + 1 < m.stack.size → ∀ kind,
        (∃ fault, m.step.status = .faulted fault ∧ fault.kind = kind) ↔
          kind = .invalidProgramCounter ∧ (m.stack.slot m.fp).toInt = code.size) := by
  refine ⟨Machine.wellLinked_new code entry locals options, ?_, ?_⟩
  · intro m hm hcap hlinked hd hok
    exact hlinked.step (by rw [hm]; exact hcode) hcap hd hok
  · intro n m horderly hm
    obtain ⟨hinv, hlinked⟩ := Machine.wellLinked_of_orderly hcode horderly
    rw [← hm] at hinv hlinked
    refine ⟨⟨?_, m.stack.size_le_capacity⟩, ?_⟩
    · have hthree := hlinked.linked.three_mul_le
      have hfp := hlinked.fp_lt
      omega
    · intro hready hop hopen hvalue kind
      rw [Machine.faults_iff hinv.bounded hready,
        hlinked.fault?_of_ret hinv.capacity_le hop hopen hvalue, hinv.code_eq]
      by_cases hend : (m.stack.slot m.fp).toInt = code.size
      · simp [hend, eq_comm]
      · simp [hend]

/-- A program whose last instruction calls a function that overwrites its own argument and returns:
the function runs in order, and the return finds no instruction to go to. -/
theorem frames_stay_linked_last_call :
    let code := #[Opcode.jmp.word, 9, Opcode.load.word, -3, Opcode.store.word, -3,
      Opcode.const.word, 7, Opcode.ret.word, Opcode.const.word, 5, Opcode.call.word, 2, 1]
    let m := Machine.step^[6] (Machine.new code 0 0)
    m.view.stack = [5, 1, 0, 14, 7] ∧ 3 * m.depth ≤ m.stack.size ∧
      ∃ fault, m.step.status = .faulted fault ∧ fault.kind = .invalidProgramCounter := by
  intro code m
  obtain ⟨-, -, hrun⟩ := frames_stay_linked code 0 0 {} (by decide)
  obtain ⟨hsize, hret⟩ := hrun 6 m (by decide +kernel) rfl
  have hready : m.Ready := ⟨by decide +kernel, by decide +kernel⟩
  refine ⟨by decide +kernel, hsize.1, ?_⟩
  exact (hret hready (by decide +kernel) (by decide +kernel) (by decide +kernel) _).2
    ⟨rfl, by decide +kernel⟩

end StackMachine
