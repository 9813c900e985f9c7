import StackMachine.Proofs.Output

/-!
# Blocks of instructions

What a program does is put together here from what its instructions do. A machine that runs some
code without a limit of steps is known by what instructions see of it (`Machine.Shows`), and `Block`
says that a number of steps leads from one view to another. Blocks follow one another
(`Block.trans`), and each instruction of the table is a block of one step, stated on a stack whose
topmost words are written out. A run that comes to a word too many ends in an overflow
(`Overflows`), with nothing printed on the way from where the block started.
-/

namespace StackMachine

namespace Machine

variable {m : Machine}

/-! ## Steps that fault -/

/-- The machine on a sink that has taken the same values and takes no more. -/
abbrev muted (m : Machine) : Machine :=
  { m with out := { m.out with room := some 0 } }

/-- On a sink that takes no more, nothing is printed. -/
theorem printed_step_muted (m : Machine) : m.muted.step.out.printed = m.out.printed := by
  obtain ⟨values, htook⟩ := Prints.iterate m.muted 1
  -- A step prints no more values than the sink has room for, and here that is none.
  have hnone : values = #[] := Array.eq_empty_of_size_eq_zero (Nat.le_zero.1 (htook.fits 0 rfl))
  have hprinted := htook.printed
  rw [hnone, Array.append_empty] at hprinted
  exact hprinted

/-- A step that faults prints nothing. -/
theorem printed_of_faulted {fault : Fault} (hb : m.Bounded) (hrun : m.status = .running)
    (hfault : m.step.status = .faulted fault) : m.step.out.printed = m.out.printed := by
  by_cases hfailed : m.step.OutputFailed
  · rw [step_of_refused (refused_of_outputFailed hb hrun hfailed)]
  · -- The fault is no matter of the sink, so that it is the same on a sink which takes nothing.
    have hmuted : ¬ m.muted.step.OutputFailed := by
      intro hmuted
      have hrefused : m.muted.Refused :=
        refused_of_outputFailed ⟨hb.capacity_le, hb.fp_lt⟩ hrun hmuted
      have hready : m.Ready := ⟨hrun, hrefused.ready.unspent⟩
      -- On a full sink the step of `m` itself fails for its output, and on another it prints and
      -- goes on. It does neither.
      cases hfull : m.out.isFull with
      | true =>
        have hstep := step_of_refused ⟨hready, hrefused.word_eq, hrefused.size_pos, hfull⟩
        exact hfailed ⟨_, by rw [hstep], rfl⟩
      | false =>
        rw [step_of_print hready hrefused.word_eq hrefused.size_pos hfull] at hfault
        exact Status.noConfusion (hrun.symm.trans hfault)
    have hfree : m.unlimited.step = m.step.unlimited := iterate_unlimited (n := 1) hfailed
    have hfree' : m.unlimited.step = m.muted.step.unlimited := iterate_unlimited (n := 1) hmuted
    calc m.step.out.printed = m.step.unlimited.out.printed := rfl
      _ = m.muted.step.unlimited.out.printed := by rw [← hfree, hfree']
      _ = m.out.printed := printed_step_muted m

/-! ## Views of a running machine -/

/-- The machine runs `code` without a limit of steps, on a stack of `capacity` words, and `v` is
what instructions see of it. -/
structure Shows (m : Machine) (code : Array Int64) (capacity : Nat) (v : View) : Prop where
  running : m.status = .running
  unlimited : m.budget = none
  code_eq : m.code = code
  capacity_eq : m.stack.capacity = capacity
  view_eq : m.view = v
  reachable : m.Reachable

/-- A new machine without a limit of steps shows its entry, with nothing on the stack. -/
theorem shows_new (code : Array Int64) (entry locals : Int) {options : Options}
    (hfree : options.maxSteps ≤ 0) :
    (new code entry locals options).Shows code (clamp maxCapacity options.stackCapacity)
      ⟨[], List.replicate (clamp maxLocals locals) 0, entry, 0, 0, options.out⟩ where
  running := rfl
  unlimited := if_neg (by omega)
  code_eq := rfl
  capacity_eq := Stack.capacity_empty _
  view_eq := by
    have hempty : (Stack.empty (clamp maxCapacity options.stackCapacity)).toList = [] :=
      List.take_zero
    have hlocals : (Array.replicate (clamp maxLocals locals) (0 : Int64)).toList =
        List.replicate (clamp maxLocals locals) 0 := Array.toList_replicate
    unfold view new
    rw [hempty, hlocals]
  reachable := reachable_new code entry locals options

end Machine

/-- In `k` steps a machine that runs `code` on a stack of `capacity` words gets from `v` to `v'`. -/
def Block (code : Array Int64) (capacity k : Nat) (v v' : View) : Prop :=
  ∀ m : Machine, m.Shows code capacity v → (Machine.step^[k] m).Shows code capacity v'

/-- A machine that runs `code` on a stack of `capacity` words from `v` on comes to an instruction
that has no room for its words, and has printed nothing until then. -/
def Overflows (code : Array Int64) (capacity : Nat) (v : View) : Prop :=
  ∀ m : Machine, m.Shows code capacity v → ∃ k fault,
    (Machine.step^[k] m).status = .faulted fault ∧ fault.kind = .stackOverflow ∧
      (Machine.step^[k] m).out.printed = m.out.printed

variable {code : Array Int64} {capacity p j k : Nat} {v v' v'' : View}

/-- No step leads nowhere. -/
theorem Block.refl (v : View) : Block code capacity 0 v v :=
  fun _ h => h

/-- Blocks follow one another. -/
theorem Block.trans (h : Block code capacity j v v') (h' : Block code capacity k v' v'') :
    Block code capacity (j + k) v v'' := by
  intro m hm
  rw [Nat.add_comm, Function.iterate_add_apply]
  exact h' _ (h m hm)

/-- A chain of blocks counts the steps of all. -/
instance : Trans (Block code capacity j) (Block code capacity k) (Block code capacity (j + k)) :=
  ⟨Block.trans⟩

/-- What comes to an overflow after a block that prints nothing comes to one from its start. -/
theorem Overflows.of_block (h : Block code capacity k v v') (hout : v'.out.printed = v.out.printed)
    (hover : Overflows code capacity v') : Overflows code capacity v := by
  intro m hm
  have hmid := h m hm
  obtain ⟨j, fault, hfault, hkind, hprinted⟩ := hover _ hmid
  refine ⟨j + k, fault, ?_, hkind, ?_⟩
  · rw [Function.iterate_add_apply, hfault]
  · rw [Function.iterate_add_apply]
    calc (Machine.step^[j] (Machine.step^[k] m)).out.printed
        = (Machine.step^[k] m).view.out.printed := hprinted
      _ = m.view.out.printed := by rw [hmid.view_eq, hm.view_eq, hout]

/-! ## One instruction -/

namespace Machine.Shows

variable {m : Machine} {s locals : List Int64} {fp depth : Nat} {out : Sink} {op : Opcode}
  {w a b : Int64}

/-- The machine has a step left. -/
theorem ready (h : m.Shows code capacity v) : m.Ready :=
  ⟨h.running, isSpent_of_unlimited h.unlimited⟩

/-- As many slots are occupied as the view lists. -/
theorem size_eq (h : m.Shows code capacity v) : m.stack.size = v.stack.length := by
  rw [← h.view_eq]
  exact (Stack.length_toList m.stack).symm

/-- The words of the code. -/
theorem word? (h : m.Shows code capacity v) (offset : Nat) : m.word? offset = code[offset]? := by
  rw [word?_natCast, h.code_eq]

/-- The opcode of the next instruction. -/
theorem opcode_eq (h : m.Shows code capacity v) (hpc : v.pc = p) (hop : code[p]? = some op.word) :
    m.opcode? = some op := by
  have hpc' : m.pc = p := by
    rw [← hpc, ← h.view_eq]
    rfl
  rw [opcode?, hpc', h.word?, hop, Option.bind_some, Opcode.ofWord?_word]

/-- The row of the next instruction. -/
theorem row_eq (h : m.Shows code capacity v) (hpc : v.pc = p) (hop : code[p]? = some op.word) :
    m.row = Table.row m op :=
  row_of_opcode (h.opcode_eq hpc hop)

/-! ### Parts of a row -/

section Row

variable (h : m.Shows code capacity ⟨s, locals, p, fp, depth, out⟩)

include h

/-- An operand that is there is not missing. -/
theorem missing (hw : code[p + k]? = some w) : (Table.missing m k).fails = false := by
  have hpc : m.pc + k = ((p + k : Nat) : Int) := by
    rw [Int.natCast_add]
    exact congrArg (fun v : View => v.pc + k) h.view_eq
  rw [Table.missing, hpc, h.word?, hw]
  rfl

/-- The word of an operand. -/
theorem operand (hw : code[p + k]? = some w) : Table.operand m k = w := by
  have hpc : m.pc + k = ((p + k : Nat) : Int) := by
    rw [Int.natCast_add]
    exact congrArg (fun v : View => v.pc + k) h.view_eq
  rw [Table.operand, hpc, h.word?, hw, Option.getD_some]

/-- Enough words are on the stack. -/
theorem fewer (hk : k ≤ s.length) : (Table.fewer m k).fails = false := by
  have hsize : m.stack.size = s.length := h.size_eq
  exact decide_eq_false (by omega)

/-- There is room for more words. -/
theorem full (hk : s.length + k ≤ capacity) : (Table.full m k).fails = false := by
  have hsize : m.stack.size = s.length := h.size_eq
  have hcapacity := h.capacity_eq
  exact decide_eq_false (by omega)

/-- There is no room for more words. -/
theorem full_of_lt (hk : capacity < s.length + k) : (Table.full m k).fails = true := by
  have hsize : m.stack.size = s.length := h.size_eq
  have hcapacity := h.capacity_eq
  exact decide_eq_true (by omega)

/-- A target that is an offset of the code. -/
theorem outside {target : Int64} {t : Nat} (ht : target.toInt = t) (hlt : t < code.size) :
    (Table.outside m target.toInt).fails = false := by
  have hcode := h.code_eq
  refine decide_eq_false (not_not.2 ⟨by omega, ?_⟩)
  rw [hcode]
  omega

end Row

/-- The word in a slot. -/
theorem slot_eq (h : m.Shows code capacity v) {i : Nat} (hi : v.stack[i]? = some w) :
    m.stack.slot i = w := by
  have hstack : m.stack.toList = v.stack := congrArg View.stack h.view_eq
  rw [Stack.slot, hstack, hi, Option.getD_some]

/-- The topmost word. -/
theorem top_eq (h : m.Shows code capacity ⟨s ++ [b], locals, p, fp, depth, out⟩) :
    Table.top m = b := by
  have hsize : m.stack.size = (s ++ [b]).length := h.size_eq
  rw [List.length_append, List.length_singleton] at hsize
  refine h.slot_eq ?_
  rw [hsize, Nat.add_sub_cancel]
  exact List.getElem?_concat_length

/-- The word below the topmost one. -/
theorem below_eq (h : m.Shows code capacity ⟨s ++ [a] ++ [b], locals, p, fp, depth, out⟩) :
    Table.below m = a := by
  have hsize : m.stack.size = (s ++ [a] ++ [b]).length := h.size_eq
  simp only [List.length_append, List.length_singleton] at hsize
  refine h.slot_eq ?_
  have hindex : m.stack.size - 2 = s.length := by omega
  rw [hindex]
  simp

/-- The view in which the topmost `n` words are replaced. -/
theorem replace_eq {gone : List Int64} {n : Nat}
    (h : m.Shows code capacity ⟨s ++ gone, locals, p, fp, depth, out⟩) (hn : gone.length = n)
    (words : List Int64) (width : Nat) :
    Table.replace m n words width =
      ⟨s ++ words, locals, ((p + width : Nat) : Int), fp, depth, out⟩ := by
  have hstack : m.stack.toList = s ++ gone := congrArg View.stack h.view_eq
  have hpc : m.pc = p := congrArg View.pc h.view_eq
  have hkept : m.stack.size - n = s.length := by
    rw [← hn, h.size_eq, List.length_append, Nat.add_sub_cancel]
  rw [Table.replace, h.view_eq, hstack, hkept, List.take_left' rfl, hpc, Int.natCast_add]

/-- The view with more words on top. -/
theorem push_eq (h : m.Shows code capacity ⟨s, locals, p, fp, depth, out⟩) (words : List Int64)
    (width : Nat) :
    Table.replace m 0 words width =
      ⟨s ++ words, locals, ((p + width : Nat) : Int), fp, depth, out⟩ := by
  rw [← List.append_nil s] at h
  exact h.replace_eq rfl words width

/-- The view without the topmost word. -/
theorem pop_eq (h : m.Shows code capacity ⟨s ++ [w], locals, p, fp, depth, out⟩) (width : Nat) :
    Table.replace m 1 [] width = ⟨s, locals, ((p + width : Nat) : Int), fp, depth, out⟩ := by
  rw [h.replace_eq (n := 1) rfl [] width, List.append_nil]

end Machine.Shows

/-- An instruction whose checks all pass is a block of one step, unless it halts. -/
theorem block_of_row {op : Opcode} (hpc : v.pc = p) (hop : code[p]? = some op.word)
    (hhalt : op ≠ .halt)
    (hrow : ∀ m : Machine, m.Shows code capacity v →
      (Table.row m op).fault? = none ∧ (Table.row m op).effect = v') :
    Block code capacity 1 v v' := by
  intro m hm
  obtain ⟨hpass, heffect⟩ := hrow m hm
  -- The table speaks of the row of an opcode and the step of the machine's own row, which are the
  -- same row here.
  have hhalts : (Table.row m op).halts = false := Machine.halts_of_ne hhalt
  rw [← hm.row_eq hpc hop] at hpass heffect hhalts
  obtain ⟨hview, hstatus⟩ := Machine.step_of_passes hm.reachable.bounded hm.ready hpass
  obtain ⟨hcode, -, hbudget, hcapacity, -⟩ := Machine.setup_of_step hm.ready
  rw [hhalts] at hstatus
  exact
    { running := hstatus
      unlimited := hbudget.trans hm.unlimited
      code_eq := hcode.trans hm.code_eq
      capacity_eq := hcapacity.trans hm.capacity_eq
      view_eq := hview.trans heffect
      reachable := hm.reachable.step }

/-- An instruction that has no room for its words ends in an overflow. -/
theorem overflows_of_row {op : Opcode} (hpc : v.pc = p) (hop : code[p]? = some op.word)
    (hrow : ∀ m : Machine, m.Shows code capacity v →
      (Table.row m op).fault? = some .stackOverflow) : Overflows code capacity v := by
  intro m hm
  have hfails : m.row.fault? = some .stackOverflow := by
    rw [hm.row_eq hpc hop]
    exact hrow m hm
  have hb := hm.reachable.bounded
  obtain ⟨fault, hfault, hkind⟩ := Machine.step_of_fails hb hm.ready hfails
  exact ⟨1, fault, hfault, hkind, Machine.printed_of_faulted hb hm.running hfault⟩

/-! ## The instructions as blocks -/

/-- A difference from a word that is no smaller does not wrap around. -/
theorem toInt_sub_of_le {a b : Int64} (hb : 0 ≤ b.toInt) (hle : b.toInt ≤ a.toInt) :
    (a - b).toInt = a.toInt - b.toInt := by
  -- The difference is between zero and `a`, so that it is in the range of words.
  have hlt := Int64.toInt_lt a
  rw [Int64.toInt_sub]
  exact Int.bmod_eq_of_le (by omega) (by omega)

section Instructions

variable {s locals : List Int64} {fp depth : Nat} {out : Sink} {w a b target index : Int64}
  {t i : Nat}

/-- A constant is pushed. -/
theorem block_const (hop : code[p]? = some Opcode.const.word) (hw : code[p + 1]? = some w)
    (hroom : s.length < capacity) :
    Block code capacity 1 ⟨s, locals, p, fp, depth, out⟩
      ⟨s ++ [w], locals, (p + 2 : Nat), fp, depth, out⟩ := by
  refine block_of_row rfl hop (by decide) fun m hm => ⟨?_, ?_⟩
  · rw [Table.row, Row.fault?_of_passes (hm.missing hw), Row.fault?_of_passes (hm.full hroom)]
    rfl
  · rw [Table.row, hm.operand hw]
    exact hm.push_eq [w] 2

/-- There is no room for a constant. -/
theorem overflows_const (hop : code[p]? = some Opcode.const.word) (hw : code[p + 1]? = some w)
    (hfull : capacity ≤ s.length) :
    Overflows code capacity ⟨s, locals, p, fp, depth, out⟩ := by
  refine overflows_of_row rfl hop fun m hm => ?_
  have hfull' := hm.full_of_lt (k := 1) (by omega)
  rw [Table.row, Row.fault?_of_passes (hm.missing hw), Row.fault?_of_fails hfull']
  rfl

/-- The checks of a load before the one for room, by the slot that its operand names. -/
theorem Machine.Shows.unoccupied {m : Machine}
    (h : m.Shows code capacity ⟨s, locals, p, fp, depth, out⟩) (hw : code[p + 1]? = some index)
    (hi : (fp : Int) + index.toInt = i) (hlt : i < s.length) :
    Table.address m = i ∧ (Table.unoccupied m.stack.size (Table.address m)).fails = false := by
  have hfp : m.fp = fp := congrArg View.fp h.view_eq
  have hsize : m.stack.size = s.length := h.size_eq
  have haddress : Table.address m = i := by
    rw [Table.address, hfp, h.operand hw, hi]
  refine ⟨haddress, decide_eq_false (not_not.2 ?_)⟩
  rw [haddress, hsize]
  omega

/-- A load pushes the word of a slot. -/
theorem block_load (hop : code[p]? = some Opcode.load.word) (hindex : code[p + 1]? = some index)
    (hi : (fp : Int) + index.toInt = i) (hw : s[i]? = some w) (hroom : s.length < capacity) :
    Block code capacity 1 ⟨s, locals, p, fp, depth, out⟩
      ⟨s ++ [w], locals, (p + 2 : Nat), fp, depth, out⟩ := by
  have hlt : i < s.length := (List.getElem?_eq_some_iff.1 hw).1
  refine block_of_row rfl hop (by decide) fun m hm => ?_
  obtain ⟨haddress, hoccupied⟩ := hm.unoccupied hindex hi hlt
  constructor
  · rw [Table.row, Row.fault?_of_passes (hm.missing hindex), Row.fault?_of_passes hoccupied,
      Row.fault?_of_passes (hm.full hroom)]
    rfl
  · rw [Table.row, haddress, Int.toNat_natCast, hm.slot_eq hw]
    exact hm.push_eq [w] 2

/-- There is no room for a word that is loaded. -/
theorem overflows_load (hop : code[p]? = some Opcode.load.word)
    (hindex : code[p + 1]? = some index) (hi : (fp : Int) + index.toInt = i) (hlt : i < s.length)
    (hfull : capacity ≤ s.length) :
    Overflows code capacity ⟨s, locals, p, fp, depth, out⟩ := by
  refine overflows_of_row rfl hop fun m hm => ?_
  have hfull' := hm.full_of_lt (k := 1) (by omega)
  rw [Table.row, Row.fault?_of_passes (hm.missing hindex),
    Row.fault?_of_passes (hm.unoccupied hindex hi hlt).2, Row.fault?_of_fails hfull']
  rfl

/-- An operation on the two topmost words. -/
theorem block_binary (op : Opcode) (f : Int64 → Int64 → Int64)
    (hrow : ∀ m, Table.row m op = Table.binary m f) (hop : code[p]? = some op.word) :
    Block code capacity 1 ⟨s ++ [a] ++ [b], locals, p, fp, depth, out⟩
      ⟨s ++ [f a b], locals, (p + 1 : Nat), fp, depth, out⟩ := by
  have hhalt : op ≠ .halt := by
    rintro rfl
    -- A halt would be the binary row on some machine, and any machine shows that it is not.
    exact Bool.noConfusion (congrArg Row.halts (hrow (Machine.new #[] 0 0)))
  refine block_of_row rfl hop hhalt fun m hm => ?_
  rw [hrow, Table.binary]
  constructor
  · rw [Row.fault?_of_passes (hm.fewer (by simp))]
    rfl
  · rw [hm.top_eq, hm.below_eq]
    rw [List.append_assoc] at hm
    exact hm.replace_eq rfl [f a b] 1

/-- A jump. -/
theorem block_jmp (hop : code[p]? = some Opcode.jmp.word) (htarget : code[p + 1]? = some target)
    (ht : target.toInt = t) (hlt : t < code.size) :
    Block code capacity 1 ⟨s, locals, p, fp, depth, out⟩ ⟨s, locals, t, fp, depth, out⟩ := by
  refine block_of_row rfl hop (by decide) fun m hm => ?_
  rw [Table.row, hm.operand htarget]
  constructor
  · rw [Row.fault?_of_passes (hm.missing htarget), Row.fault?_of_passes (hm.outside ht hlt)]
    rfl
  · rw [hm.view_eq, ht]

/-- A conditional jump on zero is taken. -/
theorem block_jmpf_taken (hop : code[p]? = some Opcode.jmpf.word)
    (htarget : code[p + 1]? = some target) (ht : target.toInt = t) (hlt : t < code.size) :
    Block code capacity 1 ⟨s ++ [0], locals, p, fp, depth, out⟩ ⟨s, locals, t, fp, depth, out⟩ := by
  refine block_of_row rfl hop (by decide) fun m hm => ?_
  rw [Table.row, Table.branch, hm.operand htarget, hm.top_eq]
  constructor
  · rw [Row.fault?_of_passes (hm.missing htarget), Row.fault?_of_passes (hm.fewer (by simp)),
      Row.fault?_of_passes (by rw [hm.outside ht hlt, Bool.and_false])]
    rfl
  · rw [hm.pop_eq 2, ht]
    rfl

/-- A conditional jump on another word is not taken. -/
theorem block_jmpf (hop : code[p]? = some Opcode.jmpf.word) (htarget : code[p + 1]? = some target)
    (hb : b ≠ 0) :
    Block code capacity 1 ⟨s ++ [b], locals, p, fp, depth, out⟩
      ⟨s, locals, (p + 2 : Nat), fp, depth, out⟩ := by
  have htaken : (b == 0) = false := beq_false_of_ne hb
  refine block_of_row rfl hop (by decide) fun m hm => ?_
  rw [Table.row, Table.branch, hm.operand htarget, hm.top_eq, htaken]
  constructor
  · rw [Row.fault?_of_passes (hm.missing htarget), Row.fault?_of_passes (hm.fewer (by simp)),
      Row.fault?_of_passes (by rw [Bool.false_and])]
    rfl
  · have hpc : m.pc = p := congrArg View.pc hm.view_eq
    rw [hm.pop_eq 2, hpc]
    rfl

/-- A local is pushed in place of its index. -/
theorem block_gload (hop : code[p]? = some Opcode.gload.word) (hi : index.toInt = i)
    (hw : locals[i]? = some w) :
    Block code capacity 1 ⟨s ++ [index], locals, p, fp, depth, out⟩
      ⟨s ++ [w], locals, (p + 1 : Nat), fp, depth, out⟩ := by
  have hlt : i < locals.length := (List.getElem?_eq_some_iff.1 hw).1
  refine block_of_row rfl hop (by decide) fun m hm => ?_
  have hlocals : m.locals.toList = locals := congrArg View.locals hm.view_eq
  rw [Table.row, hm.top_eq, hi, Int.toNat_natCast]
  constructor
  · have hlocal : (Table.noLocal m i).fails = false := by
      refine decide_eq_false (not_not.2 ⟨by omega, ?_⟩)
      rw [← Array.length_toList, hlocals]
      omega
    rw [Row.fault?_of_passes (hm.fewer (by simp)), Row.fault?_of_passes hlocal]
    rfl
  · rw [← Array.getElem?_toList, hlocals, hw, Option.getD_some]
    exact hm.replace_eq rfl [w] 1

/-- The topmost word is stored into a local. -/
theorem block_gstore (hop : code[p]? = some Opcode.gstore.word)
    (hindex : code[p + 1]? = some index) (hi : index.toInt = i) (hlt : i < locals.length) :
    Block code capacity 1 ⟨s ++ [w], locals, p, fp, depth, out⟩
      ⟨s, locals.set i w, (p + 2 : Nat), fp, depth, out⟩ := by
  refine block_of_row rfl hop (by decide) fun m hm => ?_
  have hlocals : m.locals.toList = locals := congrArg View.locals hm.view_eq
  rw [Table.row, hm.operand hindex, hm.top_eq, hi, Int.toNat_natCast]
  constructor
  · have hlocal : (Table.noLocal m i).fails = false := by
      refine decide_eq_false (not_not.2 ⟨by omega, ?_⟩)
      rw [← Array.length_toList, hlocals]
      omega
    rw [Row.fault?_of_passes (hm.fewer (by simp)), Row.fault?_of_passes (hm.missing hindex),
      Row.fault?_of_passes hlocal]
    rfl
  · rw [hm.pop_eq 2, hlocals]

/-- The topmost word is printed. -/
theorem block_print (hop : code[p]? = some Opcode.print.word) (hroom : out.isFull = false) :
    Block code capacity 1 ⟨s ++ [w], locals, p, fp, depth, out⟩
      ⟨s, locals, (p + 1 : Nat), fp, depth, out.write w⟩ := by
  refine block_of_row rfl hop (by decide) fun m hm => ?_
  have hout : m.out = out := congrArg View.out hm.view_eq
  rw [Table.row, hm.top_eq, hout]
  constructor
  · rw [Row.fault?_of_passes (hm.fewer (by simp)), Row.fault?_of_passes hroom]
    rfl
  · rw [hm.pop_eq 1]

/-! ## Calls and returns -/

/-- The checks of a call before the one for room, by the number of its arguments. -/
theorem Machine.Shows.callArguments {m : Machine}
    (h : m.Shows code capacity ⟨s, locals, p, fp, depth, out⟩) {argc : Int64} {n : Nat}
    (hargc : code[p + 2]? = some argc) (hn : argc.toInt = n) (hle : n ≤ s.length) :
    decide ((Table.operand m 2).toInt < 0 ∨ (m.stack.size : Int) < (Table.operand m 2).toInt) =
      false := by
  have hsize : m.stack.size = s.length := h.size_eq
  rw [h.operand hargc, hn, hsize]
  exact decide_eq_false (by omega)

/-- A call pushes a frame and goes on at its target. -/
theorem block_call {argc : Int64} {n : Nat} (hop : code[p]? = some Opcode.call.word)
    (htarget : code[p + 1]? = some target) (hargc : code[p + 2]? = some argc)
    (hn : argc.toInt = n) (hle : n ≤ s.length) (hroom : s.length + 3 ≤ capacity)
    (ht : target.toInt = t) (hlt : t < code.size) :
    Block code capacity 1 ⟨s, locals, p, fp, depth, out⟩
      ⟨s ++ [argc, Int64.ofNat fp, Int64.ofNat (p + 3)], locals, t, s.length + 2, depth + 1,
        out⟩ := by
  refine block_of_row rfl hop (by decide) fun m hm => ?_
  have harguments := hm.callArguments hargc hn hle
  constructor
  · rw [Table.row, hm.operand htarget, Row.fault?_of_passes (hm.missing htarget),
      Row.fault?_of_passes (hm.missing hargc), Row.fault?_of_passes harguments,
      Row.fault?_of_passes (hm.full hroom), Row.fault?_of_passes (hm.outside ht hlt)]
    rfl
  · have hpc : m.pc = p := congrArg View.pc hm.view_eq
    have hfp : m.fp = fp := congrArg View.fp hm.view_eq
    have hdepth : m.depth = depth := congrArg View.depth hm.view_eq
    have hsize : m.stack.size = s.length := hm.size_eq
    rw [Table.row, hm.operand htarget, hm.operand hargc, hm.push_eq _ 3, hpc, hfp, hdepth, hsize,
      ht]
    rfl

/-- The row of a call that has no room for its frame. -/
theorem Machine.Shows.fault?_call {m : Machine}
    (h : m.Shows code capacity ⟨s, locals, p, fp, depth, out⟩) {argc : Int64} {n : Nat}
    (htarget : code[p + 1]? = some target) (hargc : code[p + 2]? = some argc)
    (hn : argc.toInt = n) (hle : n ≤ s.length) (hfull : capacity < s.length + 3) :
    (Table.row m .call).fault? = some .stackOverflow := by
  have harguments := h.callArguments hargc hn hle
  rw [Table.row, Row.fault?_of_passes (h.missing htarget),
    Row.fault?_of_passes (h.missing hargc), Row.fault?_of_passes harguments,
    Row.fault?_of_fails (h.full_of_lt hfull)]
  rfl

/-- There is no room for a frame. -/
theorem overflows_call {argc : Int64} {n : Nat} (hop : code[p]? = some Opcode.call.word)
    (htarget : code[p + 1]? = some target) (hargc : code[p + 2]? = some argc)
    (hn : argc.toInt = n) (hle : n ≤ s.length) (hfull : capacity < s.length + 3) :
    Overflows code capacity ⟨s, locals, p, fp, depth, out⟩ :=
  overflows_of_row rfl hop fun _ hm => hm.fault?_call htarget hargc hn hle hfull

/-- A return drops the frame with its arguments, keeps the topmost word and goes on at the return
address. -/
theorem block_ret {args : List Int64} {argc savedFp returnPc : Int64} {f : Nat}
    (hop : code[p]? = some Opcode.ret.word) (hargc : argc.toInt = args.length)
    (hf : savedFp.toInt = f) (hflt : f < 2 ^ 31) (ht : returnPc.toInt = t) (hlt : t < code.size) :
    Block code capacity 1
      ⟨s ++ args ++ [argc, savedFp, returnPc] ++ [w], locals, p, s.length + args.length + 2,
        depth + 1, out⟩
      ⟨s ++ [w], locals, t, f, depth, out⟩ := by
  refine block_of_row rfl hop (by decide) fun m hm => ?_
  have hfp : m.fp = s.length + args.length + 2 := congrArg View.fp hm.view_eq
  have hdepth : m.depth = depth + 1 := congrArg View.depth hm.view_eq
  have hstack : m.stack.toList = s ++ args ++ [argc, savedFp, returnPc] ++ [w] :=
    congrArg View.stack hm.view_eq
  have hsize : m.stack.size = s.length + args.length + 4 := by
    rw [hm.size_eq]
    simp only [List.length_append, List.length_cons, List.length_nil]
  -- The words of the frame are where the frame pointer says.
  have hframe (j : Nat) : (s ++ args ++ [argc, savedFp, returnPc] ++ [w])[
      s.length + args.length + j]? = [argc, savedFp, returnPc, w][j]? := by
    rw [List.append_assoc, ← List.length_append, List.getElem?_append_right (Nat.le_add_right _ _),
      Nat.add_sub_cancel_left]
    rfl
  have hcount : m.stack.slot (m.fp - 2) = argc := by
    rw [hfp]
    exact hm.slot_eq (hframe 0)
  have hsaved : m.stack.slot (m.fp - 1) = savedFp := by
    rw [hfp]
    exact hm.slot_eq (hframe 1)
  have hreturn : m.stack.slot m.fp = returnPc := by
    rw [hfp]
    exact hm.slot_eq (hframe 2)
  have hvalue : (Table.fewer m 1).fails = false := decide_eq_false (by omega)
  rw [Table.row]
  dsimp only
  rw [hcount, hsaved, hreturn]
  constructor
  · rw [Row.fault?_of_passes (decide_eq_false (by omega)), Row.fault?_of_passes hvalue,
      Row.fault?_of_passes (decide_eq_false (by omega)),
      Row.fault?_of_passes (decide_eq_false (by omega)),
      Row.fault?_of_passes (decide_eq_false (by omega)),
      Row.fault?_of_passes (decide_eq_false (by omega)),
      Row.fault?_of_passes (decide_eq_false (by omega)), Row.fault?_of_passes (hm.outside ht hlt)]
    rfl
  · have hkept : m.fp - 2 - argc.toInt.toNat = s.length := by
      omega
    have htop : Table.top m = w := hm.top_eq
    rw [hkept, hstack, htop, hm.view_eq, ht, hf, hdepth, Nat.add_sub_cancel, Int.toNat_natCast]
    simp

end Instructions

/-! ## The end of a run -/

/-- A block that comes to a halt, together with the step that halts. -/
theorem Block.halts {s locals : List Int64} {fp depth : Nat} {out : Sink}
    (h : Block code capacity k v ⟨s, locals, p, fp, depth, out⟩)
    (hop : code[p]? = some Opcode.halt.word) {m : Machine} (hm : m.Shows code capacity v) :
    (Machine.step^[k + 1] m).status = .halted ∧
      (Machine.step^[k + 1] m).view = ⟨s, locals, (p + 1 : Nat), fp, depth, out⟩ ∧
      (Machine.step^[k + 1] m).steps = m.steps + (k + 1) := by
  have hlast := h m hm
  have hrow : (Machine.step^[k] m).row = Table.row (Machine.step^[k] m) .halt :=
    hlast.row_eq rfl hop
  have hb := hlast.reachable.bounded
  obtain ⟨hview, hstatus⟩ := Machine.step_of_passes hb hlast.ready (by rw [hrow]; rfl)
  obtain ⟨-, -, -, -, hsteps⟩ := Machine.setup_of_step hlast.ready
  rw [hrow] at hview hstatus
  rw [Function.iterate_succ_apply']
  refine ⟨hstatus, hview.trans ?_, ?_⟩
  · rw [Table.row, hlast.push_eq [] 1, List.append_nil]
  · rw [hsteps, Machine.steps_of_running hlast.running, Nat.add_assoc]

/-- A run that comes to an overflow answers with it. -/
theorem Overflows.answers (h : Overflows code capacity v) {m : Machine}
    (hm : m.Shows code capacity v) :
    ∃ events fault left, Answers .run m (.outcome (.faulted fault) events) left ∧
      fault.kind = .stackOverflow ∧ left.out.printed = m.out.printed := by
  obtain ⟨k, fault, hfault, hkind, hprinted⟩ := h m hm
  obtain ⟨events, hanswer⟩ := Machine.answers_of_iterate hfault Status.noConfusion
  exact ⟨events, fault, _, hanswer, hkind, hprinted⟩

end StackMachine
