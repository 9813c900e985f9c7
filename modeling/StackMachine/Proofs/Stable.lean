import StackMachine.Machine.Step
import StackMachine.Proofs.Access

/-!
# Properties that instructions keep

An instruction changes a machine only through a handful of elementary updates, and it can stop after
any of them. `Stable` lists those that a host can make too; the opening and the closing of a frame
are reserved to calls and returns, and happen at most once in each. `Leads` asks of a stable
property what becomes of it there, possibly a weaker one, which is how the depth is bounded.
`Leads.dispatch` concludes for every exit of every instruction, whether it succeeds or fails.
-/

namespace StackMachine.Action

variable {α β : Type} {I J : Machine → Prop}

/-! ## Exits of an action -/

/-- Started on a machine with `I`, the action leaves one with `J`, at whichever exit. -/
def Ensures (I : Machine → Prop) (a : Action α) (J : Machine → Prop) : Prop :=
  ∀ m, I m → match a m with
    | .ok _ m' => J m'
    | .error _ m' => J m'

/-- Returning a value changes nothing. -/
theorem ensures_pure (x : α) : Ensures I (pure x) I := fun _ h => h

/-- Failing changes nothing. -/
theorem ensures_fail (reason : Reason) : Ensures I (fail (α := α) reason) I := fun _ h => h

/-- Reading the machine changes nothing. -/
theorem ensures_get : Ensures I get I := fun _ h => h

/-- A change of the machine, by what it does to the property. -/
theorem ensures_modify {g : Machine → Machine} (h : ∀ m, I m → J (g m)) :
    Ensures I (modify g) J := h

/-- A property at the end may be weakened. -/
theorem Ensures.weaken {K : Machine → Prop} {a : Action α} (ha : Ensures I a J)
    (h : ∀ m, J m → K m) : Ensures I a K := by
  intro m hm
  have hj := ha m hm
  split at hj
  · exact h _ hj
  · exact h _ hj

/-- Two actions in a row. The first may be the last to run, so its property has to imply the one
at the end. -/
theorem Ensures.bind {K : Machine → Prop} {a : Action α} {f : α → Action β} (ha : Ensures I a J)
    (hf : ∀ x, Ensures J (f x) K) (h : ∀ m, J m → K m) : Ensures I (a >>= f) K := by
  intro m hm
  have hj := ha m hm
  cases hrun : a m with
  | ok x m' =>
    rw [bind_ok hrun]
    rw [hrun] at hj
    exact hf x m' hj
  | error e m' =>
    rw [bind_error hrun]
    rw [hrun] at hj
    exact h m' hj

/-- Two actions in a row that keep the same property. -/
theorem Ensures.keep {a : Action α} {f : α → Action β} (ha : Ensures I a I)
    (hf : ∀ x, Ensures I (f x) I) : Ensures I (a >>= f) I :=
  ha.bind hf fun _ h => h

/-! ## Stable properties -/

/-- A property of machines that holds on after every elementary update, the opening and the closing
of a frame apart. -/
structure Stable (I : Machine → Prop) : Prop where
  /-- The stack may change, but not its capacity. -/
  stack : ∀ m s, I m → s.capacity = m.stack.capacity → I (m.withStack s)
  /-- Locals may change, but not how many there are. -/
  locals : ∀ m l, I m → l.size = m.locals.size → I (m.withLocals l)
  /-- The program counter may move inside the code or just past it. -/
  pc : ∀ m (pc : Int), I m → 0 ≤ pc → pc ≤ m.code.size → I (m.withPc pc)
  /-- The sink may take a value that it has room for. -/
  out : ∀ m v, I m → m.out.isFull = false → I (m.withOut (m.out.write v))
  /-- Another instruction may begin. -/
  site : ∀ m site, I m → I (m.withSite site)

namespace Stable

/-- A push keeps a stable property. -/
theorem push (hI : Stable I) (v : Int64) : Ensures I (Action.push v) I := by
  intro m hm
  by_cases h : m.stack.size < m.stack.capacity
  · rw [push_of_lt v h]
    exact hI.stack _ _ hm (Stack.capacity_push _ _ _)
  · rw [push_of_full v (by omega)]
    exact hm

/-- A pop keeps a stable property. -/
theorem pop (hI : Stable I) : Ensures I Action.pop I := by
  intro m hm
  by_cases h : 0 < m.stack.size
  · rw [pop_of_pos h]
    exact hI.stack _ _ hm (Stack.capacity_pop _ _)
  · rw [pop_of_empty (by omega)]
    exact hm

/-- A fetch keeps a stable property. -/
theorem fetch (hI : Stable I) : Ensures I Action.fetch I := by
  intro m hm
  cases hw : m.word? m.pc with
  | some w =>
    -- Past the last word the program counter is just outside the code, which `Stable.pc` allows.
    obtain ⟨h0, h1⟩ := Machine.inside_of_word? hw
    rw [fetch_of_some hw]
    exact hI.pc _ _ hm (by omega) (by omega)
  | none =>
    rw [fetch_of_none hw]
    exact hm

/-- A jump keeps a stable property. -/
theorem jump (hI : Stable I) (target : Int64) : Ensures I (Action.jump target) I := by
  intro m hm
  by_cases h : m.Inside target.toInt
  · rw [jump_of_inside h]
    exact hI.pc _ _ hm h.1 (Int.le_of_lt h.2)
  · rw [jump_of_outside h]
    exact hm

/-- A read of a local changes nothing. -/
theorem readLocal (index : Int64) : Ensures I (Action.readLocal index) I := by
  intro m hm
  unfold Action.readLocal
  by_cases h : 0 ≤ index.toInt ∧ index.toInt < m.locals.size
  · rw [dif_pos h]
    exact hm
  · rw [dif_neg h]
    exact hm

/-- A write of a local keeps a stable property. -/
theorem writeLocal (hI : Stable I) (index v : Int64) :
    Ensures I (Action.writeLocal index v) I := by
  intro m hm
  by_cases h : 0 ≤ index.toInt ∧ index.toInt < m.locals.size
  · rw [writeLocal_of_inside v h]
    exact hI.locals _ _ hm (Array.size_set _)
  · rw [writeLocal_of_outside v h]
    exact hm

/-- A read relative to the frame pointer changes nothing. -/
theorem readRelative (offset : Int64) : Ensures I (Action.readRelative offset) I := by
  intro m hm
  unfold Action.readRelative
  cases m.slot? offset with
  | some i => exact hm
  | none => exact hm

/-- A write relative to the frame pointer keeps a stable property. -/
theorem writeRelative (hI : Stable I) (offset v : Int64) :
    Ensures I (Action.writeRelative offset v) I := by
  intro m hm
  unfold Action.writeRelative
  cases m.slot? offset with
  | some i => exact hI.stack _ _ hm (Stack.capacity_set _ _ _ _)
  | none => exact hm

/-- Handing a value to the sink keeps a stable property. -/
theorem print (hI : Stable I) (v : Int64) : Ensures I (Action.print v) I := by
  intro m hm
  cases h : m.out.isFull with
  | true =>
    rw [print_of_full v h]
    exact hm
  | false =>
    rw [print_of_room v h]
    exact hI.out _ _ hm h

/-- Truncating the stack keeps a stable property. -/
theorem truncate (hI : Stable I) (n : Nat) :
    Ensures I (modify fun m => { m with stack := m.stack.truncate n }) I :=
  ensures_modify fun _ hm => hI.stack _ _ hm (Stack.capacity_truncate _ _)

/-! ## Instructions -/

/-- An instruction that replaces two words keeps what its operation keeps. -/
theorem binary (hI : Stable I) {f : Int64 → Int64 → Action Int64}
    (hf : ∀ a b, Ensures I (f a b) I) : Ensures I (Action.binary f) I := by
  unfold Action.binary
  exact hI.pop.keep fun b => hI.pop.keep fun a => (hf a b).keep fun v => hI.push v

/-- A division changes nothing itself. -/
theorem divide (a b : Int64) : Ensures I (Action.divide a b) I := by
  unfold Action.divide
  split
  · exact ensures_fail _
  · exact ensures_pure _

/-- A comparison keeps a stable property. -/
theorem compare (hI : Stable I) (r : Int64 → Int64 → Bool) : Ensures I (Action.compare r) I :=
  hI.binary fun _ _ => ensures_pure _

/-- A conditional jump keeps a stable property. -/
theorem branch (hI : Stable I) (taken : Bool) : Ensures I (Action.branch taken) I := by
  unfold Action.branch
  refine hI.fetch.keep fun target => hI.pop.keep fun condition => ?_
  split
  · exact hI.jump target
  · exact ensures_pure _

end Stable

/-! ## Calls, returns and all instructions -/

/-- Two stable properties such that the second holds wherever an instruction started in the first
can end. -/
structure Leads (I J : Machine → Prop) : Prop where
  before : Stable I
  after : Stable J
  /-- An instruction may end before it touches a frame. -/
  weaken : ∀ m, I m → J m
  /-- A call opens a frame at the top of the stack. -/
  link : ∀ m, I m → J m.link
  /-- A return closes one, and takes only a frame pointer that fits 32 bits. -/
  unlink : ∀ m fp, I m → fp < 2^31 → J (m.unlink fp)

namespace Leads

/-- Every exit of a call. -/
theorem call (h : Leads I J) : Ensures I Action.call J := by
  -- Until the frame is linked every exit is one of `I`, which `weaken` takes to `J`.
  have hI := h.before
  unfold Action.call
  refine hI.fetch.bind (fun target => ?_) h.weaken
  refine hI.fetch.bind (fun argc => ?_) h.weaken
  refine ensures_get.bind (fun m₀ => ?_) h.weaken
  dsimp only
  split
  · exact (ensures_fail _).weaken h.weaken
  refine (hI.push argc).bind (fun _ => ?_) h.weaken
  refine ensures_get.bind (fun m₁ => ?_) h.weaken
  refine (hI.push _).bind (fun _ => ?_) h.weaken
  refine ensures_get.bind (fun m₂ => ?_) h.weaken
  refine (hI.push _).bind (fun _ => ?_) h.weaken
  -- The frame is open when the jump is checked, so a call that fails there has left `I` already.
  exact (ensures_modify h.link).bind (fun _ => h.after.jump target) fun _ hm => hm

/-- Every exit of a return. -/
theorem ret (h : Leads I J) : Ensures I Action.ret J := by
  have hI := h.before
  unfold Action.ret
  refine ensures_get.bind (fun m₀ => ?_) h.weaken
  split
  · exact (ensures_fail _).weaken h.weaken
  refine hI.pop.bind (fun value => ?_) h.weaken
  refine ensures_get.bind (fun m₁ => ensures_get.bind (fun m₂ => ?_) h.weaken) h.weaken
  dsimp only
  split
  · exact (ensures_fail _).weaken h.weaken
  refine (hI.truncate _).bind (fun _ => ?_) h.weaken
  refine hI.pop.bind (fun returnPc => ?_) h.weaken
  refine hI.pop.bind (fun savedFp => ?_) h.weaken
  refine hI.pop.bind (fun argc => ?_) h.weaken
  refine ensures_get.bind (fun m₃ => ?_) h.weaken
  split
  · exact (ensures_fail _).weaken h.weaken
  refine (hI.truncate _).bind (fun _ => ?_) h.weaken
  split
  · exact (ensures_fail _).weaken h.weaken
  · -- The check just passed is what bounds the frame pointer taken from the stack.
    rename_i hfp
    have hclose : ∀ m, I m → J (m.unlink savedFp.toInt.toNat) :=
      fun m hm => h.unlink m _ hm (by omega)
    refine (ensures_modify hclose).bind (fun _ => ?_) fun _ hm => hm
    exact (h.after.jump returnPc).keep fun _ => h.after.push value

/-- Every exit of every instruction. -/
theorem execute (h : Leads I J) (op : Opcode) : Ensures I (Action.execute op) J := by
  have hI := h.before
  -- What an instruction ends with either opens or closes a frame (`last`) or keeps `I` (`done`).
  have last : ∀ {a : Action Unit}, Ensures I a J → Ensures I (a >>= fun _ => pure false) J :=
    fun ha => ha.bind (fun _ => ensures_pure false) fun _ hm => hm
  have done : ∀ {a : Action Unit}, Ensures I a I → Ensures I (a >>= fun _ => pure false) J :=
    fun ha => last (ha.weaken h.weaken)
  cases op with
  | add => exact done (hI.binary fun _ _ => ensures_pure _)
  | sub => exact done (hI.binary fun _ _ => ensures_pure _)
  | mul => exact done (hI.binary fun _ _ => ensures_pure _)
  | div => exact done (hI.binary Stable.divide)
  | lt => exact done (hI.compare _)
  | gt => exact done (hI.compare _)
  | eq => exact done (hI.compare _)
  | jmp => exact hI.fetch.bind (fun target => done (hI.jump target)) h.weaken
  | jmpt => exact done (hI.branch true)
  | jmpf => exact done (hI.branch false)
  | const => exact hI.fetch.bind (fun v => done (hI.push v)) h.weaken
  | load =>
    refine hI.fetch.bind (fun offset => ?_) h.weaken
    exact (Stable.readRelative offset).bind (fun v => done (hI.push v)) h.weaken
  | store =>
    refine hI.fetch.bind (fun offset => ?_) h.weaken
    exact hI.pop.bind (fun v => done (hI.writeRelative offset v)) h.weaken
  | gload =>
    refine hI.pop.bind (fun index => ?_) h.weaken
    exact (Stable.readLocal index).bind (fun v => done (hI.push v)) h.weaken
  | gstore =>
    refine hI.pop.bind (fun v => ?_) h.weaken
    exact hI.fetch.bind (fun index => done (hI.writeLocal index v)) h.weaken
  | print => exact hI.pop.bind (fun v => done (hI.print v)) h.weaken
  | pop => exact (hI.pop.keep fun _ => ensures_pure false).weaken h.weaken
  | halt => exact (ensures_pure true).weaken h.weaken
  | call => exact last h.call
  | ret => exact last h.ret

/-- Every exit of the whole dispatch of an instruction. -/
theorem dispatch (h : Leads I J) : Ensures I Action.dispatch J := by
  have hI := h.before
  unfold Action.dispatch
  refine (ensures_modify fun m hm => hI.site m _ hm).bind (fun _ => ?_) h.weaken
  refine hI.fetch.bind (fun word => ?_) h.weaken
  refine (ensures_modify fun m hm => hI.site m _ hm).bind (fun _ => ?_) h.weaken
  cases Opcode.ofWord? word with
  | some op => exact h.execute op
  | none => exact (ensures_fail _).weaken h.weaken

end Leads

end StackMachine.Action
