import StackMachine.Proofs.Iterate

/-!
# A reset machine is a new one

Whatever was done to a machine, a reset leaves the machine that `Machine.new` makes from the same
arguments, with the sink as it now is. What a reset does not rewrite is in the machine's invariant,
so no request can have changed it. Since requests have one answer each, a host cannot tell the two
machines apart.
-/

namespace StackMachine

variable {code : Array Int64} {entry locals : Int} {options : Machine.Options} {m m' m'' : Machine}

/-- A machine that satisfies the invariant is new again after a reset, except for its sink. -/
theorem Machine.Invariant.reset_eq (h : m.Invariant code entry locals options) :
    m.reset = Machine.new code entry locals { options with out := m.out } := by
  -- What `reset` keeps is what the invariant fixes.
  have hcode := h.code_eq
  have hentry := h.entry_eq
  have hbudget := h.budget_eq
  have hcapacity := h.capacity_eq
  have hlocals := h.locals_size
  unfold Machine.reset Machine.new
  rw [hcode, hentry, hbudget, hcapacity, hlocals]

/-- The same requests, one after the other, get the same replies and lead to the same machine. -/
theorem Session.unique {history history' : List (Request × Reply)} (h : Session m history m')
    (h' : Session m history' m'') (hrequests : history'.map Prod.fst = history.map Prod.fst) :
    history' = history ∧ m'' = m' := by
  induction h generalizing history' with
  | nil =>
    cases h' with
    | nil => exact ⟨rfl, rfl⟩
    | cons => cases hrequests
  | cons head _ ih =>
    cases h' with
    | nil => cases hrequests
    | cons head' tail' =>
      obtain ⟨hrequest, hrest⟩ := List.cons.inj hrequests
      dsimp only at hrequest
      subst hrequest
      -- A request has one answer, so the rest of both sessions starts from one machine.
      obtain ⟨rfl, rfl⟩ := head.unique head'
      obtain ⟨rfl, rfl⟩ := ih tail' hrest
      exact ⟨rfl, rfl⟩

/-- After any session with a machine a reset makes it, in every field, the machine that is made new
with the sink as it then is; and that sink is the one it was made with after taking some values. So
whatever a host asks from then on, it is answered as by such a new machine: the requests that are
answered at all get the same replies, with the same faults and events, and lead to the same
machine. -/
theorem reset_renews {history : List (Request × Reply)}
    (h : Session (Machine.new code entry locals options) history m) :
    m.reset = Machine.new code entry locals { options with out := m.out } ∧
    (∃ values, options.out.Took values m.out) ∧
    (∀ later m', Session m.reset later m' ↔
      Session (Machine.new code entry locals { options with out := m.out }) later m') ∧
    ∀ later later' m' m'', Session m.reset later m' →
      Session (Machine.new code entry locals { options with out := m.out }) later' m'' →
      later'.map Prod.fst = later.map Prod.fst → later' = later ∧ m'' = m' := by
  have hreset := h.invariant.reset_eq
  refine ⟨hreset, h.took, fun later m' => ?_, fun later later' m' m'' hm' hm'' hrequests => ?_⟩
  · rw [hreset]
  · rw [← hreset] at hm''
    exact hm'.unique hm'' hrequests

/-- The host pushes a word and runs a program that prints, sets a local and returns from no call.
After a reset the machine is new but for the value that its sink has taken, and a second run answers
as that of a machine made so. -/
theorem reset_renews_faulted :
    let code := #[Opcode.const.word, 7, Opcode.print.word, Opcode.const.word, 5,
      Opcode.gstore.word, 0, Opcode.ret.word]
    ∃ history m, Session (Machine.new code 0 1) history m ∧
      history.map Prod.fst = [.access (.push 3), .run] ∧
      (m.locals = #[5] ∧ m.stack.toList = [3] ∧ m.site = ⟨7, Opcode.ret.word⟩) ∧
      m.reset = Machine.new code 0 1 { out := { printed := #[7] } } ∧
      ∀ reply m', Answers .run m.reset reply m' →
        Answers .run (Machine.new code 0 1 { out := { printed := #[7] } }) reply m' := by
  intro code
  -- The machines after the push and after the run, so that the session can be written down.
  let started := (Machine.new code 0 1).withStack ((Stack.empty 100).push 3 (by decide))
  let m := Machine.step^[5] started
  have hpush : (Access.push 3).action (Machine.new code 0 1) = .ok none started := rfl
  have hrun := (answers_run_iff (m := started) (k := 5) (by decide +kernel)).2 ⟨rfl, rfl⟩
  have hsession : Session (Machine.new code 0 1) _ m := .cons (.value hpush) (.cons hrun (.nil _))
  have hout : m.out = { printed := #[7] } := by decide +kernel
  obtain ⟨hreset, -, hlater, -⟩ := reset_renews hsession
  rw [hout] at hreset hlater
  refine ⟨_, m, hsession, rfl, ⟨by decide +kernel, by decide +kernel, by decide +kernel⟩,
    hreset, ?_⟩
  intro reply m' hanswer
  have hsame := (hlater _ m').1 (.cons hanswer (.nil _))
  cases hsame with
  | cons head tail =>
    cases tail
    exact head

end StackMachine
