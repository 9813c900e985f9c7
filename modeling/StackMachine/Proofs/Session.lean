import StackMachine.Proofs.Run

/-!
# Sessions of a host with a machine

A host drives a machine by requests: it steps it, runs it until it stops, resets it, or accesses its
state directly. A session is any finite sequence of requests with the replies they got. A run that
never stops gives no reply, so a session holds only runs that returned.

`Session.induction` reduces a property of all sessions to one of each request, and
`Action.Stable.access` gives the direct accesses at once.
-/

namespace StackMachine

/-! ## Requests -/

/-- A direct access of a host to the state of a machine. -/
inductive Access where
  | push (v : Int64)
  | pop
  | fetch
  | readLocal (index : Int64)
  | writeLocal (index v : Int64)
  | readRelative (offset : Int64)
  | writeRelative (offset v : Int64)
  deriving DecidableEq, Repr

/-- The action behind an access. It answers with the word it took, if it takes one. -/
def Access.action : Access → Action (Option Int64)
  | .push v => do Action.push v; pure none
  | .pop => do let v ← Action.pop; pure (some v)
  | .fetch => do let v ← Action.fetch; pure (some v)
  | .readLocal index => do let v ← Action.readLocal index; pure (some v)
  | .writeLocal index v => do Action.writeLocal index v; pure none
  | .readRelative offset => do let v ← Action.readRelative offset; pure (some v)
  | .writeRelative offset v => do Action.writeRelative offset v; pure none

/-- What a host can ask of a machine. -/
inductive Request where
  | step
  | run
  | reset
  | access (access : Access)
  deriving DecidableEq, Repr

/-- What a host gets back. -/
inductive Reply where
  /-- How the machine stands after a step or a run, and the instructions that were dispatched. -/
  | outcome (status : Status) (events : Array Machine.Event)
  /-- The machine was reset. -/
  | done
  /-- The access took effect, with the word it took. -/
  | value (word : Option Int64)
  /-- The access failed. -/
  | refused (fault : Fault)
  deriving DecidableEq, Repr

/-- `Answers request m reply m'`: asked on `m`, the request gives `reply` and leaves `m'`. -/
inductive Answers : Request → Machine → Reply → Machine → Prop where
  | step (m : Machine) :
      Answers .step m (.outcome (m.stepTraced #[]).1.status (m.stepTraced #[]).2)
        (m.stepTraced #[]).1
  /-- A run returns once the machine has stopped. -/
  | run (m : Machine) (fuel : Nat) (stopped : (m.runTraced fuel #[]).1.status ≠ .running) :
      Answers .run m (.outcome (m.runTraced fuel #[]).1.status (m.runTraced fuel #[]).2)
        (m.runTraced fuel #[]).1
  | reset (m : Machine) : Answers .reset m .done m.reset
  | value {a : Access} {m m' : Machine} {word : Option Int64} (h : a.action m = .ok word m') :
      Answers (.access a) m (.value word) m'
  | refused {a : Access} {m m' : Machine} {fault : Fault} (h : a.action m = .error fault m') :
      Answers (.access a) m (.refused fault) m'

/-- A sequence of requests with their replies that leads from one machine to another. -/
inductive Session : Machine → List (Request × Reply) → Machine → Prop where
  | nil (m : Machine) : Session m [] m
  | cons {m m₁ m₂ : Machine} {request : Request} {reply : Reply}
      {history : List (Request × Reply)} (head : Answers request m reply m₁)
      (tail : Session m₁ history m₂) : Session m ((request, reply) :: history) m₂

namespace Machine

/-- A machine that some host can have made and driven to where it is. -/
def Reachable (m : Machine) : Prop :=
  ∃ code entry locals options history, Session (new code entry locals options) history m

/-- A new machine is in use. -/
theorem reachable_new (code : Array Int64) (entry locals : Int) (options : Options) :
    (new code entry locals options).Reachable :=
  ⟨code, entry, locals, options, [], .nil _⟩

end Machine

/-- Sessions follow one another. -/
theorem Session.append {m m' m'' : Machine} {history later : List (Request × Reply)}
    (h : Session m history m') (hlater : Session m' later m'') :
    Session m (history ++ later) m'' := by
  -- The second session stays as it is, and the first one loses its requests from the front.
  induction h with
  | nil => exact hlater
  | cons head _ ih => exact .cons head (ih hlater)

/-- A machine in use is still in use after a step. -/
theorem Machine.Reachable.step {m : Machine} (h : m.Reachable) : m.step.Reachable := by
  obtain ⟨code, entry, locals, options, history, hsession⟩ := h
  exact ⟨code, entry, locals, options, _, hsession.append (.cons (.step m) (.nil _))⟩

/-! ## Induction -/

/-- A property that every request keeps holds at the end of a session. -/
theorem Session.induction {I : Machine → Prop}
    (hkeep : ∀ {request m reply m'}, Answers request m reply m' → I m → I m')
    {m m' : Machine} {history : List (Request × Reply)} (h : Session m history m') (hm : I m) :
    I m' := by
  induction h with
  | nil m => exact hm
  | cons head _ ih => exact ih (hkeep head hm)

/-- A property that steps, resets and accesses keep is kept by every request. -/
theorem Answers.induction {I : Machine → Prop} (hstep : ∀ m, I m → I m.step)
    (hreset : ∀ m, I m → I m.reset) (haccess : ∀ a : Access, Action.Ensures I a.action I)
    {request : Request} {m m' : Machine} {reply : Reply} (h : Answers request m reply m')
    (hm : I m) : I m' := by
  cases h with
  | step => exact hstep m hm
  | run _ fuel =>
    -- A run is steps, and the instructions that it reports do not matter to `I`.
    rw [Machine.runTraced_fst]
    exact Machine.run_induction hstep fuel hm
  | reset => exact hreset m hm
  | @value a _ _ word hok =>
    -- An access has to keep `I` whether it takes effect or fails.
    have hm' := haccess a m hm
    rw [hok] at hm'
    exact hm'
  | @refused a _ _ fault herror =>
    have hm' := haccess a m hm
    rw [herror] at hm'
    exact hm'

/-- An access keeps a stable property. -/
theorem Action.Stable.access {I : Machine → Prop} (hI : Action.Stable I) (a : Access) :
    Action.Ensures I a.action I := by
  cases a with
  | push v => exact (hI.push v).keep fun _ => Action.ensures_pure _
  | pop => exact hI.pop.keep fun _ => Action.ensures_pure _
  | fetch => exact hI.fetch.keep fun _ => Action.ensures_pure _
  | readLocal index => exact (Action.Stable.readLocal index).keep fun _ => Action.ensures_pure _
  | writeLocal index v => exact (hI.writeLocal index v).keep fun _ => Action.ensures_pure _
  | readRelative offset =>
    exact (Action.Stable.readRelative offset).keep fun _ => Action.ensures_pure _
  | writeRelative offset v =>
    exact (hI.writeRelative offset v).keep fun _ => Action.ensures_pure _

/-! ## Refused accesses -/

/-- An action that changes nothing when it fails. -/
def Action.Clean {α : Type} (a : Action α) : Prop :=
  ∀ m m' fault, a m = .error fault m' → m' = m

namespace Action.Clean

/-- A clean action stays clean when its value is only passed on. -/
theorem bind_pure {α β : Type} {a : Action α} (ha : a.Clean) (f : α → β) :
    (a >>= fun x => pure (f x) : Action β).Clean := by
  intro m m' fault h
  -- Passing the value on cannot fail, so that it was `a` that did.
  cases hrun : a m with
  | ok x m₁ =>
    rw [bind_ok hrun] at h
    cases h
  | error e m₁ =>
    rw [bind_error hrun] at h
    cases h
    exact ha m m' fault hrun

/-- An action that makes one check, and nothing before it, is clean. -/
theorem of_check {α : Type} {c : Machine → Prop} [DecidablePred c] {x : ∀ m, c m → α}
    {next : ∀ m, c m → Machine} {reason : Machine → Reason} :
    Clean fun m => if h : c m then .ok (x m h) (next m h) else fail (reason m) m := by
  intro m m' fault h
  dsimp only at h
  split at h
  · cases h
  · cases h
    rfl

/-- A read relative to the frame pointer that fails changes nothing. -/
theorem readRelative (offset : Int64) : (Action.readRelative offset).Clean := by
  intro m m' fault h
  unfold Action.readRelative at h
  split at h
  · cases h
  · cases h
    rfl

/-- A write relative to the frame pointer that fails changes nothing. -/
theorem writeRelative (offset v : Int64) : (Action.writeRelative offset v).Clean := by
  intro m m' fault h
  unfold Action.writeRelative at h
  split at h
  · cases h
  · cases h
    rfl

/-- An access that fails changes nothing. -/
theorem access (a : Access) : a.action.Clean := by
  cases a with
  | push v => exact bind_pure (a := Action.push v) of_check _
  | pop => exact bind_pure (a := Action.pop) of_check _
  | fetch => exact bind_pure (a := Action.fetch) of_check _
  | readLocal index => exact bind_pure (a := Action.readLocal index) of_check _
  | writeLocal index v => exact bind_pure (a := Action.writeLocal index v) of_check _
  -- These two look for a slot instead of checking a condition, so `of_check` does not apply.
  | readRelative offset => exact (readRelative offset).bind_pure _
  | writeRelative offset v => exact (writeRelative offset v).bind_pure _

end Action.Clean

end StackMachine
