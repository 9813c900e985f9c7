import StackMachine.Proofs.Session

/-!
# What the sink takes

An outlet loses room with every write (`Outlet.after`). A sink is one that takes values, one write
each, and never more than it has room for, and it changes in no other way. `Sink.Took` says so of
two states of one sink, and every request of a host keeps to it (`Session.took`). So what a machine
has printed is only ever added to, and how much room is left can be read off the number of values.
-/

namespace StackMachine

namespace Outlet

/-- No writes leave an outlet as it is. -/
@[simp]
theorem after_zero (o : Outlet) : o.after 0 = o := by
  cases o with
  | mk room complaint => cases room <;> rfl

/-- Some writes after others. -/
@[simp]
theorem after_after (o : Outlet) (n k : Nat) : (o.after n).after k = o.after (n + k) := by
  cases o with
  | mk room complaint =>
    cases room with
    | none => rfl
    | some r => exact congrArg (fun left => Outlet.mk (some left) complaint) (Nat.sub_sub r n k)

/-- An outlet without a limit stays as it is. -/
theorem after_of_room {o : Outlet} (h : o.room = none) (n : Nat) : o.after n = o := by
  cases o with
  | mk room complaint =>
    obtain rfl : room = none := h
    rfl

/-- An outlet without a limit is not full. -/
theorem isFull_of_room {o : Outlet} (h : o.room = none) : o.isFull = false := by
  rw [isFull, h]
  rfl

end Outlet

namespace Sink

/-! ## Progress of a sink -/

/-- `s.Took values s'`: after it has taken `values`, one write each, the sink `s` is `s'`. -/
structure Took (s : Sink) (values : Array Int64) (s' : Sink) : Prop where
  printed : s'.printed = s.printed ++ values
  room : s'.room = s.room.map (· - values.size)
  complaint : s'.complaint = s.complaint
  /-- No more writes are taken than there was room for. -/
  fits : ∀ n, s.room = some n → values.size ≤ n

variable {s s' : Sink} {values : Array Int64}

/-- A sink that has taken nothing is as it was. -/
theorem Took.refl (s : Sink) : s.Took #[] s where
  printed := Array.append_empty.symm
  room := by
    cases hroom : s.room with
    | none => rfl
    | some n => rfl
  complaint := rfl
  fits _ _ := Nat.zero_le _

/-- A sink that is not full takes one value more. -/
theorem Took.write (h : s.Took values s') (hroom : s'.isFull = false) (v : Int64) :
    s.Took (values.push v) (s'.write v) := by
  refine ⟨?_, ?_, h.complaint, ?_⟩
  · show s'.printed.push v = s.printed ++ values.push v
    rw [h.printed, Array.append_push]
  · show s'.room.map (· - 1) = s.room.map (· - (values.push v).size)
    rw [h.room, Option.map_map, Array.size_push]
    -- Room is a natural number, so that taking off one by one is taking off all at once.
    congr 1
  · -- There was room for one more write, since the sink did not refuse it.
    intro n hn
    have hle := h.fits n hn
    have hleft : s'.room = some (n - values.size) := by
      rw [h.room, hn, Option.map_some]
    have hne : n - values.size ≠ 0 := by
      intro hzero
      rw [hzero] at hleft
      simp [Outlet.isFull, hleft] at hroom
    rw [Array.size_push]
    omega

/-- What is left of the outlet. -/
theorem Took.toOutlet_eq (h : s.Took values s') :
    s'.toOutlet = s.toOutlet.after values.size := by
  -- An outlet is its room and its complaint, and `Took` gives both.
  obtain ⟨⟨room, complaint⟩, printed⟩ := s'
  obtain ⟨-, rfl, rfl, -⟩ := h
  rfl

/-! ## The text of a sink -/

/-- The text of a sink is a line for each value. -/
theorem text_eq_join (s : Sink) : s.text = String.join (s.printed.toList.map line) := by
  unfold text String.join
  rw [← Array.foldl_toList, List.foldl_map]

/-! ## Sinks without a limit -/

/-- The sink after it has taken some values. -/
def writeAll (s : Sink) (values : List Int64) : Sink :=
  values.foldl write s

/-- A sink without a limit has none after a value either. -/
theorem room_write {s : Sink} (h : s.room = none) (v : Int64) : (s.write v).room = none := by
  rw [write, h]
  rfl

/-- The values are taken in order. -/
theorem printed_writeAll (s : Sink) (values : List Int64) :
    (s.writeAll values).printed.toList = s.printed.toList ++ values := by
  -- Each value is taken by the sink that the ones before it have left.
  induction values generalizing s with
  | nil => exact (List.append_nil _).symm
  | cons v values ih =>
    show ((s.write v).writeAll values).printed.toList = s.printed.toList ++ v :: values
    rw [ih, write, Array.toList_push, List.append_assoc, List.singleton_append]

/-- Every value adds its line. -/
theorem text_writeAll (s : Sink) (values : List Int64) :
    (s.writeAll values).text = s.text ++ String.join (values.map line) := by
  rw [text_eq_join, text_eq_join, printed_writeAll, List.map_append, String.join_append]

end Sink

namespace Machine

/-! ## The sink of a machine -/

/-- The sink of the machine is `sink`, or that after it has taken some values. -/
def Prints (sink : Sink) (m : Machine) : Prop :=
  ∃ values, sink.Took values m.out

/-- A machine has printed nothing since now. -/
theorem Prints.refl (m : Machine) : Prints m.out m := ⟨#[], .refl m.out⟩

variable {sink : Sink} {m : Machine}

/-- Only printing touches the sink. -/
theorem Prints.stable (sink : Sink) : Action.Stable (Prints sink) where
  stack _ _ h _ := h
  locals _ _ h _ := h
  pc _ _ h _ _ := h
  out _ v h hroom := by
    obtain ⟨values, htook⟩ := h
    exact ⟨values.push v, htook.write hroom v⟩
  site _ _ h := h

/-- Calls and returns do not touch the sink. -/
theorem Prints.leads (sink : Sink) : Action.Leads (Prints sink) (Prints sink) where
  before := Prints.stable sink
  after := Prints.stable sink
  weaken _ h := h
  link _ h := h
  unlink _ _ h _ := h

/-- In a step the sink takes what the step prints and changes in no other way. -/
theorem Prints.step (h : Prints sink m) : Prints sink m.step := by
  obtain hstep | ⟨limit, -, hstep⟩ | hready := m.step_cases
  · rw [hstep]
    exact h
  · rw [hstep]
    exact h
  · obtain ⟨left, status, hleft, hstep⟩ :=
      step_of_ensures hready (Prints.leads sink).dispatch h
    rw [hstep]
    exact hleft

/-- In any number of steps the sink takes what they print. -/
theorem Prints.iterate (m : Machine) (k : Nat) : Prints m.out (Machine.step^[k] m) :=
  Function.Iterate.rec (Prints m.out) (.refl m) (fun _ h => h.step) k

end Machine

/-- In a session the sink takes what the session prints, resets or not. -/
theorem Session.took {m m' : Machine} {history : List (Request × Reply)}
    (h : Session m history m') : ∃ values, m.out.Took values m'.out := by
  -- The invariant is relative to the sink at the start. A reset does not touch the sink.
  refine h.induction (I := Machine.Prints m.out) ?_ (.refl m)
  intro request m₁ reply m₂ hanswer hm
  exact hanswer.induction (fun _ hm => hm.step) (fun _ hm => hm)
    (Machine.Prints.stable m.out).access hm

end StackMachine
