import Mathlib
import StackMachine.Proofs.Stack

/-!
# The stack is a list with a bound

A stack is used by calls: push, pop, peek, get, set and truncate, with any words and any integers as
indices. `Stack.perform` is what a call answers and the stack it leaves. `BoundedList` takes the
same calls on a list of words, bottom first, and a bound on its length. It has no cells, and when a
call is refused is listed in one place (`BoundedList.refusal?`).

A stack holds a list when the occupied slots are its words, the capacity is its bound, and every
vacant cell is zero (`Stack.Holds`). One call keeps this and gets the same answer from both
(`Holds.perform`), case by case of the calls. So does a sequence of calls (`converse_simulates`),
and `stack_refines_bounded_list` is that for the stacks and lists that are made from the same seeds.
-/

namespace StackMachine

namespace Stack

/-! ## Calls -/

/-- A call of a stack. -/
inductive Call where
  | push (v : Int64)
  | pop
  | peek
  | get (i : Int)
  | set (i : Int) (v : Int64)
  | truncate (n : Int)
  deriving DecidableEq, Repr

/-- What a call gets back: the word that it asks for, if it asks for one, or the reason why it does
not apply. -/
abbrev Answer := Except Error (Option Int64)

/-- A call by the operation behind it, with the stack that is left if it applies. -/
def attempt (s : Stack) : Call → Except Error (Option Int64 × Stack)
  | .push v => (s.push? v).map fun next => (none, next)
  | .pop => s.pop?.map fun (word, next) => (some word, next)
  | .peek => s.peek?.map fun word => (some word, s)
  | .get i => (s.get? i).map fun word => (some word, s)
  | .set i v => (s.set? i v).map fun next => (none, next)
  | .truncate n => (s.truncate? n).map fun next => (none, next)

/-- What a call answers, and the stack that it leaves. -/
def perform (s : Stack) (call : Call) : Answer × Stack :=
  match s.attempt call with
  | .ok (word, next) => (.ok word, next)
  | .error e => (.error e, s)

/-- The answers to a sequence of calls, and what is left after the last of them. -/
def converse {σ : Type} (perform : σ → Call → Answer × σ) : σ → List Call → List Answer × σ
  | state, [] => ([], state)
  | state, call :: calls =>
    let rest := converse perform (perform state call).2 calls
    ((perform state call).1 :: rest.1, rest.2)

end Stack

/-! ## Lists with a bound -/

/-- A list of words, bottom first, and the length that it may reach. -/
structure BoundedList where
  bound : Int
  words : List Int64
  deriving DecidableEq, Repr

namespace BoundedList

open Stack (Call Answer)

/-- The list of the seeds. It may grow to `capacity`, or stay as long as it is if that is more. -/
def ofSeeds (capacity : Int) (seeds : List Int64) : BoundedList where
  bound := max capacity seeds.length
  words := seeds

/-- Why a call does not apply, if it does not. -/
def refusal? (l : BoundedList) : Call → Option Stack.Error
  | .push _ => if l.words.length = l.bound then some .overflow else none
  | .pop | .peek => if l.words = [] then some .underflow else none
  | .get i | .set i _ => if 0 ≤ i ∧ i < l.words.length then none else some .outOfRange
  | .truncate n =>
    if n < 0 then some .underflow else if l.words.length < n then some .outOfRange else none

/-- The word that a call asks for. -/
def asked? (l : BoundedList) : Call → Option Int64
  | .pop | .peek => l.words.getLast?
  | .get i => l.words[i.toNat]?
  | .push _ | .set _ _ | .truncate _ => none

/-- The words after a call that applies. -/
def wordsAfter (l : BoundedList) : Call → List Int64
  | .push v => l.words ++ [v]
  | .pop => l.words.dropLast
  | .peek | .get _ => l.words
  | .set i v => l.words.set i.toNat v
  | .truncate n => l.words.take n.toNat

/-- What a call answers, and the list that it leaves. -/
def perform (l : BoundedList) (call : Call) : Answer × BoundedList :=
  match l.refusal? call with
  | some e => (.error e, l)
  | none => (.ok (l.asked? call), { l with words := l.wordsAfter call })

end BoundedList

namespace Stack

variable {s : Stack} {l : BoundedList}

/-! ## Vacant cells -/

/-- Every cell that is not occupied is zero. -/
def Cleared (s : Stack) : Prop :=
  ∀ i, s.size ≤ i → i < s.capacity → s.cells[i]? = some 0

/-- Behind the seeds a stack is cleared. -/
theorem cleared_ofList (capacity : Int) (seeds : List Int64) : (ofList capacity seeds).Cleared := by
  intro i hvacant hlt
  have hseeds : seeds.toArray.size ≤ i := hvacant
  have hcells : i < (seeds.toArray ++ Array.replicate (capacity.toNat - seeds.length) 0).size := hlt
  rw [Array.size_append, Array.size_replicate] at hcells
  unfold ofList
  rw [Array.getElem?_append_right hseeds, Array.getElem?_replicate, if_pos (by omega)]

/-- A push occupies the lowest vacant cell and leaves the others. -/
theorem Cleared.push (hs : s.Cleared) (v : Int64) (hroom : s.size < s.capacity) :
    (s.push v hroom).Cleared := by
  intro i hvacant hlt
  rw [size_push] at hvacant
  rw [capacity_push] at hlt
  unfold Stack.push
  rw [Array.getElem?_set_ne _ (by omega)]
  exact hs i (by omega) hlt

/-- A pop clears the cell that it vacates. -/
theorem Cleared.pop (hs : s.Cleared) (hpos : 0 < s.size) : (s.pop hpos).Cleared := by
  intro i hvacant hlt
  rw [size_pop] at hvacant
  rw [capacity_pop] at hlt
  unfold Stack.pop
  rw [Array.getElem?_set]
  split
  · rfl
  · exact hs i (by omega) hlt

/-- Overwriting an occupied slot leaves the vacant cells. -/
theorem Cleared.set (hs : s.Cleared) (i : Nat) (v : Int64) (hi : i < s.size) :
    (s.set i v hi).Cleared := by
  intro j hvacant hlt
  have hj : s.size ≤ j := hvacant
  rw [capacity_set] at hlt
  unfold Stack.set
  rw [Array.getElem?_set_ne _ (by omega)]
  exact hs j hj hlt

/-- Giving up words clears the cell of each of them, since they are popped one by one. -/
theorem Cleared.drop (hs : s.Cleared) (n : Nat) : (s.drop n).Cleared := by
  -- The stack changes with every word that is popped, so the induction is for all stacks.
  induction n generalizing s with
  | zero => exact hs
  | succ n ih =>
    unfold Stack.drop
    split
    · exact ih (hs.pop _)
    · exact hs

/-! ## One call -/

/-- The stack holds the list: its occupied slots are the words, its capacity is the bound, and its
vacant cells are zero. -/
structure Holds (s : Stack) (l : BoundedList) : Prop where
  toList_eq : s.toList = l.words
  capacity_eq : (s.capacity : Int) = l.bound
  cleared : s.Cleared

namespace Holds

/-- A new stack holds the list of its seeds. -/
theorem ofList (capacity : Int) (seeds : List Int64) :
    (Stack.ofList capacity seeds).Holds (BoundedList.ofSeeds capacity seeds) := by
  refine ⟨?_, ?_, cleared_ofList capacity seeds⟩
  · show (seeds.toArray ++ Array.replicate _ 0).toList.take seeds.length = seeds
    rw [Array.toList_append, List.take_left]
  · show ((seeds.toArray ++ Array.replicate (capacity.toNat - seeds.length) 0).size : Int) =
      max capacity seeds.length
    rw [Array.size_append, Array.size_replicate, List.size_toArray]
    omega

/-- As many slots are occupied as the list has words. -/
theorem size_eq (h : s.Holds l) : s.size = l.words.length := by
  rw [← h.toList_eq, length_toList]

/-- An occupied slot has a word of the list. -/
theorem getElem?_words (h : s.Holds l) {i : Nat} (hi : i < s.size) :
    l.words[i]? = some (s.get i hi) := by
  rw [← h.toList_eq, getElem?_toList_get]

/-- The topmost word is the last of the list. -/
theorem getLast?_words (h : s.Holds l) (hpos : 0 < s.size) :
    l.words.getLast? = some (s.top hpos) := by
  rw [List.getLast?_eq_getElem?, ← h.size_eq]
  exact h.getElem?_words (by omega)

/-- The stack is empty exactly if the list is. -/
theorem words_eq_nil_iff (h : s.Holds l) : l.words = [] ↔ ¬ 0 < s.size := by
  rw [h.size_eq, List.length_pos_iff, not_not]

/-- The stack is full exactly if the list has reached its bound. -/
theorem length_eq_bound_iff (h : s.Holds l) :
    (l.words.length : Int) = l.bound ↔ ¬ s.size < s.capacity := by
  have hle := s.size_le_capacity
  rw [← h.size_eq, ← h.capacity_eq]
  omega

/-- Other words in the occupied slots make the list of these words, if the capacity stays and the
vacant cells are zero again. -/
theorem withWords (h : s.Holds l) {next : Stack} {words : List Int64} (hwords : next.toList = words)
    (hcapacity : next.capacity = s.capacity) (hcleared : next.Cleared) :
    next.Holds { l with words } :=
  ⟨hwords, by rw [hcapacity]; exact h.capacity_eq, hcleared⟩

/-- A call gets the same answer from the stack and from the list, and the stack holds the list
afterwards. -/
def Agrees (s : Stack) (l : BoundedList) (call : Call) : Prop :=
  (s.perform call).1 = (l.perform call).1 ∧ (s.perform call).2.Holds (l.perform call).2

/-- A call that both refuse, for the same reason. -/
theorem refused (h : s.Holds l) {call : Call} {e : Error} (hstack : s.attempt call = .error e)
    (hlist : l.refusal? call = some e) : Agrees s l call := by
  unfold Agrees Stack.perform BoundedList.perform
  rw [hstack, hlist]
  exact ⟨rfl, h⟩

/-- A call that applies to both, with the same word for an answer. -/
theorem applied {call : Call} (word : Option Int64) (next : Stack)
    (hstack : s.attempt call = .ok (word, next)) (hlist : l.refusal? call = none)
    (hword : l.asked? call = word) (hnext : next.Holds { l with words := l.wordsAfter call }) :
    Agrees s l call := by
  unfold Agrees Stack.perform BoundedList.perform
  rw [hstack, hlist]
  dsimp only
  rw [hword]
  exact ⟨rfl, hnext⟩

/-- A push. -/
theorem push (h : s.Holds l) (v : Int64) : Agrees s l (.push v) := by
  have hfull := h.length_eq_bound_iff
  by_cases hroom : s.size < s.capacity
  · refine applied none (s.push v hroom) ?_ ?_ rfl ?_
    · rw [attempt, push?, dif_pos hroom]
      rfl
    · exact if_neg fun hlength => hfull.1 hlength hroom
    · refine h.withWords ?_ (capacity_push s v hroom) (h.cleared.push v hroom)
      show (s.push v hroom).toList = l.words ++ [v]
      rw [toList_push, h.toList_eq]
  · refine h.refused (e := .overflow) ?_ (if_pos (hfull.2 hroom))
    rw [attempt, push?, dif_neg hroom]
    rfl

/-- A pop. -/
theorem pop (h : s.Holds l) : Agrees s l .pop := by
  have hempty := h.words_eq_nil_iff
  by_cases hpos : 0 < s.size
  · refine applied (s.top hpos) (s.pop hpos) ?_ ?_ (h.getLast?_words hpos) ?_
    · rw [attempt, pop?, dif_pos hpos]
      rfl
    · exact if_neg fun hnil => hempty.1 hnil hpos
    · refine h.withWords ?_ (capacity_pop s hpos) (h.cleared.pop hpos)
      show (s.pop hpos).toList = l.words.dropLast
      rw [toList_pop, h.toList_eq, h.size_eq, List.dropLast_eq_take]
  · refine h.refused (e := .underflow) ?_ (if_pos (hempty.2 hpos))
    rw [attempt, pop?, dif_neg hpos]
    rfl

/-- A peek. -/
theorem peek (h : s.Holds l) : Agrees s l .peek := by
  have hempty := h.words_eq_nil_iff
  by_cases hpos : 0 < s.size
  · refine applied (s.top hpos) s ?_ ?_ (h.getLast?_words hpos) h
    · rw [attempt, peek?, dif_pos hpos]
      rfl
    · exact if_neg fun hnil => hempty.1 hnil hpos
  · refine h.refused (e := .underflow) ?_ (if_pos (hempty.2 hpos))
    rw [attempt, peek?, dif_neg hpos]
    rfl

/-- A read by index. -/
theorem get (h : s.Holds l) (i : Int) : Agrees s l (.get i) := by
  have hsize := h.size_eq
  by_cases hin : 0 ≤ i ∧ i < l.words.length
  · have hslot : i.toNat < s.size := by omega
    refine applied (s.get i.toNat hslot) s ?_ (if_pos hin) (h.getElem?_words hslot) h
    rw [attempt, get?, if_neg (by omega), dif_pos hslot]
    rfl
  · refine h.refused (e := .outOfRange) ?_ (if_neg hin)
    -- An index is refused for its sign first, and then for its size.
    rcases Int.lt_or_le i 0 with hneg | hnonneg
    · rw [attempt, get?, if_pos hneg]
      rfl
    · rw [attempt, get?, if_neg (by omega), dif_neg (by omega)]
      rfl

/-- A write by index. -/
theorem set (h : s.Holds l) (i : Int) (v : Int64) : Agrees s l (.set i v) := by
  have hsize := h.size_eq
  by_cases hin : 0 ≤ i ∧ i < l.words.length
  · have hslot : i.toNat < s.size := by omega
    refine applied none (s.set i.toNat v hslot) ?_ (if_pos hin) rfl ?_
    · rw [attempt, set?, if_neg (by omega), dif_pos hslot]
      rfl
    · refine h.withWords ?_ (capacity_set s _ v hslot) (h.cleared.set _ v hslot)
      show (s.set i.toNat v hslot).toList = l.words.set i.toNat v
      rw [toList_set, h.toList_eq]
  · refine h.refused (e := .outOfRange) ?_ (if_neg hin)
    rcases Int.lt_or_le i 0 with hneg | hnonneg
    · rw [attempt, set?, if_pos hneg]
      rfl
    · rw [attempt, set?, if_neg (by omega), dif_neg (by omega)]
      rfl

/-- A truncation. -/
theorem truncate (h : s.Holds l) (n : Int) : Agrees s l (.truncate n) := by
  have hsize := h.size_eq
  by_cases hneg : n < 0
  · -- The sign is looked at first, as in the list's own table of refusals.
    refine h.refused (e := .underflow) ?_ (if_pos hneg)
    rw [attempt, truncate?, if_pos hneg]
    rfl
  by_cases hgrow : l.words.length < n
  · refine h.refused (e := .outOfRange) ?_ ((if_neg hneg).trans (if_pos hgrow))
    rw [attempt, truncate?, if_neg hneg, if_neg (by omega)]
    rfl
  · refine applied none (s.truncate n.toNat) ?_ ?_ rfl ?_
    · rw [attempt, truncate?, if_neg hneg, if_pos (by omega)]
      rfl
    · exact (if_neg hneg).trans (if_neg hgrow)
    · refine h.withWords ?_ (capacity_truncate s n.toNat) (h.cleared.drop _)
      show (s.truncate n.toNat).toList = l.words.take n.toNat
      rw [toList_truncate, h.toList_eq]

/-- A call gets the same answer from a stack and from the list that it holds, whichever call it is,
and the stack holds the list afterwards. -/
theorem perform (h : s.Holds l) (call : Call) : Agrees s l call := by
  cases call with
  | push v => exact h.push v
  | pop => exact h.pop
  | peek => exact h.peek
  | get i => exact h.get i
  | set i v => exact h.set i v
  | truncate n => exact h.truncate n

end Holds

/-! ## Sequences of calls -/

/-- A call that is refused leaves the stack as it is. -/
theorem perform_of_error {call : Call} {e : Error} (h : (s.perform call).1 = .error e) :
    (s.perform call).2 = s := by
  unfold perform at h ⊢
  cases hattempt : s.attempt call with
  | ok result =>
    rw [hattempt] at h
    cases h
  | error e => rfl

/-- Two things of which every call keeps a relation, and that answer each call alike, answer every
sequence of calls alike and are in the relation after it. -/
theorem converse_simulates {σ τ : Type} {f : σ → Call → Answer × σ} {g : τ → Call → Answer × τ}
    {R : σ → τ → Prop}
    (hcall : ∀ x y call, R x y → (f x call).1 = (g y call).1 ∧ R (f x call).2 (g y call).2)
    {x : σ} {y : τ} (hxy : R x y) (calls : List Call) :
    (converse f x calls).1 = (converse g y calls).1 ∧
      R (converse f x calls).2 (converse g y calls).2 := by
  -- The relation is the invariant: it is what the next call needs of the two states.
  induction calls generalizing x y with
  | nil => exact ⟨rfl, hxy⟩
  | cons call calls ih =>
    obtain ⟨hanswer, hnext⟩ := hcall x y call hxy
    obtain ⟨hanswers, hlast⟩ := ih hnext
    refine ⟨?_, hlast⟩
    show (f x call).1 :: _ = (g y call).1 :: _
    rw [hanswer, hanswers]

/-- A stack refuses a call exactly if the list that it holds does, for the same reason. -/
theorem Holds.error_iff (h : s.Holds l) (call : Call) (e : Error) :
    (s.perform call).1 = .error e ↔ l.refusal? call = some e := by
  rw [(h.perform call).1]
  unfold BoundedList.perform
  cases l.refusal? call with
  | none => simp
  | some e' => simp

end Stack

/-- No sequence of calls changes the bound. -/
theorem BoundedList.bound_converse (l : BoundedList) (calls : List Stack.Call) :
    (Stack.converse BoundedList.perform l calls).2.bound = l.bound := by
  induction calls generalizing l with
  | nil => rfl
  | cons call calls ih =>
    have hcall : (l.perform call).2.bound = l.bound := by
      unfold perform
      cases l.refusal? call with
      | none => rfl
      | some e => rfl
    show (Stack.converse perform (l.perform call).2 calls).2.bound = l.bound
    rw [ih, hcall]

open Stack (Call)

/-- Take any capacity and seeds and any sequence of calls, and ask them both of a stack and of the
list of the seeds, whose bound is the capacity or the number of seeds, whichever is more. They get
the same answers, word by word and error by error. After them the stack has the list's size and
words, its capacity is still the bound, and its vacant cells are zero. Whatever is called next is
refused exactly as the list refuses it, and leaves the stack as it is if it is refused. -/
theorem stack_refines_bounded_list (capacity : Int) (seeds : List Int64) (calls : List Call) :
    let stack := Stack.converse Stack.perform (Stack.ofList capacity seeds) calls
    let list := Stack.converse BoundedList.perform (BoundedList.ofSeeds capacity seeds) calls
    stack.1 = list.1 ∧
    (stack.2.size = list.2.words.length ∧ (stack.2.capacity : Int) = max capacity seeds.length ∧
      stack.2.toList = list.2.words) ∧
    (∀ i, stack.2.size ≤ i → i < stack.2.capacity → stack.2.cells[i]? = some 0) ∧
    ∀ call e, ((stack.2.perform call).1 = .error e ↔ list.2.refusal? call = some e) ∧
      ((stack.2.perform call).1 = .error e → (stack.2.perform call).2 = stack.2) := by
  intro stack list
  obtain ⟨hanswers, hholds⟩ : stack.1 = list.1 ∧ stack.2.Holds list.2 :=
    Stack.converse_simulates (R := Stack.Holds) (fun _ _ call h => h.perform call)
      (Stack.Holds.ofList capacity seeds) calls
  have hbound : list.2.bound = max capacity seeds.length :=
    BoundedList.bound_converse (BoundedList.ofSeeds capacity seeds) calls
  refine ⟨hanswers, ⟨hholds.size_eq, ?_, hholds.toList_eq⟩, hholds.cleared, fun call e => ?_⟩
  · rw [hholds.capacity_eq, hbound]
  · exact ⟨hholds.error_iff call e, Stack.perform_of_error⟩

end StackMachine
