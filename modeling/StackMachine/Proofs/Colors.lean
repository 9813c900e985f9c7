import Mathlib
import StackMachine.Palette
import StackMachine.Proofs.Words

/-!
# Coloured text without its colours

Deleting every escape sequence from a coloured text gives back what was coloured, as long as the
text has no escape character of its own. `Reads` says so in a form that can be put together: however
the text goes on, deleting the sequences leaves the plain text and then goes on with what follows.
-/

namespace StackMachine.Palette

open Text

/-! ## Deleting sequences -/

/-- What every sequence starts with. -/
def escape : Char := '\x1b'

/-- The sequences that start a colour, and the one that ends every colour. -/
def sequences : List String :=
  [reset, sequence "32", sequence "33", sequence "34", sequence "36", sequence "90", sequence "91"]

/-- Leaves out every sequence, and the first `skip` characters. -/
def deleteFrom : Nat → List Char → List Char
  | _, [] => []
  | skip + 1, _ :: cs => deleteFrom skip cs
  | 0, c :: cs =>
    match sequences.find? fun s => s.toList.isPrefixOf (c :: cs) with
    | some s => deleteFrom (s.length - 1) cs
    | none => c :: deleteFrom 0 cs

/-- A text without its sequences. -/
def plain (s : String) : String :=
  String.ofList (deleteFrom 0 s.toList)

/-- Characters that are left out. -/
theorem deleteFrom_append (skipped cs : List Char) :
    deleteFrom skipped.length (skipped ++ cs) = deleteFrom 0 cs := by
  induction skipped with
  | nil => rfl
  | cons c skipped ih => exact ih

/-- No sequence starts with another character. -/
theorem find?_of_ne {c : Char} (hc : c ≠ escape) (cs : List Char) :
    (sequences.find? fun s => s.toList.isPrefixOf (c :: cs)) = none := by
  have hne : '\x1b' ≠ c := Ne.symm hc
  simp [sequences, reset, sequence, hne]

/-- At a sequence, that one is found: none of them is the beginning of another. -/
theorem find?_sequence {s : String} (h : s ∈ sequences) (cs : List Char) :
    (sequences.find? fun t => t.toList.isPrefixOf (s.toList ++ cs)) = some s := by
  simp only [sequences, List.mem_cons, List.not_mem_nil, or_false] at h
  -- Going through them: each is compared with those that stand before it in the list.
  rcases h with rfl | rfl | rfl | rfl | rfl | rfl | rfl <;>
    simp [sequences, reset, sequence]

/-! ## Reading coloured text -/

/-- However it goes on, the text `s` reads `t` without its sequences. -/
def Reads (s t : String) : Prop :=
  ∀ cs, deleteFrom 0 (s.toList ++ cs) = t.toList ++ deleteFrom 0 cs

section Reads

variable {s s' t t' : String}

/-- One text after another. -/
theorem Reads.append (h : Reads s t) (h' : Reads s' t') : Reads (s ++ s') (t ++ t') := by
  intro cs
  rw [String.toList_append, List.append_assoc, h, h', String.toList_append, List.append_assoc]

/-- A text that ends. -/
theorem Reads.plain_eq (h : Reads s t) : plain s = t := by
  have hend := h []
  rw [List.append_nil, deleteFrom, List.append_nil] at hend
  rw [plain, hend, String.ofList_toList]

/-- A text without escape characters reads itself. -/
theorem reads_self (h : escape ∉ s.toList) : Reads s s := by
  intro cs
  -- Where no escape character stands, nothing is found and the character is kept.
  generalize s.toList = text at h ⊢
  induction text with
  | nil => rfl
  | cons c rest ih =>
    rw [List.mem_cons, not_or] at h
    rw [List.cons_append, deleteFrom, find?_of_ne (Ne.symm h.1), ih h.2, List.cons_append]

/-- A sequence reads nothing. -/
theorem reads_sequence (h : s ∈ sequences) : Reads s "" := by
  intro cs
  have hfound := find?_sequence h cs
  cases hs : s.toList with
  | nil =>
    -- No sequence is empty.
    rw [String.toList_eq_nil_iff.1 hs] at h
    exact absurd h (by decide)
  | cons c rest =>
    -- One character of the sequence is already passed when the others are skipped.
    have hlength : s.length - 1 = rest.length := by
      rw [← String.length_toList, hs, List.length_cons, Nat.add_sub_cancel]
    rw [hs, List.cons_append] at hfound
    rw [List.cons_append, deleteFrom, hfound]
    dsimp only
    rw [hlength, deleteFrom_append]
    rfl

/-- A painted text reads as the text, whether colours are in use or not. -/
theorem reads_paint (p : Palette) (hstart : s ∈ sequences) (h : escape ∉ t.toList) :
    Reads (p.paint s t) t := by
  unfold paint
  split
  · have hreset : reset ∈ sequences := List.mem_cons_self
    have hpainted := ((reads_sequence hstart).append (reads_self h)).append (reads_sequence hreset)
    rwa [String.empty_append, String.append_empty] at hpainted
  · exact reads_self h

/-- Texts one after another. -/
theorem reads_join {α : Type} {xs : List α} {f g : α → String}
    (h : ∀ x ∈ xs, Reads (f x) (g x)) :
    Reads (String.join (xs.map f)) (String.join (xs.map g)) := by
  induction xs with
  | nil => exact reads_self (by simp)
  | cons x xs ih =>
    rw [List.map_cons, List.map_cons, String.join_cons, String.join_cons]
    exact (h x List.mem_cons_self).append (ih fun y hy => h y (List.mem_cons_of_mem x hy))

/-- Texts with a plain one between them. -/
theorem reads_intercalate {ss ts : List String} (hs : escape ∉ s.toList)
    (h : List.Forall₂ Reads ss ts) : Reads (s.intercalate ss) (s.intercalate ts) := by
  induction h with
  | nil => exact reads_self (by simp)
  | @cons u v us vs hfirst hrest ih =>
    -- The separator stands between two texts, so the last one has none behind it.
    cases hrest with
    | nil =>
      rw [String.intercalate_singleton, String.intercalate_singleton]
      exact hfirst
    | cons hsecond hrest =>
      rw [String.intercalate_cons_cons, String.intercalate_cons_cons]
      exact (hfirst.append (reads_self hs)).append ih

end Reads

/-! ## Lines of a listing -/

/-- A line with single spaces between its words. -/
def spaced (line : String) : String :=
  " ".intercalate (words line)

/-- In colours, a line of two words or more reads as its words with single spaces between them. -/
theorem reads_listing {line : String} (hwords : 2 ≤ (words line).length)
    (h : escape ∉ line.toList) : Reads (listing { enabled := true } line) (spaced line) := by
  have hpaint {w start : String} (hw : w ∈ words line) (hstart : start ∈ sequences) :
      Reads (paint { enabled := true } start w) w :=
    reads_paint _ hstart fun hc => h (mem_of_mem_words hw hc)
  unfold listing spaced
  rw [if_pos rfl]
  -- The first two words have colours of their own, and the others share one.
  cases hline : words line with
  | nil =>
    rw [hline] at hwords
    exact absurd hwords (by decide)
  | cons offset rest =>
    cases rest with
    | nil =>
      rw [hline] at hwords
      exact absurd hwords (by simp)
    | cons mnemonic operands =>
      rw [hline] at hpaint
      refine reads_intercalate (by decide +kernel) (.cons ?_ (.cons ?_ ?_))
      · exact hpaint List.mem_cons_self (by simp [sequences])
      · exact hpaint (List.mem_cons_of_mem _ List.mem_cons_self) (by simp [sequences])
      · rw [List.forall₂_map_left_iff, List.forall₂_same]
        intro w hw
        exact hpaint (List.mem_cons_of_mem _ (List.mem_cons_of_mem _ hw)) (by simp [sequences])

end StackMachine.Palette
