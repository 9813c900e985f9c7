import StackMachine.Opcode
import StackMachine.Proofs.Words

/-!
# Opcodes by word and by name

An opcode has one word and one name, and both determine it. A word that is no opcode has a name all
the same, with the word in it, so every word has a name of its own.
-/

namespace StackMachine.Opcode

/-- Only its own word stands for an opcode. -/
theorem eq_word {w : Int64} {op : Opcode} (h : ofWord? w = some op) : w = op.word := by
  unfold ofWord? at h
  split at h <;> cases h <;> rfl

/-- The word of an opcode stands for it. -/
theorem ofWord?_word (op : Opcode) : ofWord? op.word = some op := by
  cases op <;> rfl

/-- A word stands for no opcode exactly if it is the word of none. -/
theorem ofWord?_eq_none_iff (w : Int64) : ofWord? w = none ↔ ∀ op : Opcode, op.word ≠ w := by
  rw [Option.eq_none_iff_forall_ne_some]
  constructor
  · rintro h op rfl
    exact h op (ofWord?_word op)
  · intro h op hop
    exact h op (eq_word hop).symm

/-- The name of an opcode is looked up to that opcode. -/
theorem ofMnemonic?_mnemonic (op : Opcode) : ofMnemonic? op.mnemonic = some op := by
  cases op <;> decide +kernel

/-- A name belongs to one opcode. -/
theorem mnemonic_injective : Function.Injective mnemonic := by
  intro op op' h
  have hlookup := ofMnemonic?_mnemonic op
  rw [h, ofMnemonic?_mnemonic op'] at hlookup
  exact (Option.some.inj hlookup).symm

/-! ## Names of words -/

/-- The name of a word is one word, in ink. -/
theorem isWord_nameOfWord (w : Int64) : Text.IsWord (nameOfWord w) := by
  unfold nameOfWord
  split
  · rename_i op _
    have hne : op.mnemonic ≠ "" := by
      cases op <;> decide +kernel
    have hall : op.mnemonic.toList.all Text.isInk = true := by
      cases op <;> decide +kernel
    exact ⟨hne, List.all_eq_true.1 hall⟩
  · -- The name of any other word is its numeral between brackets.
    have hopen : "OP(".toList.all Text.isInk = true := by decide +kernel
    have hclose : ")".toList.all Text.isInk = true := by decide +kernel
    refine ⟨by simp [← String.toList_inj], fun c hc => ?_⟩
    simp only [String.toList_append, List.mem_append] at hc
    rcases hc with (hc | hc) | hc
    · exact List.all_eq_true.1 hopen c hc
    · exact (Decimal.isWord_ofWord w).ink c hc
    · exact List.all_eq_true.1 hclose c hc

/-- The name of a word that is no opcode has a bracket in it, and the name of an opcode has none. -/
theorem bracket_mem_nameOfWord_iff (w : Int64) :
    '(' ∈ (nameOfWord w).toList ↔ ofWord? w = none := by
  unfold nameOfWord
  split
  · rename_i op hop
    have hnone : '(' ∉ op.mnemonic.toList := by
      cases op <;> decide +kernel
    simp [hnone, hop]
  · rename_i hop
    simp [hop]

/-- The name of a word determines it. -/
theorem nameOfWord_injective : Function.Injective nameOfWord := by
  intro v w h
  -- By the bracket both words are opcodes or neither is.
  have hbracket := bracket_mem_nameOfWord_iff v
  rw [h, bracket_mem_nameOfWord_iff w] at hbracket
  unfold nameOfWord at h
  cases hv : ofWord? v with
  | some op =>
    cases hw : ofWord? w with
    | some op' =>
      rw [hv, hw] at h
      rw [eq_word hv, eq_word hw, mnemonic_injective h]
    | none => simp [hv, hw] at hbracket
  | none =>
    have hw := hbracket.2 hv
    rw [hv, hw] at h
    have hnumeral : (Decimal.ofWord v).toList = (Decimal.ofWord w).toList := by
      simpa [← String.toList_inj] using h
    exact Decimal.ofWord_injective (String.toList_inj.1 hnumeral)

end StackMachine.Opcode
