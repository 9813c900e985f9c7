import Mathlib
import StackMachine.Image.Yaml
import StackMachine.Proofs.Words

/-!
# Scalars that are written are read back

The numeral of a word is read as that word: its digits are taken one by one without growing too
large, it starts with no zero that would announce another base, and it is no timestamp. A text that
is written plainly is one that would be read as a text, and as itself.
-/

namespace StackMachine

/-! ## Numerals -/

namespace Decimal

/-- The digits of a number are digits. -/
theorem isDigit_of_mem_digits {n : Nat} {c : Char} (h : c ∈ digits n) : c.isDigit = true :=
  Nat.isDigit_of_mem_toDigits (by decide) (by decide) h

/-- Only the numeral of zero starts with a zero. -/
theorem head?_digits {n : Nat} (h : n ≠ 0) : (digits n).head? ≠ some '0' := by
  induction n using Nat.strongRecOn with
  | _ n ih =>
    unfold digits at ih ⊢
    by_cases hlt : n < 10
    · rw [Nat.toDigits_of_lt_base hlt]
      simpa using h
    · have hrest : n / 10 ≠ 0 := by omega
      have hne : Nat.toDigits 10 (n / 10) ≠ [] := Nat.toDigits_ne_nil
      rw [Nat.toDigits_of_base_le (by decide) (by omega), List.head?_append,
        List.head?_eq_some_head hne, Option.some_or, ← List.head?_eq_some_head hne]
      exact ih (n / 10) (by omega) hrest

/-- The characters of an integer's numeral. -/
theorem toList_ofInt (n : Int) :
    (ofInt n).toList = (if n < 0 then ['-'] else []) ++ digits n.natAbs := by
  unfold ofInt ofNat
  split
  · rw [String.toList_append, String.toList_ofList, String.toList_ofList]
  · rw [String.toList_ofList, List.nil_append]

end Decimal

namespace Numeral

/-- Digits are read onto a number in base ten as long as the result is not too large. -/
theorem digits_of_isDigit {cs : List Char} (h : ∀ c ∈ cs, c.isDigit = true) {limit n : Nat}
    (hlimit : Nat.ofDigitChars 10 cs n ≤ limit) :
    digits 10 limit n cs = .ok (Nat.ofDigitChars 10 cs n) := by
  induction cs generalizing n with
  | nil => rfl
  | cons c cs ih =>
    have hc : '0' ≤ c ∧ c ≤ '9' := by
      simpa [Char.isDigit, Char.le_def] using h c List.mem_cons_self
    have hrange : 0x30 ≤ c.toNat ∧ c.toNat ≤ 0x39 := hc
    have hdigit : digit? c = some (c.toNat - '0'.toNat) := if_pos hc
    have hzero : '0'.toNat = 0x30 := rfl
    rw [Nat.ofDigitChars_cons] at hlimit ⊢
    -- Later digits only make the number larger.
    have hgrows : 10 * n + (c.toNat - '0'.toNat) ≤
        Nat.ofDigitChars 10 cs (10 * n + (c.toNat - '0'.toNat)) := by
      have hpow : 0 < 10 ^ cs.length := Nat.pow_pos (by decide)
      rw [Nat.ofDigitChars_eq_ofDigitChars_zero]
      exact Nat.le_add_right_of_le (Nat.le_mul_of_pos_left _ hpow)
    rw [digits, hdigit]
    dsimp only
    rw [if_neg (by omega), if_neg (by omega)]
    exact ih (fun d hd => h d (List.mem_cons_of_mem c hd)) hlimit

/-- The digits of a number are read as the number. -/
theorem unsigned_digits {n : Nat} (h : n ≤ limit) : unsigned (Decimal.digits n) = .ok n := by
  by_cases hzero : n = 0
  · subst hzero
    rfl
  -- The base is ten, since the first digit is no zero.
  have hbase : base (Decimal.digits n) = (10, Decimal.digits n) := by
    have hhead := Decimal.head?_digits hzero
    unfold base
    split
    · next heq => exact absurd (by rw [heq]; rfl) hhead
    · next heq => exact absurd (by rw [heq]; rfl) hhead
    · rfl
  have hvalue : Nat.ofDigitChars 10 (Decimal.digits n) 0 = n := Nat.ofDigitChars_ten_toDigits
  have hdigits : ∀ c ∈ Decimal.digits n, c.isDigit = true :=
    fun c hc => Decimal.isDigit_of_mem_digits hc
  unfold unsigned
  split
  · next heq => exact absurd heq (Decimal.digits_ne_nil n)
  · rw [hbase, digits_of_isDigit hdigits (by rw [hvalue]; exact h), hvalue]

/-- The sign of an integer's numeral is told apart from its digits. -/
theorem sign_ofInt (n : Int) :
    sign (Decimal.ofInt n).toList = (decide (n < 0), Decimal.digits n.natAbs) := by
  rw [Decimal.toList_ofInt]
  by_cases hneg : n < 0
  · rw [if_pos hneg, decide_eq_true hneg]
    rfl
  · rw [if_neg hneg, decide_eq_false hneg, List.nil_append]
    have hdigits : ∀ c ∈ Decimal.digits n.natAbs, c.isDigit = true :=
      fun c hc => Decimal.isDigit_of_mem_digits hc
    unfold sign
    split
    · next cs heq => exact absurd (hdigits '-' (by rw [heq]; exact List.mem_cons_self)) (by decide)
    · next cs heq => exact absurd (hdigits '+' (by rw [heq]; exact List.mem_cons_self)) (by decide)
    · rfl

/-- The numeral of a word is read as the word. -/
theorem signed_ofWord (w : Int64) : signed (Decimal.ofWord w).toList = .ok w.toInt := by
  have hmin := w.le_toInt
  have hmax := w.toInt_lt
  have hlimit : w.toInt.natAbs ≤ limit := by
    unfold limit
    omega
  rw [signed, Decimal.ofWord, sign_ofInt, unsigned_digits hlimit]
  change withSign (decide (w.toInt < 0)) w.toInt.natAbs = .ok w.toInt
  unfold withSign
  by_cases hneg : w.toInt < 0
  · rw [decide_eq_true hneg, if_pos rfl, if_neg (by omega)]
    congr 1
    omega
  · rw [decide_eq_false hneg, if_neg Bool.false_ne_true, if_neg (by omega)]
    congr 1
    omega

end Numeral

/-! ## Meaning -/

namespace Yaml

/-- The numeral of a number is none of the words with a meaning of their own. -/
theorem Scalar.word?_ofInt (n : Int) : word? (Decimal.ofInt n) = none := by
  have hsymbols : (Decimal.ofInt n).toList.all Decimal.isSymbol = true :=
    List.all_eq_true.2 fun c hc => Decimal.isSymbol_of_mem_ofInt hc
  have hne : Decimal.ofInt n ≠ "" := by
    rw [Ne, ← String.toList_inj, Decimal.toList_ofInt]
    simp [Decimal.digits_ne_nil]
  generalize Decimal.ofInt n = s at hsymbols hne
  unfold word?
  split
  case h_7 => exact absurd rfl hne
  case h_24 => rfl
  -- Every other word has a character that is in no numeral.
  all_goals exact absurd hsymbols (by decide)

/-- A numeral is no timestamp: dates have a dash behind their fourth digit. -/
theorem Timestamp.isTimestamp_ofInt (n : Int) : isTimestamp (Decimal.ofInt n).toList = false := by
  have hdate : date? (Decimal.ofInt n).toList = none := by
    have hdigits : ∀ c ∈ Decimal.digits n.natAbs, c.isDigit = true :=
      fun c hc => Decimal.isDigit_of_mem_digits hc
    rw [Decimal.toList_ofInt]
    by_cases hneg : n < 0
    · rw [if_pos hneg]
      rfl
    · rw [if_neg hneg, List.nil_append, date?, List.takeWhile_eq_self_iff.2 hdigits]
      by_cases hlength : (Decimal.digits n.natAbs).length = 4
      · have hend : (Decimal.digits n.natAbs).drop 4 = [] :=
          List.drop_eq_nil_of_le (Nat.le_of_eq hlength)
        simp [hlength, hend, skip?]
      · simp [hlength]
  rw [isTimestamp, hdate]

namespace Scalar

/-- The numeral of a word stands for the word. -/
theorem ofText_ofWord (w : Int64) : ofText true (Decimal.ofWord w) = .integer w.toInt := by
  have hsymbols : ∀ c ∈ (Decimal.ofWord w).toList, Decimal.isSymbol c = true :=
    fun c hc => Decimal.isSymbol_of_mem_ofInt hc
  have hword : word? (Decimal.ofWord w) = none := word?_ofInt w.toInt
  have htime : Timestamp.isTimestamp (Decimal.ofWord w).toList = false :=
    Timestamp.isTimestamp_ofInt w.toInt
  have hplain : (Decimal.ofWord w).toList.filter (· ≠ '_') = (Decimal.ofWord w).toList := by
    rw [List.filter_eq_self]
    intro c hc
    have hne : c ≠ '_' := by
      rintro rfl
      exact absurd (hsymbols '_' hc) (by decide)
    exact decide_eq_true hne
  have hnumber : number? (Decimal.ofWord w).toList = some (.integer w.toInt) := by
    rw [number?, Numeral.signed_ofWord]
  have hne : (Decimal.ofWord w).toList ≠ [] := by
    rw [Decimal.ofWord, Decimal.toList_ofInt]
    simp [Decimal.digits_ne_nil]
  unfold ofText
  rw [hword]
  dsimp only
  split
  · next heq => exact absurd heq hne
  · next c cs heq =>
    have hc : Decimal.isSymbol c = true := hsymbols c (by rw [heq]; exact List.mem_cons_self)
    have hpoint : c ≠ '.' := by
      rintro rfl
      exact absurd hc (by decide)
    have hstart : c = '+' ∨ c = '-' ∨ c.isDigit = true := by
      rw [Decimal.isSymbol, Bool.or_eq_true, beq_iff_eq] at hc
      exact .inr hc.symm
    rw [if_neg hpoint, if_pos hstart, htime, Bool.and_false, if_neg Bool.false_ne_true, hplain,
      hnumber, Option.getD_some]

/-- No word with a meaning of its own is a text. -/
theorem tag_of_word? {s : String} {v : Scalar} (h : word? s = some v) : v.tag ≠ "!!str" := by
  unfold word? at h
  split at h
  case h_24 => nomatch h
  all_goals
    cases h
    decide

/-- No number is a text. -/
theorem tag_of_number? {cs : List Char} {v : Scalar} (h : number? cs = some v) :
    v.tag ≠ "!!str" := by
  unfold number? at h
  split at h
  · cases h
    exact (by decide : "!!int" ≠ "!!str")
  split at h
  · cases h
    exact (by decide : "!!int" ≠ "!!str")
  split at h
  · cases h
    exact (by decide : "!!float" ≠ "!!str")
  · obtain ⟨n, -, rfl⟩ := Option.map_eq_some_iff.1 h
    exact (by decide : "!!int" ≠ "!!str")

/-- No number that starts with a point is a text. -/
theorem tag_of_fraction? {cs : List Char} {v : Scalar} (h : fraction? cs = some v) :
    v.tag ≠ "!!str" := by
  unfold fraction? at h
  split at h
  · nomatch h
  · obtain ⟨x, -, rfl⟩ := Option.map_eq_some_iff.1 h
    exact (by decide : "!!float" ≠ "!!str")

/-- A scalar that is a text stands for its own characters. -/
theorem ofText_of_tag {dated : Bool} {s : String} (h : (ofText dated s).tag = "!!str") :
    ofText dated s = .text s := by
  have hgetD (v? : Option Scalar) (hv? : ∀ v, v? = some v → v.tag ≠ "!!str") :
      v?.getD (.text s) = .text s ∨ (v?.getD (.text s)).tag ≠ "!!str" := by
    cases v? with
    | none => exact .inl rfl
    | some v => exact .inr (hv? v rfl)
  have hcases : ofText dated s = .text s ∨ (ofText dated s).tag ≠ "!!str" := by
    unfold ofText
    split
    · next v hv => exact .inr (tag_of_word? hv)
    dsimp only
    split
    · exact .inl rfl
    split
    · exact hgetD _ fun v hv => tag_of_fraction? hv
    split
    · split
      · exact .inr (by decide)
      · exact hgetD _ fun v hv => tag_of_number? hv
    · exact .inl rfl
  exact hcases.resolve_right fun hne => hne h

/-- A text that is written plainly stands for itself. -/
theorem ofText_of_readsAsText {s : String} (h : Written.readsAsText s = true) :
    ofText true s = .text s := by
  simp only [Written.readsAsText, Bool.and_eq_true, beq_iff_eq] at h
  exact ofText_of_tag h.1.1

end Scalar

end Yaml

end StackMachine
