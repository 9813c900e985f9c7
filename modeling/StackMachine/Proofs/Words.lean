import StackMachine.Decimal
import StackMachine.Text.Blank

/-!
# Words and numerals

A text that is made of words with blanks between them is read back by `Text.words`. Everything about
it follows from one equation, `words_append_space`: a space divides the words before it from those
after it.

A numeral is one word, and it determines its number. That goes for numerals in a field of fixed
width too, whose leading zeros count for nothing.
-/

namespace StackMachine

namespace Text

/-! ## Words -/

/-- A visible character of ASCII, the equals sign apart. -/
def isInk (c : Char) : Bool :=
  0x21 ≤ c.toNat && c.toNat ≤ 0x7e && c != '='

/-- Ink is no blank. -/
theorem isBlank_of_isInk {c : Char} (h : isInk c = true) : isBlank c = false := by
  simp only [isInk, Bool.and_eq_true, decide_eq_true_eq] at h
  simp [isBlank]
  omega

/-- A text that is one word, in ink. -/
structure IsWord (s : String) : Prop where
  ne_empty : s ≠ ""
  ink : ∀ c ∈ s.toList, isInk c = true

/-- A space divides the words before it from those after it. -/
theorem words_append_space (s t : String) : words (s ++ (" " ++ t)) = words s ++ words t := by
  have hspace : isBlank ' ' = true := by decide
  unfold words
  rw [String.toList_append, String.toList_append]
  change ((s.toList ++ ' ' :: t.toList).splitOnP isBlank |>.filter _).map _ = _
  rw [List.splitOnP_append_cons _ _ hspace, List.filter_append, List.map_append]

/-- The empty text has no words. -/
theorem words_empty : words "" = [] := by
  simp [words, List.splitOnP_nil]

/-- A word by itself is the only one. -/
theorem IsWord.words_eq {s : String} (h : IsWord s) : words s = [s] := by
  have hne : s.toList ≠ [] := fun hnil => h.ne_empty (String.toList_eq_nil_iff.1 hnil)
  unfold words
  rw [List.splitOnP_eq_singleton fun c hc => isBlank_of_isInk (h.ink c hc)]
  simp [hne]

/-- Pieces between blanks are made of what the text is made of. -/
theorem mem_of_mem_splitOnP {p : Char → Bool} {cs piece : List Char} {c : Char}
    (hpiece : piece ∈ cs.splitOnP p) (hc : c ∈ piece) : c ∈ cs := by
  induction cs generalizing piece with
  | nil =>
    rw [List.splitOnP_nil, List.mem_singleton] at hpiece
    rwa [hpiece] at hc
  | cons d cs ih =>
    rw [List.splitOnP_cons_eq_if_modifyHead] at hpiece
    split at hpiece
    · rcases List.mem_cons.1 hpiece with rfl | htail
      · cases hc
      · exact List.mem_cons_of_mem d (ih htail hc)
    · -- The first piece has one character more, the others are those of the rest.
      cases hrest : cs.splitOnP p with
      | nil => exact absurd hrest (List.splitOnP_ne_nil p cs)
      | cons first others =>
        rw [hrest, List.modifyHead_cons] at hpiece
        rcases List.mem_cons.1 hpiece with rfl | hother
        · rcases List.mem_cons.1 hc with rfl | hc
          · exact List.mem_cons_self
          · exact List.mem_cons_of_mem d (ih (by rw [hrest]; exact List.mem_cons_self) hc)
        · exact List.mem_cons_of_mem d (ih (by rw [hrest]; exact List.mem_cons_of_mem _ hother) hc)

/-- Words are made of what the text is made of. -/
theorem mem_of_mem_words {s w : String} {c : Char} (hw : w ∈ words s) (hc : c ∈ w.toList) :
    c ∈ s.toList := by
  obtain ⟨piece, hpiece, rfl⟩ := List.mem_map.1 hw
  rw [String.toList_ofList] at hc
  exact mem_of_mem_splitOnP (List.mem_filter.1 hpiece).1 hc

/-- Spaces after a text make no word. -/
theorem words_append_spaces (s : String) (n : Nat) :
    words (s ++ String.ofList (List.replicate n ' ')) = words s := by
  induction n with
  | zero => simp
  | succ n ih =>
    have hlast : s ++ String.ofList (List.replicate (n + 1) ' ') =
        s ++ String.ofList (List.replicate n ' ') ++ (" " ++ "") := by
      apply String.ext
      simp [List.replicate_succ']
    rw [hlast, words_append_space, ih, words_empty, List.append_nil]

/-- Words that follow a text, each after a space, are read after those of the text. -/
theorem words_append_join (s : String) {ws : List String} (h : ∀ w ∈ ws, IsWord w) :
    words (s ++ String.join (ws.map (" " ++ ·))) = words s ++ ws := by
  -- The first word is moved to the text in front, which therefore varies.
  induction ws generalizing s with
  | nil => simp [String.join]
  | cons w ws ih =>
    have hw := h w List.mem_cons_self
    have hrest : ∀ v ∈ ws, IsWord v := fun v hv => h v (List.mem_cons_of_mem w hv)
    have hsplit : s ++ String.join ((w :: ws).map (" " ++ ·)) =
        s ++ (" " ++ w) ++ String.join (ws.map (" " ++ ·)) := by
      apply String.ext
      simp
    rw [hsplit, ih _ hrest, words_append_space, hw.words_eq, List.append_assoc]
    rfl

end Text

namespace Decimal

/-! ## Numerals -/

/-- A character that numerals are made of. -/
def isSymbol (c : Char) : Bool :=
  c.isDigit || c == '-'

/-- What numerals are made of is ink. -/
theorem isInk_of_isSymbol {c : Char} (h : isSymbol c = true) : Text.isInk c = true := by
  rw [isSymbol, Bool.or_eq_true, beq_iff_eq] at h
  rcases h with hdigit | rfl
  · have hrange : 0x30 ≤ c.toNat ∧ c.toNat ≤ 0x39 := by
      simpa [Char.isDigit, UInt32.le_iff_toNat_le] using hdigit
    have hne : c ≠ '=' := by
      rintro rfl
      exact absurd hrange (by decide)
    simp [Text.isInk, hne]
    omega
  · decide

/-- The digits of a number are digits. -/
theorem isSymbol_of_mem_digits {n : Nat} {c : Char} (h : c ∈ digits n) : isSymbol c = true := by
  have hdigit : c.isDigit = true := Nat.isDigit_of_mem_toDigits (by decide) (by decide) h
  simp [isSymbol, hdigit]

/-- There is at least one digit. -/
theorem digits_ne_nil (n : Nat) : digits n ≠ [] :=
  Nat.toDigits_ne_nil

/-- The sign is no digit. -/
theorem minus_not_mem_digits (n : Nat) : '-' ∉ digits n := by
  intro h
  have hdigit := Nat.isDigit_of_mem_toDigits (by decide) (by decide) h
  exact absurd hdigit (by decide)

/-- The digits of a number determine it. -/
theorem digits_injective : Function.Injective digits := by
  intro n k h
  calc n = Nat.ofDigitChars 10 (digits n) 0 := Nat.ofDigitChars_ten_toDigits.symm
    _ = Nat.ofDigitChars 10 (digits k) 0 := by rw [h]
    _ = k := Nat.ofDigitChars_ten_toDigits

/-- What a numeral is made of. -/
theorem isSymbol_of_mem_ofInt {n : Int} {c : Char} (h : c ∈ (ofInt n).toList) :
    isSymbol c = true := by
  unfold ofInt ofNat at h
  split at h
  · rw [String.toList_append, List.mem_append] at h
    rcases h with hsign | hdigit
    · have hminus : c = '-' := by simpa using hsign
      simp [isSymbol, hminus]
    · rw [String.toList_ofList] at hdigit
      exact isSymbol_of_mem_digits hdigit
  · rw [String.toList_ofList] at h
    exact isSymbol_of_mem_digits h

/-- A numeral is one word. -/
theorem isWord_ofWord (w : Int64) : Text.IsWord (ofWord w) := by
  refine ⟨?_, fun c hc => isInk_of_isSymbol (isSymbol_of_mem_ofInt hc)⟩
  have hdigits := digits_ne_nil w.toInt.natAbs
  unfold ofWord ofInt ofNat
  split <;> simp [← String.toList_inj, hdigits]

/-- A numeral determines its number. -/
theorem ofInt_injective : Function.Injective ofInt := by
  intro n k h
  have hlist := congrArg String.toList h
  unfold ofInt ofNat at hlist
  -- Of two numbers with different signs only one numeral starts with a sign.
  split at hlist <;> split at hlist <;>
    simp only [String.toList_append, String.toList_ofList, List.append_cancel_left_eq] at hlist
  · have habs := digits_injective hlist
    omega
  · have hmem : '-' ∈ digits k.natAbs := by simp [← hlist]
    exact absurd hmem (minus_not_mem_digits _)
  · have hmem : '-' ∈ digits n.natAbs := by simp [hlist]
    exact absurd hmem (minus_not_mem_digits _)
  · have habs := digits_injective hlist
    omega

/-- A numeral determines its word. -/
theorem ofWord_injective : Function.Injective ofWord :=
  fun _ _ h => Int64.toInt_inj.1 (ofInt_injective h)

/-! ## Fields of fixed width -/

/-- A natural number in a field: zeros, then its digits. -/
theorem toList_padded (width n : Nat) :
    (padded width n).toList = List.replicate (width - (digits n).length) '0' ++ digits n := by
  have hnonneg : ¬ (n : Int) < 0 := by omega
  simp [padded, hnonneg]

/-- A natural number in a field is one word. -/
theorem isWord_padded (width n : Nat) : Text.IsWord (padded width n) := by
  have hdigits := digits_ne_nil n
  refine ⟨?_, fun c hc => isInk_of_isSymbol ?_⟩
  · rw [Ne, ← String.toList_inj, toList_padded]
    simp [hdigits]
  · rw [toList_padded, List.mem_append] at hc
    rcases hc with hzero | hdigit
    · rw [List.eq_of_mem_replicate hzero]
      rfl
    · exact isSymbol_of_mem_digits hdigit

/-- The zeros in front change nothing, so a natural number in a field is determined by it. -/
theorem padded_injective (width : Nat) :
    Function.Injective fun n : Nat => padded width n := by
  intro n k h
  have hvalue (n : Nat) : Nat.ofDigitChars 10 (padded width n).toList 0 = n := by
    rw [toList_padded, Nat.ofDigitChars_append, Nat.ofDigitChars_replicate_zero, Nat.mul_zero]
    exact Nat.ofDigitChars_ten_toDigits
  calc n = Nat.ofDigitChars 10 (padded width n).toList 0 := (hvalue n).symm
    _ = Nat.ofDigitChars 10 (padded width k).toList 0 := congrArg (Nat.ofDigitChars 10 ·.toList 0) h
    _ = k := hvalue k

end Decimal

end StackMachine
