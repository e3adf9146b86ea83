/-
Numerals and what they are read as.

A text is read as a number up to a limit exactly if it is a numeral of that number: digits, any
zeros among them, with or without a plus sign. What a number is written as is one of its numerals.
Where negative numbers are wanted a minus sign may stand there as well.

The reader checks the limit at every digit. It need not be followed there: digits only make a number
larger, so the limit is kept all along if it is kept in the end (`readDigits_of_le`).
-/
import DebugBridge.Proofs.Json.Literal
import DebugBridge.Text.Blank
import DebugBridge.Text.Numeral

namespace DebugBridge.Text

/-- Digits of which the number is `n`, perhaps with a plus sign before them. -/
def IsNumeral (cs : List Char) (n : Nat) : Prop :=
  ∃ sign digits, cs = sign ++ digits ∧ (sign = [] ∨ sign = ['+']) ∧ digits ≠ [] ∧
    (∀ c ∈ digits, c.isDigit = true) ∧ Nat.ofDigitChars 10 digits 0 = n

theorem readDigits_eq_ok {limit seen n : Nat} {cs : List Char}
    (h : readDigits limit seen cs = .ok n) :
    (∀ c ∈ cs, c.isDigit = true) ∧ Nat.ofDigitChars 10 cs seen = n := by
  induction cs generalizing seen with
  | nil => simpa [readDigits] using h
  | cons c cs ih =>
      rw [readDigits] at h
      by_cases hdigit : c.isDigit = true
      · rw [if_pos hdigit] at h
        dsimp only at h
        by_cases hle : 10 * seen + digitValue c ≤ limit
        · rw [if_pos hle] at h
          obtain ⟨hdigits, hvalue⟩ := ih h
          refine ⟨?_, ?_⟩
          · intro d hd
            rcases List.mem_cons.1 hd with rfl | hd
            · exact hdigit
            · exact hdigits d hd
          · rw [Nat.ofDigitChars_cons]
            exact hvalue
        · rw [if_neg hle] at h
          simp at h
      · rw [if_neg hdigit] at h
        simp at h

theorem isNumeral_of_readNat {limit n : Nat} {cs : List Char} (h : readNat limit cs = .ok n) :
    IsNumeral cs n := by
  unfold readNat at h
  split at h
  · simp at h
  · simp at h
  · rename_i digits hne
    obtain ⟨hdigits, hvalue⟩ := readDigits_eq_ok h
    exact ⟨['+'], digits, rfl, Or.inr rfl, by simpa using hne, hdigits, hvalue⟩
  · rename_i hne _ _
    obtain ⟨hdigits, hvalue⟩ := readDigits_eq_ok h
    exact ⟨[], cs, rfl, Or.inl rfl, by simpa using hne, hdigits, hvalue⟩

theorem readDigits_of_le {limit : Nat} {cs : List Char} :
    ∀ {seen : Nat}, (∀ c ∈ cs, c.isDigit = true) → Nat.ofDigitChars 10 cs seen ≤ limit →
      readDigits limit seen cs = .ok (Nat.ofDigitChars 10 cs seen) := by
  induction cs with
  | nil => exact fun _ _ => rfl
  | cons c cs ih =>
      intro seen hdigits hle
      obtain ⟨hdigit, hdigits⟩ := List.forall_mem_cons.1 hdigits
      rw [Nat.ofDigitChars_cons] at hle ⊢
      have hnext : 10 * seen + digitValue c ≤ limit :=
        Nat.le_trans (Json.Numeral.le_ofDigitChars cs _) hle
      rw [readDigits, if_pos hdigit]
      dsimp only
      rw [if_pos hnext]
      exact ih hdigits hle

/-- Every numeral up to the limit is read. -/
theorem readNat_of_isNumeral {limit n : Nat} {cs : List Char} (h : IsNumeral cs n)
    (hle : n ≤ limit) : readNat limit cs = .ok n := by
  obtain ⟨sign, digits, rfl, hsign, hne, hdigits, rfl⟩ := h
  have hread := readDigits_of_le hdigits hle
  obtain ⟨first, rest, rfl⟩ := List.exists_cons_of_ne_nil hne
  rcases hsign with rfl | rfl
  · have hplus : first ≠ '+' := by
      rintro rfl
      exact absurd (hdigits '+' List.mem_cons_self) (by decide)
    unfold readNat
    split
    · simp_all
    · simp_all
    · simp_all
    · exact hread
  · exact hread

/-- A text is read as a number up to the limit exactly if it is a numeral of that number. -/
theorem readNat_eq_ok_iff {limit n : Nat} {cs : List Char} :
    readNat limit cs = .ok n ↔ IsNumeral cs n ∧ n ≤ limit :=
  ⟨fun h => ⟨isNumeral_of_readNat h, readNat_le h⟩, fun h => readNat_of_isNumeral h.1 h.2⟩

/-- Nothing but a plus sign and digits occurs in a numeral. -/
theorem IsNumeral.notMem {n : Nat} {cs : List Char} (h : IsNumeral cs n) {c : Char}
    (hplus : c ≠ '+')
    (hdigit : c.isDigit = false) : c ∉ cs := by
  obtain ⟨sign, digits, rfl, hsign, -, hdigits, -⟩ := h
  intro hmem
  rcases List.mem_append.1 hmem with hmem | hmem
  · rcases hsign with rfl | rfl
    · simp at hmem
    · exact hplus (List.mem_singleton.1 hmem)
  · rw [hdigits c hmem] at hdigit
    cases hdigit

theorem isNumeral_repr (n : Nat) : IsNumeral n.repr.toList n := by
  refine ⟨[], n.repr.toList, rfl, .inl rfl, ?_, isDigit_of_mem_repr, ?_⟩
  · rw [Nat.toList_repr]
    exact Nat.toDigits_ne_nil
  · rw [Nat.toList_repr]
    exact Nat.ofDigitChars_ten_toDigits

theorem isBlank_of_isDigit {c : Char} (h : c.isDigit = true) : isBlank c = false := by
  have hrange : 48 ≤ c.toNat ∧ c.toNat ≤ 57 := by
    simpa [Char.isDigit, UInt32.le_iff_toNat_le] using h
  simp [isBlank]
  omega

/-! ### Signed numerals

The reader of integers looks for a minus sign and reads what is left as digits. So there is no plus
sign behind it, while a number that has no minus sign may have one.
-/

/-- Digits of which the number is `n`, perhaps with a sign before them. -/
def IsSignedNumeral (cs : List Char) (n : Int) : Prop :=
  (∃ m : Nat, IsNumeral cs m ∧ n = m) ∨
    ∃ digits, cs = '-' :: digits ∧ digits ≠ [] ∧ (∀ c ∈ digits, c.isDigit = true) ∧
      n = -(Nat.ofDigitChars 10 digits 0 : Int)

theorem readInt_of_minus (lower upper : Nat) {digits : List Char} (hne : digits ≠ []) :
    readInt lower upper ('-' :: digits) = (readDigits lower 0 digits).map fun n => -(n : Int) := by
  obtain ⟨first, rest, rfl⟩ := List.exists_cons_of_ne_nil hne
  rfl

theorem readInt_of_no_minus (lower upper : Nat) {cs : List Char} (h : '-' ∉ cs) :
    readInt lower upper cs = (readNat upper cs).map fun n => (n : Int) := by
  unfold readInt
  split
  · simp at h
  · simp at h
  · rfl

theorem readInt_of_isSignedNumeral {lower upper : Nat} {n : Int} {cs : List Char}
    (h : IsSignedNumeral cs n) (hlower : -(lower : Int) ≤ n) (hupper : n ≤ upper) :
    readInt lower upper cs = .ok n := by
  rcases h with ⟨m, hnumeral, rfl⟩ | ⟨digits, rfl, hne, hdigits, rfl⟩
  · rw [readInt_of_no_minus _ _ (hnumeral.notMem (by decide) (by decide)),
      readNat_of_isNumeral hnumeral (Int.ofNat_le.1 hupper)]
    rfl
  · rw [readInt_of_minus _ _ hne, readDigits_of_le hdigits (by omega)]
    rfl

theorem isSignedNumeral_of_readInt {lower upper : Nat} {n : Int} {cs : List Char}
    (h : readInt lower upper cs = .ok n) :
    IsSignedNumeral cs n ∧ -(lower : Int) ≤ n ∧ n ≤ upper := by
  unfold readInt at h
  split at h
  · cases h
  · rename_i digits hne
    cases hread : readDigits lower 0 digits with
    | error fault =>
        rw [hread] at h
        cases h
    | ok m =>
        rw [hread] at h
        obtain rfl : -(m : Int) = n := Except.ok.inj h
        obtain ⟨hdigits, rfl⟩ := readDigits_eq_ok hread
        have hle := readDigits_le (Nat.zero_le _) hread
        refine ⟨.inr ⟨digits, rfl, by simpa using hne, hdigits, rfl⟩, by omega, by omega⟩
  · cases hread : readNat upper cs with
    | error fault =>
        rw [hread] at h
        cases h
    | ok m =>
        rw [hread] at h
        obtain rfl : (m : Int) = n := Except.ok.inj h
        have hle := readNat_le hread
        exact ⟨.inl ⟨m, isNumeral_of_readNat hread, rfl⟩, by omega, by omega⟩

/-- A text is read as an integer in a range exactly if it is a numeral of that integer. -/
theorem readInt_eq_ok_iff {lower upper : Nat} {n : Int} {cs : List Char} :
    readInt lower upper cs = .ok n ↔ IsSignedNumeral cs n ∧ -(lower : Int) ≤ n ∧ n ≤ upper :=
  ⟨isSignedNumeral_of_readInt, fun h => readInt_of_isSignedNumeral h.1 h.2.1 h.2.2⟩

end DebugBridge.Text
