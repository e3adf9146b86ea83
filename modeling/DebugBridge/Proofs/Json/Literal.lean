/-
A literal reads back as what it was written for.

A string may hold any character: each is written in one of three ways, and the reader knows all of
them (`scanString_writeChar`). An integer is written in decimal, and its digits end where the text
goes on with something that no number goes on with (`AtEnd`).

Both are read in two steps. First the characters are taken, a piece or a digit at a time, and then
it is seen what they make. So a lemma about the first step says nothing of values, and one about the
second nothing of texts.
-/
import DebugBridge.Json.Reader
import DebugBridge.Json.Writer

namespace DebugBridge.Json

/-! ### Strings

A control that has no letter of its own is read as a unit, and any other character as itself,
however it was written. The pieces are not the characters, then, but they make the same text
(`joinPieces_map_pieceOf`).
-/

theorem hexUnit?_hexDigit : ∀ n < 0x20,
    hexUnit? '0' '0' (hexDigit (n / 16)) (hexDigit (n % 16)) = some n := by
  decide

/-- The piece that a character is read back as: a control without a letter of its own as a unit. -/
def pieceOf (c : Char) : Piece :=
  if c.toNat < 0x20 ∧ c ∉ ['\x08', '\x0c', '\n', '\r', '\t'] then .unit c.toNat else .char c

theorem scanString_unit {a b c d : Char} {code : Nat} (h : hexUnit? a b c d = some code)
    (cs : List Char) :
    scanString ('\\' :: 'u' :: a :: b :: c :: d :: cs) =
      (scanString cs).map fun found => (.unit code :: found.1, found.2) := by
  rw [scanString, h]
  cases scanString cs <;> rfl

theorem scanString_escaped {letter c : Char} (hletter : letter ≠ 'u')
    (h : escaped? letter = some c) (cs : List Char) :
    scanString ('\\' :: letter :: cs) =
      (scanString cs).map fun found => (.char c :: found.1, found.2) := by
  rw [scanString, h]
  · cases scanString cs <;> rfl
  · exact fun _ _ _ _ _ heq => absurd heq hletter

theorem scanString_plain {c : Char} (hquote : c ≠ '"') (hbackslash : c ≠ '\\')
    (hcontrol : ¬c.toNat < 0x20) (cs : List Char) :
    scanString (c :: cs) = (scanString cs).map fun found => (.char c :: found.1, found.2) := by
  rw [scanString, if_neg fun h => h.elim hbackslash hcontrol]
  · cases scanString cs <;> rfl
  · exact hquote
  · exact fun _ _ _ _ _ heq => absurd heq hbackslash
  · exact fun _ _ heq => absurd heq hbackslash

/-- One written character is read as one piece, whatever comes behind it. -/
theorem scanString_writeChar (c : Char) (cs : List Char) :
    scanString (writeChar c ++ cs) =
      (scanString cs).map fun found => (pieceOf c :: found.1, found.2) := by
  unfold writeChar
  split
  case h_8 hquote hbackslash hb hf hn hr ht =>
    split
    case isTrue hcontrol =>
      have hpiece : pieceOf c = .unit c.toNat := by
        refine if_pos ⟨hcontrol, ?_⟩
        simp only [List.mem_cons, List.not_mem_nil, or_false, not_or]
        exact ⟨hb, hf, hn, hr, ht⟩
      rw [hpiece]
      exact scanString_unit (hexUnit?_hexDigit _ hcontrol) cs
    case isFalse hcontrol =>
      have hpiece : pieceOf c = .char c := if_neg fun h => hcontrol h.1
      rw [hpiece]
      exact scanString_plain hquote hbackslash hcontrol cs
  all_goals exact scanString_escaped (by decide) rfl cs

theorem scanString_written (cs rest : List Char) :
    scanString (cs.flatMap writeChar ++ '"' :: rest) = some (cs.map pieceOf, rest) := by
  induction cs with
  | nil => rfl
  | cons c cs ih =>
      rw [List.flatMap_cons, List.append_assoc, scanString_writeChar, ih]
      rfl

/-- A control is no half of a surrogate pair, so it stands for itself. -/
theorem joinPieces_pieceOf (c : Char) (pieces : List Piece) :
    joinPieces (pieceOf c :: pieces) = (joinPieces pieces).map (c :: ·) := by
  unfold pieceOf
  split
  case isFalse => rfl
  case isTrue hcontrol =>
    have hhigh : isHighSurrogate c.toNat = false := by
      have := hcontrol.1
      simp only [isHighSurrogate, Bool.and_eq_false_iff, decide_eq_false_iff_not]
      omega
    have hlow : isLowSurrogate c.toNat = false := by
      have := hcontrol.1
      simp only [isLowSurrogate, Bool.and_eq_false_iff, decide_eq_false_iff_not]
      omega
    cases pieces with
    | nil => simp [joinPieces, hhigh, hlow]
    | cons piece rest => cases piece <;> simp [joinPieces, hhigh, hlow]

theorem joinPieces_map_pieceOf (cs : List Char) : joinPieces (cs.map pieceOf) = some cs := by
  induction cs with
  | nil => rfl
  | cons c cs ih => rw [List.map_cons, joinPieces_pieceOf, ih, Option.map_some]

/-- A written string reads back, and the reader stops behind its closing quote. -/
theorem readString_written (text : String) (rest : List Char) :
    readString (text.toList.flatMap writeChar ++ '"' :: rest) = some (some text, rest) := by
  simp [readString, scanString_written, joinPieces_map_pieceOf]

/-! ### Integers

A number may go on with digits, a point or an exponent. In a compact text it does not, as a comma or
a closing bracket follows, or nothing.
-/

/-- Nothing follows, or what follows a value in a compact text. -/
def AtEnd (rest : List Char) : Prop := ∀ c ∈ rest.head?, c = ',' ∨ c = ']' ∨ c = '}'

theorem atEnd_nil : AtEnd [] := nofun

theorem atEnd_cons {c : Char} (h : c = ',' ∨ c = ']' ∨ c = '}') (rest : List Char) :
    AtEnd (c :: rest) := by
  rintro _ ⟨⟩
  exact h

theorem AtEnd.no_digit {rest : List Char} (h : AtEnd rest) :
    ∀ c ∈ rest.head?, c.isDigit = false := by
  intro c hc
  rcases h c hc with rfl | rfl | rfl <;> decide

theorem digitChar_ne_zero : ∀ d < 10, 0 < d → d.digitChar ≠ '0' := by
  decide

theorem toDigits_ne_zero_cons_of_pos {n : Nat} (hn : 0 < n) (cs : List Char) :
    Nat.toDigits 10 n ≠ '0' :: cs := by
  induction n using Nat.strongRecOn generalizing cs with
  | ind n ih =>
      intro hdigits
      by_cases hsmall : n < 10
      · rw [Nat.toDigits_of_lt_base hsmall] at hdigits
        exact digitChar_ne_zero n hsmall hn (List.cons.inj hdigits).1
      · rw [Nat.toDigits_of_base_le (by decide) (by omega)] at hdigits
        rcases List.append_eq_cons_iff.1 hdigits with ⟨hnil, -⟩ | ⟨more, hmore, -⟩
        · exact Nat.toDigits_ne_nil hnil
        · exact ih (n / 10) (by omega) (by omega) more hmore

/-- A decimal numeral has no leading zero, unless it is zero. -/
theorem toDigits_ne_zero_cons_cons (n : Nat) (c : Char) (cs : List Char) :
    Nat.toDigits 10 n ≠ '0' :: c :: cs := by
  rcases Nat.eq_zero_or_pos n with rfl | hn
  · simp [Nat.toDigits_zero]
  · exact toDigits_ne_zero_cons_of_pos hn _

/-- Nor does it begin with a sign. -/
theorem toDigits_append_ne_minus (n : Nat) (rest cs : List Char) :
    Nat.toDigits 10 n ++ rest ≠ '-' :: cs := by
  intro heq
  rcases List.append_eq_cons_iff.1 heq with ⟨hnil, -⟩ | ⟨more, hmore, -⟩
  · exact Nat.toDigits_ne_nil hnil
  · have hminus : '-' ∈ Nat.toDigits 10 n := hmore ▸ List.mem_cons_self
    exact absurd (Nat.isDigit_of_mem_toDigits (by decide) (by decide) hminus) (by decide)

namespace Numeral

/-- Digits are read up to what is no digit. -/
theorem digitsOf_append {ds rest : List Char} (hds : ∀ c ∈ ds, c.isDigit = true)
    (hrest : ∀ c ∈ rest.head?, c.isDigit = false) : digitsOf (ds ++ rest) = (ds, rest) := by
  have hstop : rest.takeWhile Char.isDigit = [] ∧ rest.dropWhile Char.isDigit = rest := by
    cases rest with
    | nil => exact ⟨rfl, rfl⟩
    | cons c rest => simp [hrest c rfl]
  rw [digitsOf, List.takeWhile_append_of_pos hds, List.dropWhile_append_of_pos hds, hstop.1,
    hstop.2,
    List.append_nil]

theorem scanWhole_toDigits (n : Nat) {rest : List Char} (h : AtEnd rest) :
    scanWhole (Nat.toDigits 10 n ++ rest) = some (Nat.toDigits 10 n, rest) := by
  have hfound : digitsOf (Nat.toDigits 10 n ++ rest) = (Nat.toDigits 10 n, rest) :=
    digitsOf_append (fun c hc => Nat.isDigit_of_mem_toDigits (by decide) (by decide) hc) h.no_digit
  unfold scanWhole
  split
  next heq =>
      rw [hfound] at heq
      exact absurd (congrArg Prod.fst heq) Nat.toDigits_ne_nil
  next heq =>
      rw [hfound] at heq
      exact absurd (congrArg Prod.fst heq) (toDigits_ne_zero_cons_cons n _ _)
  next => rw [hfound]

/-- Behind the digits of an integer there is neither a fraction nor an exponent. -/
theorem scan_toDigits (n : Nat) {rest : List Char} (h : AtEnd rest) (negative : Bool) :
    scan ((if negative then ['-'] else []) ++ (Nat.toDigits 10 n ++ rest)) =
      some (⟨negative, Nat.toDigits 10 n, none, none⟩, rest) := by
  have hfraction : scanFraction rest = some (none, rest) := by
    unfold scanFraction
    split
    · next c _ => exact absurd (h '.' rfl) (by decide)
    · rfl
  have hexponent : scanExponent rest = some (none, rest) := by
    cases rest with
    | nil => rfl
    | cons c rest =>
        have hc : ¬(c = 'e' ∨ c = 'E') := by
          rcases h c rfl with rfl | rfl | rfl <;> decide
        simp [scanExponent, hc]
  cases negative with
  | true => simp [scan, scanWhole_toDigits n h, hfraction, hexponent]
  | false =>
      -- `simp` decides by this fact which case of the sign it is.
      have _ := toDigits_append_ne_minus n rest
      simp [scan, scanWhole_toDigits n h, hfraction, hexponent]

theorem le_ofDigitChars (ds : List Char) (significand : Nat) :
    significand ≤ Nat.ofDigitChars 10 ds significand := by
  induction ds generalizing significand with
  | nil => exact Nat.le_refl _
  | cons c ds ih =>
      rw [Nat.ofDigitChars_cons]
      have := ih (10 * significand + (c.toNat - '0'.toNat))
      omega

/-- Digits are taken up one by one, as long as the number they make is not too large. -/
theorem accumulate_eq {ds : List Char} {significand : Nat}
    (h : Nat.ofDigitChars 10 ds significand ≤ largest) :
    accumulate significand ds = (Nat.ofDigitChars 10 ds significand, 0) := by
  induction ds generalizing significand with
  | nil => rfl
  | cons c ds ih =>
      rw [Nat.ofDigitChars_cons] at h ⊢
      rw [accumulate, if_pos (Nat.le_trans (le_ofDigitChars ds _) h)]
      exact ih h

theorem accumulate_toDigits {n : Nat} (h : n ≤ largest) :
    accumulate 0 (Nat.toDigits 10 n) = (n, 0) := by
  have hvalue : Nat.ofDigitChars 10 (Nat.toDigits 10 n) 0 = n := Nat.ofDigitChars_ten_toDigits
  rw [accumulate_eq (by rw [hvalue]; exact h), hvalue]

end Numeral

/-- The integers that a text can hold: those of 64 bits, with a sign or without. -/
def IsInteger (n : Int) : Prop := -(UInt64.size / 2 : Nat) ≤ n ∧ n ≤ (Numeral.largest : Nat)

theorem writeNumber_ofNat (n : Nat) : writeNumber (.integer (.ofNat n)) = Nat.toDigits 10 n :=
  Nat.toList_repr

theorem writeNumber_negSucc (n : Nat) :
    writeNumber (.integer (.negSucc n)) = '-' :: Nat.toDigits 10 (n + 1) := by
  show (toString (Int.negSucc n)).toList = _
  simp [toString, Int.repr, Nat.toList_repr]

/-- A written integer reads back, and the reader stops behind its last digit. -/
theorem readNumber_written {n : Int} (hn : IsInteger n) {rest : List Char} (h : AtEnd rest) :
    readNumber (writeNumber (.integer n) ++ rest) = (.number (.integer n), some rest) := by
  obtain ⟨hleast, hgreatest⟩ := hn
  unfold readNumber
  cases n with
  | ofNat n =>
      have hscan := Numeral.scan_toDigits n h false
      simp only [Bool.false_eq_true, if_false, List.nil_append] at hscan
      have hn : n ≤ Numeral.largest := Int.ofNat_le.1 hgreatest
      rw [writeNumber_ofNat, hscan]
      simp [Numeral.number?, Numeral.accumulate_toDigits hn]
  | negSucc n =>
      have hscan := Numeral.scan_toDigits (n + 1) h true
      simp only [if_true, List.singleton_append] at hscan
      have hn : n + 1 ≤ UInt64.size / 2 := by omega
      have hlargest : n + 1 ≤ Numeral.largest := Nat.le_trans hn (by decide)
      rw [writeNumber_negSucc, List.cons_append, hscan]
      simp [Numeral.number?, Numeral.accumulate_toDigits hlargest, hn]
      omega

end DebugBridge.Json
