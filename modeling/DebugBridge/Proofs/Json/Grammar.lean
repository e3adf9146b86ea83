/-
What a JSON text is, said without a reader.

A grammar says which characters may be written for a document. Its leaves are the pieces of a string
and the parts of a number, and the readers of these take exactly what the grammar allows. A number
is a special case: nothing marks its end, so it is read back only where what follows does not go on
with it (`Stops`).

`Spells` puts arrays and objects on top. Where a text is well formed but goes beyond what values can
hold, the document says so: its strings and numbers may be `beyond`, and so is a container with too
many others around it.

A document keeps what a value would lose: the order of the members, those of one key, and where a
text is beyond. So one text spells one document, and errors can be told by the grammar as well as
values.
-/
import DebugBridge.Proofs.Json.Literal

namespace DebugBridge.Json

/-! ### Strings

A string is a row of pieces, each written in one of three ways that are told apart by their first
two characters. So a literal is taken apart in one way only, and its closing quote cannot be
mistaken for a piece.
-/

/-- The letters that may stand behind a backslash, and the characters they stand for. -/
def shortEscapes : List (Char × Char) :=
  [('"', '"'), ('\\', '\\'), ('/', '/'), ('b', '\x08'), ('f', '\x0c'), ('n', '\n'), ('r', '\r'),
    ('t', '\t')]

/-- The ways to write one piece of a string. -/
inductive PieceText : Piece → List Char → Prop
  | plain {c : Char} (hquote : c ≠ '"') (hbackslash : c ≠ '\\') (hcontrol : ¬ c.toNat < 0x20) :
      PieceText (.char c) [c]
  | escape {letter c : Char} (h : (letter, c) ∈ shortEscapes) : PieceText (.char c) ['\\', letter]
  | unit {a b c d : Char} {code : Nat} (h : hexUnit? a b c d = some code) :
      PieceText (.unit code) ['\\', 'u', a, b, c, d]

/-- What may stand between the quotes of a string. -/
inductive Literal : List Piece → List Char → Prop
  | nil : Literal [] []
  | cons {piece : Piece} {pieces : List Piece} {first cs : List Char} (h : PieceText piece first)
      (hrest : Literal pieces cs) : Literal (piece :: pieces) (first ++ cs)

/-- The text of a literal, if it is one. -/
def textOf? (pieces : List Piece) : Option String := (joinPieces pieces).map String.ofList

theorem escaped?_eq_some_iff {letter c : Char} :
    escaped? letter = some c ↔ (letter, c) ∈ shortEscapes := by
  constructor
  · intro h
    unfold escaped? at h
    split at h
    case h_9 => exact absurd h (by simp)
    all_goals
      cases h
      decide
  · intro h
    have hall : ∀ pair ∈ shortEscapes, escaped? pair.1 = some pair.2 := by decide
    exact hall (letter, c) h

theorem scanString_pieceText {piece : Piece} {first : List Char} (h : PieceText piece first)
    (cs : List Char) :
    scanString (first ++ cs) = (scanString cs).map fun found => (piece :: found.1, found.2) := by
  cases h with
  | plain hquote hbackslash hcontrol => exact scanString_plain hquote hbackslash hcontrol cs
  | @escape letter c h =>
      have hletter : letter ≠ 'u' := by
        have hall : ∀ pair ∈ shortEscapes, pair.1 ≠ 'u' := by decide
        exact hall (letter, c) h
      exact scanString_escaped hletter (escaped?_eq_some_iff.2 h) cs
  | unit h => exact scanString_unit h cs

/-- A literal is read up to its closing quote. -/
theorem scanString_literal {pieces : List Piece} {cs : List Char} (h : Literal pieces cs)
    (rest : List Char) : scanString (cs ++ '"' :: rest) = some (pieces, rest) := by
  induction h with
  | nil => rfl
  | cons hfirst _ ih =>
      rw [List.append_assoc, scanString_pieceText hfirst, ih]
      rfl

/-- One more piece in front of a literal and its closing quote. -/
theorem Literal.prepend {piece : Piece} {pieces found : List Piece}
    {first behind left rest : List Char} (h : PieceText piece first)
    (heq : some (piece :: found, left) = some (pieces, rest))
    (hbody : ∃ body, Literal found body ∧ behind = body ++ '"' :: left) :
    ∃ body, Literal pieces body ∧ first ++ behind = body ++ '"' :: rest := by
  obtain ⟨body, hliteral, rfl⟩ := hbody
  obtain ⟨rfl, rfl⟩ := Prod.mk.inj (Option.some.inj heq)
  exact ⟨first ++ body, .cons h hliteral, (List.append_assoc ..).symm⟩

/-- What was read as a literal is one. -/
theorem literal_of_scanString {cs rest : List Char} {pieces : List Piece}
    (h : scanString cs = some (pieces, rest)) :
    ∃ body, Literal pieces body ∧ cs = body ++ '"' :: rest := by
  fun_induction scanString cs generalizing pieces rest with
  | case2 =>
      obtain ⟨rfl, rfl⟩ := Prod.mk.inj (Option.some.inj h)
      exact ⟨[], .nil, rfl⟩
  | case3 a b c d behind code found left hfound hcode ih =>
      exact Literal.prepend (.unit hcode) h (ih hfound)
  | case5 letter behind hnot c found left hfound hc ih =>
      exact Literal.prepend (.escape (escaped?_eq_some_iff.1 hc)) h (ih hfound)
  | case8 c behind hquote _ _ hplain found left hfound ih =>
      obtain ⟨hbackslash, hcontrol⟩ := not_or.1 hplain
      exact Literal.prepend (.plain hquote hbackslash hcontrol) h (ih hfound)
  | _ => exact absurd h (by simp)

theorem readString_literal {pieces : List Piece} {body : List Char} (h : Literal pieces body)
    (rest : List Char) : readString (body ++ '"' :: rest) = some (textOf? pieces, rest) := by
  rw [readString, scanString_literal h]
  rfl

theorem readString_eq_some_iff {cs rest : List Char} {text : Option String} :
    readString cs = some (text, rest) ↔
      ∃ pieces body, Literal pieces body ∧ textOf? pieces = text ∧ cs = body ++ '"' :: rest := by
  constructor
  · intro h
    obtain ⟨⟨pieces, left⟩, hscan, heq⟩ := Option.map_eq_some_iff.1 h
    obtain ⟨rfl, rfl⟩ := Prod.mk.inj heq
    obtain ⟨body, hliteral, hbody⟩ := literal_of_scanString hscan
    exact ⟨pieces, body, hliteral, rfl, hbody⟩
  · rintro ⟨pieces, body, hliteral, rfl, rfl⟩
    exact readString_literal hliteral rest

/-! ### Numbers

The parts of a number are optional but for one, and each is told by its first character. What has to
be known is that a part ends where the next one begins, which for the last one is up to the rest of
the text.
-/

namespace Numeral

/-- A run of digits, at least one. -/
structure IsDigits (ds : List Char) : Prop where
  ne_nil : ds ≠ []
  digits : ∀ c ∈ ds, c.isDigit = true

/-- The fraction of a number, if it has one. -/
inductive FractionText : Option (List Char) → List Char → Prop
  | absent : FractionText none []
  | given {ds : List Char} (h : IsDigits ds) : FractionText (some ds) ('.' :: ds)

/-- The sign of an exponent, and whether it is negative. -/
inductive SignText : Bool → List Char → Prop
  | bare : SignText false []
  | plus : SignText false ['+']
  | minus : SignText true ['-']

/-- The exponent of a number, if it has one. -/
inductive ExponentText : Option (Bool × List Char) → List Char → Prop
  | absent : ExponentText none []
  | given {mark : Char} {negative : Bool} {sign ds : List Char} (hmark : mark = 'e' ∨ mark = 'E')
      (hsign : SignText negative sign) (h : IsDigits ds) :
      ExponentText (some (negative, ds)) (mark :: (sign ++ ds))

/-- The ways to write a number. No zero leads, except alone. -/
inductive NumeralText (n : Numeral) : List Char → Prop
  | intro {fraction exponent : List Char} (hwhole : IsDigits n.whole)
      (hzero : ∀ more, n.whole = '0' :: more → more = [])
      (hfraction : FractionText n.fraction fraction)
      (hexponent : ExponentText n.exponent exponent) :
      NumeralText n ((if n.negative then ['-'] else []) ++ (n.whole ++ (fraction ++ exponent)))

/-- The characters that a number goes on with. -/
def goesOn (c : Char) : Bool := c.isDigit || ['.', 'e', 'E'].contains c

/-- No number goes on with what follows. -/
def Stops (rest : List Char) : Prop := ∀ c ∈ rest.head?, goesOn c = false

theorem Stops.no_digit {rest : List Char} (h : Stops rest) : ∀ c ∈ rest.head?, c.isDigit = false :=
  fun c hc => (Bool.or_eq_false_iff.1 (h c hc)).1

/-! #### What is written is read -/

theorem digitsOf_isDigits {ds rest : List Char} (h : IsDigits ds)
    (hrest : ∀ c ∈ rest.head?, c.isDigit = false) :
    ∃ d more, ds = d :: more ∧ digitsOf (ds ++ rest) = (d :: more, rest) := by
  obtain ⟨d, more, rfl⟩ := List.exists_cons_of_ne_nil h.ne_nil
  exact ⟨d, more, rfl, digitsOf_append h.digits hrest⟩

theorem scanWhole_digits {whole rest : List Char} (h : IsDigits whole)
    (hzero : ∀ more, whole = '0' :: more → more = [])
    (hrest : ∀ c ∈ rest.head?, c.isDigit = false) :
    scanWhole (whole ++ rest) = some (whole, rest) := by
  have hfound := digitsOf_append h.digits hrest
  unfold scanWhole
  split
  next heq =>
      rw [hfound] at heq
      exact absurd (congrArg Prod.fst heq) h.ne_nil
  next heq =>
      rw [hfound] at heq
      exact absurd (hzero _ (congrArg Prod.fst heq)) (List.cons_ne_nil _ _)
  next => rw [hfound]

theorem scanFraction_fractionText {fraction : Option (List Char)} {cs rest : List Char}
    (h : FractionText fraction cs) (hpoint : ∀ c ∈ rest.head?, c ≠ '.')
    (hdigit : ∀ c ∈ rest.head?, c.isDigit = false) :
    scanFraction (cs ++ rest) = some (fraction, rest) := by
  cases h with
  | absent =>
      rw [List.nil_append]
      unfold scanFraction
      split
      · exact absurd rfl (hpoint '.' rfl)
      · rfl
  | given h =>
      obtain ⟨d, more, rfl, hfound⟩ := digitsOf_isDigits h hdigit
      rw [List.cons_append, scanFraction, hfound]

theorem scanSign_signText {negative : Bool} {sign ds : List Char} (h : SignText negative sign)
    (hds : IsDigits ds) (rest : List Char) :
    scanSign (sign ++ (ds ++ rest)) = (negative, ds ++ rest) := by
  cases h with
  | plus | minus => rfl
  | bare =>
      obtain ⟨d, more, rfl⟩ := List.exists_cons_of_ne_nil hds.ne_nil
      have hd : d.isDigit = true := hds.digits d List.mem_cons_self
      rw [List.nil_append, List.cons_append, scanSign]
      · rintro cs heq
        obtain ⟨rfl, -⟩ := List.cons.inj heq
        exact absurd hd (by decide)
      · rintro cs heq
        obtain ⟨rfl, -⟩ := List.cons.inj heq
        exact absurd hd (by decide)

theorem scanExponent_exponentText {exponent : Option (Bool × List Char)} {cs rest : List Char}
    (h : ExponentText exponent cs) (hrest : Stops rest) :
    scanExponent (cs ++ rest) = some (exponent, rest) := by
  cases h with
  | absent =>
      cases rest with
      | nil => rfl
      | cons c rest =>
          have hc : ¬ (c = 'e' ∨ c = 'E') := by
            rintro (rfl | rfl)
            · exact absurd (hrest 'e' rfl) (by decide)
            · exact absurd (hrest 'E' rfl) (by decide)
          rw [List.nil_append, scanExponent, if_neg hc]
  | given hmark hsign hds =>
      obtain ⟨d, more, rfl, hfound⟩ := digitsOf_isDigits hds hrest.no_digit
      rw [List.cons_append, List.append_assoc, scanExponent, if_pos hmark,
        scanSign_signText hsign hds rest]
      dsimp only
      rw [hfound]

/-- Behind the whole part there is a mark, or what follows the number. -/
theorem ExponentText.head {exponent : Option (Bool × List Char)} {cs rest : List Char}
    (h : ExponentText exponent cs) (hrest : Stops rest) :
    (∀ c ∈ (cs ++ rest).head?, c ≠ '.') ∧ ∀ c ∈ (cs ++ rest).head?, c.isDigit = false := by
  cases h with
  | absent =>
      refine ⟨?_, hrest.no_digit⟩
      rintro c hc rfl
      exact absurd (hrest '.' hc) (by decide)
  | given hmark =>
      constructor
      · rintro c ⟨⟩
        rcases hmark with rfl | rfl <;> decide
      · rintro c ⟨⟩
        rcases hmark with rfl | rfl <;> decide

theorem FractionText.head {fraction : Option (List Char)} {cs rest : List Char}
    (h : FractionText fraction cs) (hrest : ∀ c ∈ rest.head?, c.isDigit = false) :
    ∀ c ∈ (cs ++ rest).head?, c.isDigit = false := by
  cases h with
  | absent => exact hrest
  | given =>
      rintro c ⟨⟩
      decide

/-- A number is read up to where it stops. Each part is scanned by a lemma of its own. What is left
to see is that none of them takes up what belongs to the next one. -/
theorem scan_numeralText {n : Numeral} {cs rest : List Char} (h : NumeralText n cs)
    (hrest : Stops rest) : scan (cs ++ rest) = some (n, rest) := by
  obtain ⟨negative, whole, fraction, exponent⟩ := n
  obtain @⟨fractionText, exponentText, hwhole, hzero, hfraction, hexponent⟩ := h
  dsimp only at hwhole hzero hfraction hexponent ⊢
  obtain ⟨hpoint, hdigit⟩ := hexponent.head hrest
  have hscanWhole := scanWhole_digits hwhole hzero (hfraction.head hdigit)
  have hscanFraction := scanFraction_fractionText hfraction hpoint hdigit
  have hscanExponent := scanExponent_exponentText hexponent hrest
  simp only [List.append_assoc]
  cases negative with
  | true =>
      simp only [if_true, List.cons_append, List.nil_append, scan, hscanWhole, hscanFraction,
        hscanExponent]
  | false =>
      obtain ⟨d, more, rfl⟩ := List.exists_cons_of_ne_nil hwhole.ne_nil
      have hd : d ≠ '-' := by
        rintro rfl
        exact absurd (hwhole.digits '-' List.mem_cons_self) (by decide)
      simp only [Bool.false_eq_true, if_false, List.nil_append, List.cons_append] at hscanWhole ⊢
      unfold scan
      split
      next heq =>
          split at heq
          · next hminus => exact absurd (List.cons.inj hminus).1 hd
          · obtain ⟨rfl, rfl⟩ := Prod.mk.inj heq
            simp only [hscanWhole, hscanFraction, hscanExponent]

/-- A number begins with its sign, or with a digit. -/
theorem NumeralText.exists_begins {n : Numeral} {cs : List Char} (h : NumeralText n cs) :
    ∃ c more, cs = c :: more ∧ (c = '-' ∨ c.isDigit = true) := by
  obtain ⟨hwhole, -, -, -⟩ := h
  cases n.negative with
  | true => exact ⟨'-', _, rfl, .inl rfl⟩
  | false =>
      obtain ⟨d, more, hdigits⟩ := List.exists_cons_of_ne_nil hwhole.ne_nil
      rw [hdigits]
      exact ⟨d, _, rfl, .inr (hwhole.digits d (hdigits ▸ List.mem_cons_self))⟩

/-! #### What is read was written -/

theorem digitsOf_eq {cs ds rest : List Char} (h : digitsOf cs = (ds, rest)) :
    cs = ds ++ rest ∧ ∀ c ∈ ds, c.isDigit = true := by
  obtain ⟨rfl, rfl⟩ := Prod.mk.inj h
  refine ⟨(List.takeWhile_append_dropWhile ..).symm, fun c hc => ?_⟩
  exact List.all_eq_true.1 List.all_takeWhile c hc

theorem digits_of_scanWhole {cs whole rest : List Char} (h : scanWhole cs = some (whole, rest)) :
    cs = whole ++ rest ∧ IsDigits whole ∧ ∀ more, whole = '0' :: more → more = [] := by
  unfold scanWhole at h
  split at h
  case h_1 => exact absurd h (by simp)
  case h_2 => exact absurd h (by simp)
  case h_3 hnil hzero =>
    obtain ⟨hcs, hdigits⟩ := digitsOf_eq (Option.some.inj h)
    refine ⟨hcs, ⟨?_, hdigits⟩, ?_⟩
    · rintro rfl
      exact hnil _ (Option.some.inj h)
    · rintro more rfl
      cases more with
      | nil => rfl
      | cons d more => exact absurd (Option.some.inj h) (hzero d more rest)

theorem fractionText_of_scanFraction {cs rest : List Char} {fraction : Option (List Char)}
    (h : scanFraction cs = some (fraction, rest)) :
    ∃ body, FractionText fraction body ∧ cs = body ++ rest := by
  unfold scanFraction at h
  split at h
  case h_2 =>
    obtain ⟨rfl, rfl⟩ := Prod.mk.inj (Option.some.inj h)
    exact ⟨[], .absent, rfl⟩
  case h_1 behind =>
    split at h
    · exact absurd h (by simp)
    · next ds left hnil hfound =>
        obtain ⟨rfl, rfl⟩ := Prod.mk.inj (Option.some.inj h)
        obtain ⟨rfl, hdigits⟩ := digitsOf_eq hfound
        exact ⟨'.' :: ds, .given ⟨hnil, hdigits⟩, rfl⟩

theorem signText_scanSign (cs : List Char) :
    ∃ sign, SignText (scanSign cs).1 sign ∧ cs = sign ++ (scanSign cs).2 := by
  unfold scanSign
  split
  · exact ⟨['+'], .plus, rfl⟩
  · exact ⟨['-'], .minus, rfl⟩
  · exact ⟨[], .bare, rfl⟩

theorem exponentText_of_scanExponent {cs rest : List Char} {exponent : Option (Bool × List Char)}
    (h : scanExponent cs = some (exponent, rest)) :
    ∃ body, ExponentText exponent body ∧ cs = body ++ rest := by
  unfold scanExponent at h
  split at h
  · obtain ⟨rfl, rfl⟩ := Prod.mk.inj (Option.some.inj h)
    exact ⟨[], .absent, rfl⟩
  · next mark behind =>
      split at h
      · next hmark =>
          dsimp only at h
          split at h
          · exact absurd h (by simp)
          · next ds left hnil hfound =>
              obtain ⟨rfl, rfl⟩ := Prod.mk.inj (Option.some.inj h)
              obtain ⟨sign, hsign, hbehind⟩ := signText_scanSign behind
              obtain ⟨hds, hdigits⟩ := digitsOf_eq hfound
              refine ⟨mark :: (sign ++ ds), .given hmark hsign ⟨hnil, hdigits⟩, ?_⟩
              rw [List.cons_append, List.append_assoc, ← hds, ← hbehind]
      · obtain ⟨rfl, rfl⟩ := Prod.mk.inj (Option.some.inj h)
        exact ⟨[], .absent, rfl⟩

/-- A number is scanned part by part. -/
theorem parts_of_scan {cs rest : List Char} {n : Numeral} (h : scan cs = some (n, rest)) :
    ∃ behind left left', cs = (if n.negative then ['-'] else []) ++ behind ∧
      scanWhole behind = some (n.whole, left) ∧ scanFraction left = some (n.fraction, left') ∧
      scanExponent left' = some (n.exponent, rest) := by
  unfold scan at h
  split at h
  next negative behind hsign =>
    have hbehind : cs = (if negative then ['-'] else []) ++ behind := by
      split at hsign
      · obtain ⟨rfl, rfl⟩ := Prod.mk.inj hsign
        rfl
      · obtain ⟨rfl, rfl⟩ := Prod.mk.inj hsign
        rfl
    split at h
    case h_1 => simp at h
    case h_2 whole left hwhole =>
      split at h
      case h_1 => simp at h
      case h_2 fraction left' hfraction =>
        split at h
        case h_1 => simp at h
        case h_2 exponent left'' hexponent =>
          obtain ⟨rfl, rfl⟩ := Prod.mk.inj (Option.some.inj h)
          exact ⟨behind, left, left', hbehind, hwhole, hfraction, hexponent⟩

/-- What was read as a number is one. -/
theorem numeralText_of_scan {cs rest : List Char} {n : Numeral} (h : scan cs = some (n, rest)) :
    ∃ body, NumeralText n body ∧ cs = body ++ rest := by
  obtain ⟨behind, left, left', rfl, hwhole, hfraction, hexponent⟩ := parts_of_scan h
  obtain ⟨rfl, hdigits, hzero⟩ := digits_of_scanWhole hwhole
  obtain ⟨fractionText, hfractionText, rfl⟩ := fractionText_of_scanFraction hfraction
  obtain ⟨exponentText, hexponentText, rfl⟩ := exponentText_of_scanExponent hexponent
  refine ⟨_, .intro hdigits hzero hfractionText hexponentText, ?_⟩
  simp only [List.append_assoc]

end Numeral

/-! ### Values

The grammar has three kinds of parts, as the readers have. Blanks may stand in front of any part and
behind a value, which is all there is to say about blanks.
-/

/-- Only blanks. -/
def Blank (cs : List Char) : Prop := ∀ c ∈ cs, isBlank c = true

/-- The ways to write a key. -/
inductive KeyText : Option String → List Char → Prop
  | intro {body blanks : List Char} {pieces : List Piece} (h : Literal pieces body)
      (hblanks : Blank blanks) : KeyText (textOf? pieces) ('"' :: (body ++ '"' :: blanks))

/-- The parts of a text: a value, and what stands in a container behind its opening bracket, up to
and with the closing one. -/
inductive Part where
  | value (d : Document)
  | items (ds : List Document)
  | members (ms : List (Option String × Document))

/-- The ways to write a part with `depth` containers around it. Blanks may be added in several lots,
so a text can be derived in more than one way, though not as more than one document. -/
inductive Spells : Nat → Part → List Char → Prop
  | before {depth : Nat} {part : Part} {blanks cs : List Char} (hblanks : Blank blanks)
      (h : Spells depth part cs) : Spells depth part (blanks ++ cs)
  | behind {depth : Nat} {d : Document} {blanks cs : List Char} (hblanks : Blank blanks)
      (h : Spells depth (.value d) cs) : Spells depth (.value d) (cs ++ blanks)
  | null {depth : Nat} : Spells depth (.value .null) ['n', 'u', 'l', 'l']
  | truth {depth : Nat} : Spells depth (.value (.bool true)) ['t', 'r', 'u', 'e']
  | falsehood {depth : Nat} : Spells depth (.value (.bool false)) ['f', 'a', 'l', 's', 'e']
  | number {depth : Nat} {n : Numeral} {cs : List Char} (h : n.NumeralText cs) :
      Spells depth (.value (n.number?.elim .beyond .number)) cs
  | string {depth : Nat} {pieces : List Piece} {body : List Char} (h : Literal pieces body) :
      Spells depth (.value ((textOf? pieces).elim .beyond .string)) ('"' :: (body ++ ['"']))
  | emptyArray {depth : Nat} {blanks : List Char} (hblanks : Blank blanks) :
      Spells depth (.value (.within depth (.array [] true))) ('[' :: (blanks ++ [']']))
  | array {depth : Nat} {ds : List Document} {cs : List Char}
      (h : Spells (depth + 1) (.items ds) cs) :
      Spells depth (.value (.within depth (.array ds true))) ('[' :: cs)
  | emptyObject {depth : Nat} {blanks : List Char} (hblanks : Blank blanks) :
      Spells depth (.value (.within depth (.object [] true))) ('\x7b' :: (blanks ++ ['\x7d']))
  | object {depth : Nat} {ms : List (Option String × Document)} {cs : List Char}
      (h : Spells (depth + 1) (.members ms) cs) :
      Spells depth (.value (.within depth (.object ms true))) ('\x7b' :: cs)
  | lastItem {depth : Nat} {d : Document} {cs : List Char} (h : Spells depth (.value d) cs) :
      Spells depth (.items [d]) (cs ++ [']'])
  | item {depth : Nat} {d : Document} {ds : List Document} {cs more : List Char}
      (h : Spells depth (.value d) cs) (hmore : Spells depth (.items ds) more) :
      Spells depth (.items (d :: ds)) (cs ++ ',' :: more)
  | lastMember {depth : Nat} {key : Option String} {d : Document} {label cs : List Char}
      (hkey : KeyText key label) (h : Spells depth (.value d) cs) :
      Spells depth (.members [(key, d)]) (label ++ ':' :: (cs ++ ['\x7d']))
  | member {depth : Nat} {key : Option String} {d : Document}
      {ms : List (Option String × Document)} {label cs more : List Char} (hkey : KeyText key label)
      (h : Spells depth (.value d) cs) (hmore : Spells depth (.members ms) more) :
      Spells depth (.members ((key, d) :: ms)) (label ++ ':' :: (cs ++ ',' :: more))

end DebugBridge.Json
