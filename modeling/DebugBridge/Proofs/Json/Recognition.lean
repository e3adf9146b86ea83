/-
A text is read to its end exactly if the grammar has it, and then as the document it spells.

The readers take one part of a text and leave the rest, so both directions are about a text with
something behind it. What was read is spelled by what was taken, by induction on the fuel. What is
spelled is read, by induction on the grammar: there is fuel enough as long as it is twice the
length, and a reader that has taken a value may leave blanks that the grammar counts with the value
(`Taken`).

The two inductions do not use each other. The first has a case for every way through a reader, and
the second one for every production.
-/
import DebugBridge.Proofs.Json.Compact
import DebugBridge.Proofs.Json.Grammar

namespace DebugBridge.Json

/-! ### Blanks

The readers skip blanks where they begin. The grammar has them where a part begins and where a value
ends.
-/

theorem skipBlanks_append {blanks : List Char} (h : Blank blanks) (cs : List Char) :
    skipBlanks (blanks ++ cs) = skipBlanks cs :=
  List.dropWhile_append_of_pos h

/-- What is skipped are blanks. -/
theorem exists_blanks {cs rest : List Char} (h : skipBlanks cs = rest) :
    ∃ blanks, Blank blanks ∧ cs = blanks ++ rest := by
  refine ⟨cs.takeWhile isBlank, fun c hc => List.all_eq_true.1 List.all_takeWhile c hc, ?_⟩
  rw [← h]
  exact List.takeWhile_append_dropWhile.symm

/-! ### What is read is spelled

Each reader calls the others with less fuel, so there is a lemma for one call of each, under the
hypothesis that the calls it makes take what the grammar has.
-/

/-- What a reader took of `cs` spells a part, if it left `rest`. -/
def Left (depth : Nat) (part : Part) (cs rest : List Char) : Prop :=
  ∃ body, Spells depth part body ∧ cs = body ++ rest

/-- Blanks in front of what was taken belong to it. -/
theorem Left.of_skipBlanks {depth : Nat} {part : Part} {cs rest : List Char}
    (h : Left depth part (skipBlanks cs) rest) : Left depth part cs rest := by
  obtain ⟨body, hbody, hskip⟩ := h
  obtain ⟨blanks, hblanks, rfl⟩ := exists_blanks hskip
  exact ⟨blanks ++ body, .before hblanks hbody, (List.append_assoc ..).symm⟩

section Readers

variable {fuel depth : Nat} {cs rest : List Char}

theorem left_readNumber {d : Document} (h : readNumber cs = (d, some rest)) :
    Left depth (.value d) cs rest := by
  unfold readNumber at h
  split at h
  · exact absurd h (by simp)
  · next n left hscan =>
      obtain ⟨rfl, hleft⟩ := Prod.mk.inj h
      obtain rfl := Option.some.inj hleft
      obtain ⟨body, hbody, hcs⟩ := Numeral.numeralText_of_scan hscan
      exact ⟨body, .number hbody, hcs⟩

theorem left_readValue_succ
    (hitems : ∀ {depth cs ds rest}, readItems fuel depth cs = (ds, some rest) →
      Left depth (.items ds) cs rest)
    (hmembers : ∀ {depth cs ms rest}, readMembers fuel depth cs = (ms, some rest) →
      Left depth (.members ms) cs rest)
    {d : Document} (h : readValue (fuel + 1) depth cs = (d, some rest)) :
    Left depth (.value d) cs rest := by
  refine Left.of_skipBlanks ?_
  rw [readValue] at h
  split at h
  case h_1 heq =>
    obtain ⟨rfl, rfl⟩ : _ ∧ _ := by simpa using h
    exact ⟨_, .null, heq⟩
  case h_2 heq =>
    obtain ⟨rfl, rfl⟩ : _ ∧ _ := by simpa using h
    exact ⟨_, .truth, heq⟩
  case h_3 heq =>
    obtain ⟨rfl, rfl⟩ : _ ∧ _ := by simpa using h
    exact ⟨_, .falsehood, heq⟩
  case h_4 heq =>
    split at h
    · exact absurd h (by simp)
    · next text left hread =>
        obtain ⟨rfl, hleft⟩ := Prod.mk.inj h
        obtain rfl := Option.some.inj hleft
        obtain ⟨pieces, body, hliteral, rfl, rfl⟩ := readString_eq_some_iff.1 hread
        exact ⟨_, .string hliteral, by simp [heq]⟩
  case h_5 behind heq =>
    split at h
    · next left hempty =>
        obtain ⟨blanks, hblanks, rfl⟩ := exists_blanks hempty
        obtain ⟨rfl, hleft⟩ := Prod.mk.inj h
        obtain rfl := Option.some.inj hleft
        exact ⟨_, .emptyArray hblanks, by simp [heq]⟩
    · dsimp only at h
      obtain ⟨rfl, hleft⟩ := Prod.mk.inj h
      obtain ⟨body, hbody, rfl⟩ := Left.of_skipBlanks (hitems (Prod.ext rfl hleft))
      rw [hleft]
      exact ⟨_, .array hbody, heq⟩
  case h_6 behind heq =>
    split at h
    · next left hempty =>
        obtain ⟨blanks, hblanks, rfl⟩ := exists_blanks hempty
        obtain ⟨rfl, hleft⟩ := Prod.mk.inj h
        obtain rfl := Option.some.inj hleft
        exact ⟨_, .emptyObject hblanks, by simp [heq]⟩
    · dsimp only at h
      obtain ⟨rfl, hleft⟩ := Prod.mk.inj h
      obtain ⟨body, hbody, rfl⟩ := Left.of_skipBlanks (hmembers (Prod.ext rfl hleft))
      rw [hleft]
      exact ⟨_, .object hbody, heq⟩
  case h_7 => exact left_readNumber h

theorem left_readItems_succ
    (hvalue : ∀ {depth cs d rest}, readValue fuel depth cs = (d, some rest) →
      Left depth (.value d) cs rest)
    (hitems : ∀ {depth cs ds rest}, readItems fuel depth cs = (ds, some rest) →
      Left depth (.items ds) cs rest)
    {ds : List Document} (h : readItems (fuel + 1) depth cs = (ds, some rest)) :
    Left depth (.items ds) cs rest := by
  rw [readItems] at h
  split at h
  · exact absurd h (by simp)
  · next item left hread =>
      obtain ⟨body, hbody, rfl⟩ := hvalue hread
      split at h
      · next behind hskip =>
          obtain ⟨blanks, hblanks, rfl⟩ := exists_blanks hskip
          dsimp only at h
          obtain ⟨rfl, hleft⟩ := Prod.mk.inj h
          obtain ⟨more, hmore, rfl⟩ := hitems (Prod.ext rfl hleft)
          exact ⟨_, .item (.behind hblanks hbody) hmore, by simp⟩
      · next behind hskip =>
          obtain ⟨blanks, hblanks, rfl⟩ := exists_blanks hskip
          obtain ⟨rfl, hleft⟩ := Prod.mk.inj h
          obtain rfl := Option.some.inj hleft
          exact ⟨_, .lastItem (.behind hblanks hbody), by simp⟩
      · exact absurd h (by simp)

theorem left_readMembers_succ
    (hvalue : ∀ {depth cs d rest}, readValue fuel depth cs = (d, some rest) →
      Left depth (.value d) cs rest)
    (hmembers : ∀ {depth cs ms rest}, readMembers fuel depth cs = (ms, some rest) →
      Left depth (.members ms) cs rest)
    {ms : List (Option String × Document)} (h : readMembers (fuel + 1) depth cs = (ms, some rest)) :
    Left depth (.members ms) cs rest := by
  refine Left.of_skipBlanks ?_
  rw [readMembers] at h
  split at h
  case h_2 => exact absurd h (by simp)
  case h_1 heq =>
    split at h
    · exact absurd h (by simp)
    next key behindKey hkeyRead =>
      obtain ⟨pieces, literal, hliteral, rfl, rfl⟩ := readString_eq_some_iff.1 hkeyRead
      split at h
      case h_2 => exact absurd h (by simp)
      case h_1 behindColon hcolon =>
        obtain ⟨keyBlanks, hkeyBlanks, rfl⟩ := exists_blanks hcolon
        have hkey := KeyText.intro hliteral hkeyBlanks
        split at h
        · exact absurd h (by simp)
        · next item left hread =>
            obtain ⟨body, hbody, rfl⟩ := hvalue hread
            split at h
            · next behind hskip =>
                obtain ⟨blanks, hblanks, rfl⟩ := exists_blanks hskip
                dsimp only at h
                obtain ⟨rfl, hleft⟩ := Prod.mk.inj h
                obtain ⟨more, hmore, rfl⟩ := hmembers (Prod.ext rfl hleft)
                exact ⟨_, .member hkey (.behind hblanks hbody) hmore, by simp [heq]⟩
            · next behind hskip =>
                obtain ⟨blanks, hblanks, rfl⟩ := exists_blanks hskip
                obtain ⟨rfl, hleft⟩ := Prod.mk.inj h
                obtain rfl := Option.some.inj hleft
                exact ⟨_, .lastMember hkey (.behind hblanks hbody), by simp [heq]⟩
            · exact absurd h (by simp)

end Readers

/-- Each of the three readers takes only what the grammar has. The induction is on the fuel, and is
about all three, as each of them hands on to the others with less of it. -/
theorem left_readers (fuel : Nat) :
    (∀ {depth cs d rest}, readValue fuel depth cs = (d, some rest) →
      Left depth (.value d) cs rest) ∧
      (∀ {depth cs ds rest}, readItems fuel depth cs = (ds, some rest) →
        Left depth (.items ds) cs rest) ∧
      ∀ {depth cs ms rest}, readMembers fuel depth cs = (ms, some rest) →
        Left depth (.members ms) cs rest := by
  induction fuel with
  | zero =>
      refine ⟨fun h => ?_, fun h => ?_, fun h => ?_⟩
      · simp [readValue] at h
      · simp [readItems] at h
      · simp [readMembers] at h
  | succ fuel ih =>
      obtain ⟨hvalue, hitems, hmembers⟩ := ih
      exact ⟨left_readValue_succ hitems hmembers, left_readItems_succ hvalue hitems,
        left_readMembers_succ hvalue hmembers⟩

/-! ### What is spelled is read

A value may be left with blanks behind it, which the reader of a container skips before it looks for
a comma. So what is left of a value is known up to blanks, and what is left of a container, which
ends with a bracket, exactly.
-/

/-- The reader of a part takes `cs` and leaves what stands behind it. -/
def Taken (depth : Nat) (cs : List Char) : Part → Prop
  | .value d => ∀ {fuel : Nat} {rest : List Char}, 2 * cs.length ≤ fuel → Numeral.Stops rest →
      ∃ left, readValue fuel depth (cs ++ rest) = (d, some left) ∧ skipBlanks left = skipBlanks rest
  | .items ds => ∀ {fuel : Nat} {rest : List Char}, 2 * cs.length ≤ fuel →
      readItems fuel depth (cs ++ rest) = (ds, some rest)
  | .members ms => ∀ {fuel : Nat} {rest : List Char}, 2 * cs.length ≤ fuel →
      readMembers fuel depth (cs ++ rest) = (ms, some rest)

section Blanks

variable {blanks : List Char} (h : Blank blanks) (fuel depth : Nat) (cs : List Char)
include h

theorem readValue_blanks : readValue fuel depth (blanks ++ cs) = readValue fuel depth cs := by
  cases fuel with
  | zero => rfl
  | succ fuel => rw [readValue, readValue, skipBlanks_append h]

theorem readItems_blanks : readItems fuel depth (blanks ++ cs) = readItems fuel depth cs := by
  cases fuel with
  | zero => rfl
  | succ fuel => rw [readItems, readItems, readValue_blanks h]

theorem readMembers_blanks : readMembers fuel depth (blanks ++ cs) = readMembers fuel depth cs := by
  cases fuel with
  | zero => rfl
  | succ fuel => rw [readMembers, readMembers, skipBlanks_append h]

/-- Neither do blanks behind an opening bracket count. -/
theorem readValue_array_blanks :
    readValue fuel depth ('[' :: (blanks ++ cs)) = readValue fuel depth ('[' :: cs) := by
  cases fuel with
  | zero => rfl
  | succ fuel =>
      rw [readValue, readValue, skipBlanks_cons rfl, skipBlanks_cons rfl]
      simp only [skipBlanks_append h]

theorem readValue_object_blanks :
    readValue fuel depth ('\x7b' :: (blanks ++ cs)) = readValue fuel depth ('\x7b' :: cs) := by
  cases fuel with
  | zero => rfl
  | succ fuel =>
      rw [readValue, readValue, skipBlanks_cons rfl, skipBlanks_cons rfl]
      simp only [skipBlanks_append h]

theorem stops_blanks {rest : List Char} (hrest : Numeral.Stops rest) :
    Numeral.Stops (blanks ++ rest) := by
  cases blanks with
  | nil => exact hrest
  | cons c others =>
      rintro _ ⟨⟩
      have hc : isBlank c = true := h c List.mem_cons_self
      simp only [isBlank, Bool.or_eq_true, beq_iff_eq] at hc
      rcases hc with ((rfl | rfl) | rfl) | rfl <;> decide

end Blanks

/-- Every part begins with a character that a value begins with. -/
theorem Spells.exists_begins {depth : Nat} {part : Part} {cs : List Char}
    (h : Spells depth part cs) :
    ∃ blanks c more, Blank blanks ∧ cs = blanks ++ c :: more ∧ beginsValue c = true := by
  have hnil : Blank [] := by simp [Blank]
  induction h with
  | before hblanks _ ih =>
      obtain ⟨inner, c, more, hinner, rfl, hc⟩ := ih
      refine ⟨_ ++ inner, c, more, List.forall_mem_append.2 ⟨hblanks, hinner⟩, ?_, hc⟩
      exact (List.append_assoc ..).symm
  | number h =>
      obtain ⟨c, more, rfl, hc⟩ := h.exists_begins
      exact ⟨[], c, more, hnil, rfl, beginsValue_of_number hc⟩
  | behind _ _ ih | lastItem _ ih | item _ _ ih =>
      obtain ⟨blanks, c, more, hblanks, rfl, hc⟩ := ih
      exact ⟨blanks, c, _, hblanks, List.append_assoc .., hc⟩
  | lastMember hkey | member hkey =>
      cases hkey
      exact ⟨[], '"', _, hnil, rfl, rfl⟩
  | _ => exact ⟨[], _, _, hnil, rfl, rfl⟩

section Opened

variable {fuel depth : Nat} {part : Part} {cs rest : List Char}

/-- An opening bracket in front of items. -/
theorem readValue_opened_array (h : Spells (depth + 1) part cs) {ds : List Document}
    (hread : readItems fuel (depth + 1) (cs ++ rest) = (ds, some rest)) :
    readValue (fuel + 1) depth ('[' :: cs ++ rest) =
      (.within depth (.array ds true), some rest) := by
  obtain ⟨blanks, c, more, hblanks, rfl, hc⟩ := h.exists_begins
  rw [List.append_assoc, readItems_blanks hblanks, List.cons_append] at hread
  rw [List.cons_append, List.append_assoc, readValue_array_blanks hblanks, List.cons_append,
    readValue_array hc, hread]
  rfl

/-- An opening brace in front of members. -/
theorem readValue_opened_object (h : Spells (depth + 1) part cs)
    {ms : List (Option String × Document)}
    (hread : readMembers fuel (depth + 1) (cs ++ rest) = (ms, some rest)) :
    readValue (fuel + 1) depth ('\x7b' :: cs ++ rest) =
      (.within depth (.object ms true), some rest) := by
  obtain ⟨blanks, c, more, hblanks, rfl, hc⟩ := h.exists_begins
  rw [List.append_assoc, readMembers_blanks hblanks, List.cons_append] at hread
  rw [List.cons_append, List.append_assoc, readValue_object_blanks hblanks, List.cons_append,
    readValue_object hc, hread]
  rfl

end Opened

theorem readNumber_numeralText {n : Numeral} {cs rest : List Char} (h : n.NumeralText cs)
    (hrest : Numeral.Stops rest) :
    readNumber (cs ++ rest) = (n.number?.elim .beyond .number, some rest) := by
  rw [readNumber, Numeral.scan_numeralText h hrest]

/-- What stands behind a value in a container is no part of a number. -/
theorem stops_cons {c : Char} (h : Numeral.goesOn c = false) (cs : List Char) :
    Numeral.Stops (c :: cs) := by
  rintro _ ⟨⟩
  exact h

section Member

variable {key : Option String} {label cs left rest : List Char} {fuel depth : Nat} {d : Document}
  (hkey : KeyText key label) (hread : readValue fuel depth cs = (d, some left))
include hkey hread

/-- The last member of an object. -/
theorem readMembers_last (hleft : skipBlanks left = '\x7d' :: rest) :
    readMembers (fuel + 1) depth (label ++ ':' :: cs) = ([(key, d)], some rest) := by
  obtain ⟨hliteral, hblanks⟩ := hkey
  rw [List.cons_append, List.append_assoc, List.cons_append, readMembers, skipBlanks_cons rfl]
  simp only [readString_literal hliteral, skipBlanks_append hblanks, skipBlanks_cons (c := ':') rfl,
    hread, hleft]

/-- A member with others behind it. -/
theorem readMembers_more {ms : List (Option String × Document)} {more : List Char}
    (hleft : skipBlanks left = ',' :: more)
    (hmore : readMembers fuel depth more = (ms, some rest)) :
    readMembers (fuel + 1) depth (label ++ ':' :: cs) = ((key, d) :: ms, some rest) := by
  obtain ⟨hliteral, hblanks⟩ := hkey
  rw [List.cons_append, List.append_assoc, List.cons_append, readMembers, skipBlanks_cons rfl]
  simp only [readString_literal hliteral, skipBlanks_append hblanks, skipBlanks_cons (c := ':') rfl,
    hread, hleft, hmore]

end Member

/-! ### One production at a time

Each way to build a part has a lemma that says its reader takes what is built, once the readers of
its own parts take theirs. The fuel is no matter: a part is shorter than the whole by a bracket or a
comma at least, which pays for the call that hands it on.
-/

namespace Taken

variable {depth : Nat} {part : Part} {d : Document} {blanks cs more label : List Char}
  {key : Option String}

/-- A text that is not empty leaves fuel for a call, so a value may be read with one step of it. -/
theorem of_readValue (hne : cs ≠ [])
    (hread : ∀ {fuel : Nat} {rest : List Char}, 2 * cs.length ≤ fuel + 1 → Numeral.Stops rest →
      readValue (fuel + 1) depth (cs ++ rest) = (d, some rest)) : Taken depth cs (.value d) := by
  rintro (_ | fuel) rest hfuel hrest
  · have hlength := List.length_pos_iff.2 hne
    omega
  · exact ⟨rest, hread hfuel hrest, rfl⟩

theorem before (hblanks : Blank blanks) (h : Taken depth cs part) :
    Taken depth (blanks ++ cs) part := by
  have hless : ∀ {fuel : Nat}, 2 * (blanks ++ cs).length ≤ fuel → 2 * cs.length ≤ fuel := by
    intro fuel hfuel
    rw [List.length_append] at hfuel
    omega
  cases part with
  | value d =>
      intro fuel rest hfuel hrest
      rw [List.append_assoc, readValue_blanks hblanks]
      exact h (hless hfuel) hrest
  | items ds =>
      intro fuel rest hfuel
      rw [List.append_assoc, readItems_blanks hblanks]
      exact h (hless hfuel)
  | members ms =>
      intro fuel rest hfuel
      rw [List.append_assoc, readMembers_blanks hblanks]
      exact h (hless hfuel)

/-- The blanks behind a value are left, and skipped with those that follow. -/
theorem behind (hblanks : Blank blanks) (h : Taken depth cs (.value d)) :
    Taken depth (cs ++ blanks) (.value d) := by
  intro fuel rest hfuel hrest
  have hlength : 2 * cs.length ≤ fuel := by
    rw [List.length_append] at hfuel
    omega
  obtain ⟨left, hread, hleft⟩ := h hlength (stops_blanks hblanks hrest)
  rw [List.append_assoc]
  exact ⟨left, hread, hleft.trans (skipBlanks_append hblanks rest)⟩

theorem number {n : Numeral} (h : n.NumeralText cs) :
    Taken depth cs (.value (n.number?.elim .beyond .number)) := by
  obtain ⟨c, more, rfl, hc⟩ := h.exists_begins
  refine of_readValue (List.cons_ne_nil c more) fun {fuel rest} _ hrest => ?_
  have hread := readNumber_numeralText h hrest
  rw [List.cons_append] at hread ⊢
  rw [readValue_number hc, hread]

theorem string {pieces : List Piece} {body : List Char} (h : Literal pieces body) :
    Taken depth ('"' :: (body ++ ['"'])) (.value ((textOf? pieces).elim .beyond .string)) := by
  refine of_readValue (List.cons_ne_nil _ _) fun {fuel rest} _ _ => ?_
  rw [List.cons_append, List.append_assoc, List.singleton_append, readValue, skipBlanks_cons rfl]
  simp only [readString_literal h]

theorem emptyArray (hblanks : Blank blanks) :
    Taken depth ('[' :: (blanks ++ [']'])) (.value (.within depth (.array [] true))) := by
  refine of_readValue (List.cons_ne_nil _ _) fun {fuel rest} _ _ => ?_
  rw [List.cons_append, List.append_assoc, readValue_array_blanks hblanks]
  rfl

theorem emptyObject (hblanks : Blank blanks) :
    Taken depth ('\x7b' :: (blanks ++ ['\x7d'])) (.value (.within depth (.object [] true))) := by
  refine of_readValue (List.cons_ne_nil _ _) fun {fuel rest} _ _ => ?_
  rw [List.cons_append, List.append_assoc, readValue_object_blanks hblanks]
  rfl

theorem array {ds : List Document} (hspells : Spells (depth + 1) (.items ds) cs)
    (h : Taken (depth + 1) cs (.items ds)) :
    Taken depth ('[' :: cs) (.value (.within depth (.array ds true))) :=
  of_readValue (List.cons_ne_nil _ _) fun hfuel _ =>
    readValue_opened_array hspells (h (by rw [List.length_cons] at hfuel; omega))

theorem object {ms : List (Option String × Document)}
    (hspells : Spells (depth + 1) (.members ms) cs) (h : Taken (depth + 1) cs (.members ms)) :
    Taken depth ('\x7b' :: cs) (.value (.within depth (.object ms true))) :=
  of_readValue (List.cons_ne_nil _ _) fun hfuel _ =>
    readValue_opened_object hspells (h (by rw [List.length_cons] at hfuel; omega))

theorem lastItem (h : Taken depth cs (.value d)) : Taken depth (cs ++ [']']) (.items [d]) := by
  rintro (_ | fuel) rest hfuel
  · simp at hfuel
  · have hlength : 2 * cs.length ≤ fuel := by
      rw [List.length_append, List.length_singleton] at hfuel
      omega
    obtain ⟨left, hread, hleft⟩ := h hlength (stops_cons (c := ']') rfl rest)
    rw [List.append_assoc, List.singleton_append, readItems, hread]
    simp only [hleft, skipBlanks_cons (c := ']') rfl]

theorem item {ds : List Document} (h : Taken depth cs (.value d))
    (hmore : Taken depth more (.items ds)) :
    Taken depth (cs ++ ',' :: more) (.items (d :: ds)) := by
  rintro (_ | fuel) rest hfuel
  · simp at hfuel
  · obtain ⟨hfirst, hrest⟩ : 2 * cs.length ≤ fuel ∧ 2 * more.length ≤ fuel := by
      rw [List.length_append, List.length_cons] at hfuel
      omega
    obtain ⟨left, hread, hleft⟩ := h hfirst (stops_cons (c := ',') rfl (more ++ rest))
    rw [List.append_assoc, List.cons_append, readItems, hread]
    simp only [hleft, skipBlanks_cons (c := ',') rfl, hmore hrest]

theorem lastMember (hkey : KeyText key label) (h : Taken depth cs (.value d)) :
    Taken depth (label ++ ':' :: (cs ++ ['\x7d'])) (.members [(key, d)]) := by
  rintro (_ | fuel) rest hfuel
  · simp at hfuel
  · have hlength : 2 * cs.length ≤ fuel := by
      simp only [List.length_append, List.length_cons] at hfuel
      omega
    obtain ⟨left, hread, hleft⟩ := h hlength (stops_cons (c := '\x7d') rfl rest)
    rw [List.append_assoc, List.cons_append, List.append_assoc, List.singleton_append]
    exact readMembers_last hkey hread (hleft.trans (skipBlanks_cons rfl rest))

theorem member {ms : List (Option String × Document)} (hkey : KeyText key label)
    (h : Taken depth cs (.value d)) (hmore : Taken depth more (.members ms)) :
    Taken depth (label ++ ':' :: (cs ++ ',' :: more)) (.members ((key, d) :: ms)) := by
  rintro (_ | fuel) rest hfuel
  · simp at hfuel
  · obtain ⟨hfirst, hrest⟩ : 2 * cs.length ≤ fuel ∧ 2 * more.length ≤ fuel := by
      simp only [List.length_append, List.length_cons] at hfuel
      omega
    obtain ⟨left, hread, hleft⟩ := h hfirst (stops_cons (c := ',') rfl (more ++ rest))
    rw [List.append_assoc, List.cons_append, List.append_assoc, List.cons_append]
    exact readMembers_more hkey hread (hleft.trans (skipBlanks_cons rfl _)) (hmore hrest)

end Taken

/-- Every part that the grammar has is taken. -/
theorem taken_of_spells {depth : Nat} {part : Part} {cs : List Char} (h : Spells depth part cs) :
    Taken depth cs part := by
  induction h with
  | before hblanks _ ih => exact Taken.before hblanks ih
  | behind hblanks _ ih => exact Taken.behind hblanks ih
  | null | truth | falsehood => exact Taken.of_readValue (List.cons_ne_nil _ _) fun _ _ => rfl
  | number h => exact Taken.number h
  | string h => exact Taken.string h
  | emptyArray hblanks => exact Taken.emptyArray hblanks
  | array h ih => exact Taken.array h ih
  | emptyObject hblanks => exact Taken.emptyObject hblanks
  | object h ih => exact Taken.object h ih
  | lastItem _ ih => exact Taken.lastItem ih
  | item _ _ ih ihMore => exact Taken.item ih ihMore
  | lastMember hkey _ ih => exact Taken.lastMember hkey ih
  | member hkey _ _ ih ihMore => exact Taken.member hkey ih ihMore

/-! ### Whole texts

A text is read with nothing around it and nothing behind it but blanks. It is given fuel for twice
its length, and one call more than the induction asks for.
-/

/-- **The reader recognises the grammar.** A text is read to its end exactly if it spells a
document, and as this document. Blanks behind the document are left by its reader and part of what
is spelled, and this is where the two are brought together. -/
theorem read_eq_iff {text : String} {d : Document} :
    read text = ⟨d, true⟩ ↔ Spells 0 (.value d) text.toList := by
  constructor
  · intro h
    simp only [read, Reading.mk.injEq] at h
    obtain ⟨hdocument, hcomplete⟩ := h
    cases hleft : (readValue (2 * text.toList.length + 1) 0 text.toList).2 with
    | none => simp [hleft] at hcomplete
    | some rest =>
        rw [hleft] at hcomplete
        have hrest : skipBlanks rest = [] := List.isEmpty_iff.1 hcomplete
        obtain ⟨blanks, hblanks, rfl⟩ := exists_blanks hrest
        obtain ⟨body, hbody, htext⟩ := (left_readers _).1 (Prod.ext hdocument hleft)
        rw [htext, List.append_nil]
        exact .behind hblanks hbody
  · intro h
    have hstops : Numeral.Stops [] := by simp [Numeral.Stops]
    obtain ⟨left, hread, hleft⟩ :=
      taken_of_spells h (Nat.le_succ (2 * text.toList.length)) hstops
    rw [List.append_nil] at hread
    simp only [read, hread, Option.elim, hleft]
    rfl

end DebugBridge.Json
