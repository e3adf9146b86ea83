/-
Which paths can be typed.

A place is typed as `FILE:LINE`. The file may have any colons in it, since the last one is what
counts, and any blanks inside, since the argument is put together again from its words. But it is
put together with single spaces, so a run of blanks, or a blank that is no space, does not come
through: what arrives is the path with its blanks squeezed (`places_are_typed_up_to_blanks`).

The number behind the colon has no blanks. So squeezing the whole argument squeezes the path and
leaves the number alone, and there is no need to know where the words of a path end.
-/
import DebugBridge.Proofs.Console.Typing
import DebugBridge.Proofs.Text.Words

namespace DebugBridge.Console

open Text (EndsPlain SingleSpaced isBlank squeezed squeezedFrom words)

/-- What stands behind the verb is put together again from its words. It comes out with its blanks
squeezed, as if it followed a space, which it does. -/
theorem parse_typed {text verb : String} {argument : List Char}
    (htext : text.toList = verb.toList ++ ' ' :: argument) (hne : verb.toList ≠ [])
    (hverb : ∀ c ∈ verb.toList, isBlank c = false) (hlast : EndsPlain argument) :
    Order.parse text = (Order.ofVerb verb (squeezedFrom true argument)).map some := by
  have hwords : words text.toList = verb.toList :: words argument := by
    rw [htext, Text.words_append_cons (by decide), Text.words_of_no_blank hne hverb]
    rfl
  rw [Order.parse, hwords]
  dsimp only
  rw [Text.intercalate_words hlast, String.ofList_toList]

theorem isBlank_of_mem_line (n : Nat) : ∀ c ∈ ':' :: n.repr.toList, isBlank c = false :=
  List.forall_mem_cons.2
    ⟨by decide, fun _ hc => Text.isBlank_of_isDigit (Text.isDigit_of_mem_repr _ hc)⟩

/-- A place is read as the path before the last colon, with its blanks squeezed, and the line. -/
theorem parseLocation_typed {path : String} (hne : path.toList ≠ [])
    (hfirst : ∀ c ∈ path.toList.head?, isBlank c = false) {line : UInt32}
    (hline : line.toNat < UInt32.size - 1) :
    parseLocation (squeezedFrom true (path.toList ++ ':' :: (line.toNat + 1).repr.toList)) =
      .ok (squeezed path, line) := by
  have hnumeral := Text.isNumeral_repr (line.toNat + 1)
  have hplace : IsPlace (squeezedFrom true (path.toList ++ ':' :: (line.toNat + 1).repr.toList))
      (squeezed path) (line.toNat + 1) := by
    refine ⟨?_, _, ?_, hnumeral.notMem (by decide) (by decide), hnumeral⟩
    · obtain ⟨first, rest, hkept⟩ := Text.exists_squeezedFrom hne hfirst
      rw [squeezed, Ne, String.ofList_eq_empty_iff, hkept]
      exact List.cons_ne_nil first rest
    · rw [Text.squeezedFrom_append (isBlank_of_mem_line _), Text.squeezedFrom_of_head hfirst,
        squeezed,
        String.toList_ofList]
  exact parseLocation_of_isPlace hplace (Nat.add_lt_of_lt_sub hline)

theorem parse_place (verb : String) {text path : String} {line : UInt32}
    {make : String → UInt32 → Order}
    (htext : text.toList =
      verb.toList ++ ' ' :: (path.toList ++ ':' :: (line.toNat + 1).repr.toList))
    (hverb : verb.toList ≠ []) (hblank : ∀ c ∈ verb.toList, isBlank c = false)
    (hne : path.toList ≠ []) (hfirst : ∀ c ∈ path.toList.head?, isBlank c = false)
    (hline : line.toNat < UInt32.size - 1)
    (hmake : ∀ argument, Order.ofVerb verb argument =
      (parseLocation argument).map fun place => make place.1 place.2) :
    Order.parse text = .ok (some (make (squeezed path) line)) := by
  have hlast : EndsPlain (path.toList ++ ':' :: (line.toNat + 1).repr.toList) :=
    .append (by simp) (isBlank_of_mem_line _) _
  rw [parse_typed htext hverb hblank hlast, hmake, parseLocation_typed hne hfirst hline]
  rfl

/-- **Paths come through up to blanks.** Whatever colons, spaces and other characters a path has
that neither begins nor ends with a blank, each command that takes a place or a path gets it with
one space for every run of blanks, and the line as it was typed, less one. So the path arrives as it
was typed exactly if its blanks are single spaces.

The three commands that take a place are one case with three verbs (`parse_place`). The fourth takes
the whole argument as a path, so no number stands behind it. -/
theorem places_are_typed_up_to_blanks {path : String} (hne : path ≠ "")
    (hfirst : ∀ c ∈ path.toList.head?, isBlank c = false) (hlast : EndsPlain path.toList)
    {line : UInt32} (hline : line.toNat < UInt32.size - 1) :
    Order.parse s!"b {path}:{line.toNat + 1}" = .ok (some (.setBreakpoint (squeezed path) line)) ∧
      Order.parse s!"d {path}:{line.toNat + 1}" =
        .ok (some (.clearBreakpoint (squeezed path) line)) ∧
      Order.parse s!"cols {path}:{line.toNat + 1}" =
        .ok (some (.breakColumns (squeezed path) line)) ∧
      Order.parse s!"bc {path}" = .ok (some (.clearBreakpoints (squeezed path))) ∧
      (squeezed path = path ↔ SingleSpaced path.toList) := by
  have hpath : path.toList ≠ [] := fun hnil => hne (String.toList_inj.1 hnil)
  refine ⟨?_, ?_, ?_, ?_, ?_⟩
  · refine parse_place "b" ?_ (by decide) (by simp [isBlank]) hpath hfirst hline fun _ => rfl
    simp [toString]
  · refine parse_place "d" ?_ (by decide) (by simp [isBlank]) hpath hfirst hline fun _ => rfl
    simp [toString]
  · refine parse_place "cols" ?_ (by decide) (by simp [isBlank]) hpath hfirst hline fun _ => rfl
    simp [toString]
  · have htext : s!"bc {path}".toList = "bc".toList ++ ' ' :: path.toList := by simp [toString]
    obtain ⟨first, rest, hkept⟩ := Text.exists_squeezedFrom hpath hfirst
    rw [parse_typed htext (by decide) (by simp [isBlank]) hlast, Text.squeezedFrom_of_head hfirst,
      squeezed,
      hkept]
    rfl
  · rw [squeezed, ← String.toList_inj, String.toList_ofList]
    exact (Text.squeezedFrom_eq_self_iff _).1

/-- Colons and single spaces come through, at the last line that can be typed. -/
theorem place_on_a_drive_comes_through :
    let path := "C:/my game/a:b.nut"
    path ≠ "" ∧ (∀ c ∈ path.toList.head?, isBlank c = false) ∧ EndsPlain path.toList ∧
      (4294967294 : UInt32).toNat < UInt32.size - 1 ∧
      Order.parse "cols C:/my game/a:b.nut:4294967295" =
        .ok (some (.breakColumns path 4294967294)) := by
  intro path
  have hline : (4294967294 : UInt32).toNat < UInt32.size - 1 := by decide
  have hfirst : ∀ c ∈ path.toList.head?, isBlank c = false := by simp [path, isBlank]
  have hlast : EndsPlain path.toList := by decide
  have hne : path ≠ "" := by decide
  obtain ⟨-, -, hcolumns, -, hsame⟩ := places_are_typed_up_to_blanks hne hfirst hlast hline
  have hsingle : SingleSpaced path.toList := ⟨by simp [path, isBlank], by decide +kernel⟩
  have htext : s!"cols {path}:{(4294967294 : UInt32).toNat + 1}" =
      "cols C:/my game/a:b.nut:4294967295" := by decide +kernel
  rw [hsame.2 hsingle, htext] at hcolumns
  exact ⟨hne, hfirst, hlast, hline, hcolumns⟩

/-- Two spaces side by side do not come through, though nothing about the path keeps it from being
typed. -/
theorem two_spaces_become_one :
    let path := "a  b"
    (path ≠ "" ∧ '\n' ∉ path.toList ∧ '\r' ∉ path.toList ∧
        (∀ c ∈ path.toList.head?, isBlank c = false) ∧ EndsPlain path.toList) ∧
      Order.parse "b a  b:1" = .ok (some (.setBreakpoint "a b" 0)) ∧
      Order.parse "b a  b:1" ≠ .ok (some (.setBreakpoint path 0)) := by
  intro path
  have hread : Order.parse "b a  b:1" = .ok (some (.setBreakpoint "a b" 0)) := by rfl
  refine ⟨⟨by decide, by decide, by decide, by simp [path, isBlank], by decide⟩, hread, ?_⟩
  rw [hread]
  simp [path]

end DebugBridge.Console
