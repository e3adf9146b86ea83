/-
Lines and their ends.

A line ends with a line feed, or with a carriage return and a line feed, and what stands behind the
last end is a line as well. `Cut` says this without a look at how the lines are found. The lines of
a source are those that its contents are cut into when a carriage return right before a line feed
always belongs to the end, but for one thing: a carriage return at the very end is dropped as well,
though no line ends there (`exists_cut_linesOf`).

A text that has no other carriage returns has the same lines whichever of its line feeds they stand
before (`Respelled.linesOf_eq`).

A cut need not be tight, since a carriage return before a line feed may as well be the last
character of its line. That there is no cut at all into the lines that were found has to be shown of
the loose ones too, or it would only say that the returns were dealt with differently.
-/
import DebugBridge.Proofs.Text.Words
import DebugBridge.Source

namespace DebugBridge

/-- How a line can end where another one follows. -/
inductive LineEnd where
  | feed
  | returnFeed
  deriving DecidableEq, Repr

def LineEnd.text : LineEnd → List Char
  | feed => ['\n']
  | returnFeed => ['\r', '\n']

/-- The text is cut into these lines, and between any two of them there is nothing but a line end. A
tight cut takes a carriage return for part of the end wherever that is possible. -/
inductive Cut (tight : Bool) : List Char → List (List Char) → Prop
  | last {line : List Char} (hline : '\n' ∉ line) : Cut tight line [line]
  | more {line text : List Char} {lines : List (List Char)} (ending : LineEnd) (hline : '\n' ∉ line)
      (htight : tight = true → ending = .feed → line.getLast? ≠ some '\r')
      (h : Cut tight text lines) :
      Cut tight (line ++ (ending.text ++ text)) (line :: lines)

namespace Cut

variable {tight : Bool} {text line : List Char} {lines : List (List Char)}

theorem notMem (h : Cut tight text lines) : ∀ line ∈ lines, '\n' ∉ line := by
  induction h with
  | last hline => simpa using hline
  | more _ hline _ _ ih => exact List.forall_mem_cons.2 ⟨hline, ih⟩

theorem loosen (h : Cut tight text lines) : Cut false text lines := by
  induction h with
  | last hline => exact .last hline
  | more ending hline _ _ ih => exact .more ending hline nofun ih

theorem of_cons (h : Cut tight text (line :: lines)) :
    text = line ∧ lines = [] ∨
      ∃ ending rest, text = line ++ (LineEnd.text ending ++ rest) ∧ Cut tight rest lines := by
  cases h with
  | last => exact .inl ⟨rfl, rfl⟩
  | more ending _ _ h => exact .inr ⟨ending, _, rfl, h⟩

/-- No other text is cut into the same lines that is longer by a carriage return. -/
theorem not_concat_return (h : Cut tight text lines) : ¬ Cut false (text ++ ['\r']) lines := by
  induction h with
  | last =>
      intro h
      rcases h.of_cons with ⟨hsame, -⟩ | ⟨_, _, -, hnone⟩
      · simp at hsame
      · cases hnone
  | @more line text lines ending _ _ h ih =>
      intro h'
      rcases h'.of_cons with ⟨-, rfl⟩ | ⟨ending', rest, htext, hrest⟩
      · cases h
      · rw [List.append_assoc, List.append_assoc] at htext
        have hends := List.append_cancel_left htext
        cases ending <;> cases ending' <;> simp [LineEnd.text] at hends
        all_goals
          subst hends
          exact ih hrest

end Cut

namespace SourceText

/-- The lines of a source with these contents. -/
def linesOf (cs : List Char) : List (List Char) :=
  (Text.pieces (· = '\n') cs).map dropReturn

theorem ofContents_eq (path contents : String) :
    ofContents path contents = ⟨path, (linesOf contents.toList).map String.ofList⟩ := by
  rw [ofContents, linesOf, List.map_map]
  rfl

theorem toList_lines_ofContents (path contents : String) :
    (ofContents path contents).lines.map String.toList = linesOf contents.toList := by
  rw [ofContents_eq, List.map_map]
  refine (List.map_congr_left fun line _ => ?_).trans (List.map_id _)
  exact String.toList_ofList

/-! ### Carriage returns

A line is freed of one carriage return at its end. What is taken away can be put back, so nothing is
lost as long as it is known whether there was one.
-/

/-- The carriage return at the end of a text, if it has one. -/
def lastReturn (cs : List Char) : List Char := if cs.getLast? = some '\r' then ['\r'] else []

theorem dropReturn_concat (line : List Char) : dropReturn (line ++ ['\r']) = line := by
  simp [dropReturn]

theorem dropReturn_of_ne {line : List Char} (h : line.getLast? ≠ some '\r') :
    dropReturn line = line := by
  rw [dropReturn, if_neg h]

theorem dropReturn_append_lastReturn (line : List Char) :
    dropReturn line ++ lastReturn line = line := by
  by_cases h : line.getLast? = some '\r'
  · obtain ⟨before, rfl⟩ := List.getLast?_eq_some_iff.1 h
    rw [dropReturn_concat, lastReturn, if_pos h]
  · rw [dropReturn_of_ne h, lastReturn, if_neg h, List.append_nil]

theorem lastReturn_append_feed (line rest : List Char) :
    lastReturn (line ++ '\n' :: rest) = lastReturn rest := by
  rcases List.eq_nil_or_concat rest with rfl | ⟨before, c, rfl⟩
  · simp [lastReturn]
  · simp [lastReturn, List.getLast?_append, List.getLast?_cons]

/-! ### Line by line

The lines are found by cutting at line feeds first and freeing each piece of its carriage return
then. The induction below takes a text apart in the same way, one line at a time, and everything
about lines is shown by it.
-/

theorem linesOf_line {line : List Char} (h : '\n' ∉ line) : linesOf line = [dropReturn line] := by
  rw [linesOf, Text.pieces_of_no_mark]
  · rfl
  · intro c hc
    have hne : c ≠ '\n' := fun heq => h (heq ▸ hc)
    simpa using hne

theorem linesOf_append {line : List Char} (h : '\n' ∉ line) (rest : List Char) :
    linesOf (line ++ '\n' :: rest) = dropReturn line :: linesOf rest := by
  have hline := linesOf_line h
  rw [linesOf] at hline
  rw [linesOf, Text.pieces_append_cons (by simp), List.map_append, hline]
  rfl

/-- What holds of every line, and of a line feed between a line and a text of which it holds, holds
of every text. Lines are found from one line feed to the next, and the induction goes the same way.
-/
theorem line_induction {P : List Char → Prop} (hlast : ∀ line, '\n' ∉ line → P line)
    (hmore : ∀ line rest, '\n' ∉ line → P rest → P (line ++ '\n' :: rest))
    (cs : List Char) : P cs := by
  suffices key : ∀ line, '\n' ∉ line → P (line ++ cs) from key [] List.not_mem_nil
  induction cs with
  | nil =>
      intro line hline
      rw [List.append_nil]
      exact hlast line hline
  | cons c cs ih =>
      intro line hline
      by_cases hc : c = '\n'
      · subst hc
        exact hmore line cs hline (ih [] List.not_mem_nil)
      · rw [List.append_cons]
        refine ih (line ++ [c]) ?_
        simp [hline, Ne.symm hc]

/-- The lines are what the contents are cut into, but for a carriage return at the very end. -/
theorem exists_cut_linesOf (cs : List Char) :
    ∃ kept, Cut true kept (linesOf cs) ∧ cs = kept ++ lastReturn cs := by
  induction cs using line_induction with
  | hlast line hline =>
      have hwhole := dropReturn_append_lastReturn line
      have hkept : '\n' ∉ dropReturn line := fun hmem =>
        hline (hwhole ▸ List.mem_append_left _ hmem)
      rw [linesOf_line hline]
      exact ⟨dropReturn line, .last hkept, hwhole.symm⟩
  | hmore line rest hline ih =>
      obtain ⟨kept, hcut, hrest⟩ := ih
      rw [linesOf_append hline, lastReturn_append_feed]
      by_cases hreturn : line.getLast? = some '\r'
      · obtain ⟨before, rfl⟩ := List.getLast?_eq_some_iff.1 hreturn
        have hbefore : '\n' ∉ before := fun hmem => hline (List.mem_append_left _ hmem)
        rw [dropReturn_concat]
        refine ⟨_, .more .returnFeed hbefore (fun _ => nofun) hcut, ?_⟩
        simp [LineEnd.text, ← hrest]
      · rw [dropReturn_of_ne hreturn]
        refine ⟨_, .more .feed hline (fun _ _ => hreturn) hcut, ?_⟩
        simp [LineEnd.text, ← hrest]

/-- **Lines lose nothing but their ends, and perhaps one carriage return.** The contents of a source
can be cut into its lines exactly if they do not end with a carriage return. If they do, that is
missing, and nothing else: without it, the contents are cut into the lines, and tightly so. There is
no line feed in any line.

The return at the very end has no line feed behind it, so no line ends there. That the contents
cannot be cut into these lines in another way either is shown by going along a cut that misses the
return (`not_concat_return`). -/
theorem lines_are_cut_iff (path contents : String) :
    let lines := (ofContents path contents).lines.map String.toList
    (Cut false contents.toList lines ↔ contents.toList.getLast? ≠ some '\r') ∧
      (∃ kept, Cut true kept lines ∧ contents.toList = kept ++ lastReturn contents.toList) ∧
      ∀ line ∈ lines, '\n' ∉ line := by
  intro lines
  obtain ⟨kept, hcut, hkept⟩ := exists_cut_linesOf contents.toList
  rw [← toList_lines_ofContents path] at hcut
  refine ⟨⟨fun h hreturn => ?_, fun h => ?_⟩, ⟨kept, hcut, hkept⟩, hcut.notMem⟩
  · rw [lastReturn, if_pos hreturn] at hkept
    rw [hkept] at h
    exact hcut.not_concat_return h
  · rw [lastReturn, if_neg h, List.append_nil] at hkept
    rw [hkept]
    exact hcut.loosen

/-- A carriage return that no line feed follows. -/
theorem return_at_the_end_is_lost :
    (ofContents "main.nut" "local a\r").lines = ["local a"] ∧
      ¬ Cut false "local a\r".toList ["local a".toList] := by
  have hlines : (ofContents "main.nut" "local a\r").lines = ["local a"] := by decide +kernel
  refine ⟨hlines, fun h => ?_⟩
  rcases h.of_cons with ⟨hsame, -⟩ | ⟨_, _, -, hnone⟩
  · exact absurd hsame (by decide)
  · cases hnone

end SourceText

/-! ### Texts that differ in their line ends

One text is respelled as another by putting a carriage return before any of its line feeds, none,
some or all of them. The first text has no carriage return of its own, as two of them in a row would
make the line longer by one.
-/

/-- The second text is the first with a carriage return before some of the line feeds. -/
inductive Respelled : List Char → List Char → Prop
  | nil : Respelled [] []
  | same {t t' : List Char} (c : Char) (h : Respelled t t') : Respelled (c :: t) (c :: t')
  | returned {t t' : List Char} (h : Respelled t t') : Respelled ('\n' :: t) ('\r' :: '\n' :: t')

namespace Respelled

open SourceText (linesOf)

/-- Before none of them. -/
theorem refl : ∀ t, Respelled t t
  | [] => .nil
  | c :: rest => .same c (refl rest)

/-- Behind the beginning of a line, too. -/
theorem linesOf_append_eq {t t' : List Char} (h : Respelled t t') (hplain : '\r' ∉ t) :
    ∀ line, '\n' ∉ line → '\r' ∉ line → linesOf (line ++ t) = linesOf (line ++ t') := by
  induction h with
  | nil => exact fun _ _ _ => rfl
  | @same t t' c _ ih =>
      intro line hfeed hreturn
      obtain ⟨hc, hrest⟩ := List.ne_and_not_mem_of_not_mem_cons hplain
      by_cases hend : c = '\n'
      · subst hend
        rw [SourceText.linesOf_append hfeed, SourceText.linesOf_append hfeed]
        exact congrArg _ (ih hrest [] List.not_mem_nil List.not_mem_nil)
      · rw [List.append_cons, List.append_cons line c t']
        refine ih hrest (line ++ [c]) ?_ ?_
        · simp [hfeed, Ne.symm hend]
        · simp [hreturn, hc]
  | @returned t t' _ ih =>
      intro line hfeed hreturn
      have hrest : '\r' ∉ t := List.not_mem_of_not_mem_cons hplain
      have hlast : line.getLast? ≠ some '\r' := fun hlast => hreturn (List.mem_of_getLast? hlast)
      rw [List.append_cons line '\r', SourceText.linesOf_append hfeed,
        SourceText.linesOf_append (by simpa using hfeed), SourceText.dropReturn_concat,
        SourceText.dropReturn_of_ne hlast]
      exact congrArg _ (ih hrest [] List.not_mem_nil List.not_mem_nil)

theorem linesOf_eq {t t' : List Char} (h : Respelled t t') (hplain : '\r' ∉ t) :
    linesOf t = linesOf t' :=
  h.linesOf_append_eq hplain [] List.not_mem_nil List.not_mem_nil

theorem ofContents_eq {t t' : String} (h : Respelled t.toList t'.toList) (hplain : '\r' ∉ t.toList)
    (path : String) : SourceText.ofContents path t = SourceText.ofContents path t' := by
  rw [SourceText.ofContents_eq, SourceText.ofContents_eq, h.linesOf_eq hplain]

end Respelled

end DebugBridge
