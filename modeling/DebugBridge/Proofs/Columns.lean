/-
The columns of a line.

A column is where a run of text begins, and only spaces are not text. The line is read once from
left to right, with a flag for whether a column may begin. What carries the proofs is that the flag
says whether the character before was a space (`columnsFrom_cons`), so the start of the line counts
as if a space stood before it. What a line says behind a space has nothing to do with what is before
it (`columnsFrom_append`).

So wherever it matters what the flag stands for, it is written as a comparison of the character
before with a space. The equation for one character then has the same shape on both sides, and an
induction on the line goes on with the next character as the one before.
-/
import DebugBridge.Breakpoint
import Mathlib.Data.List.Forall2
import Mathlib.Order.Nat

namespace DebugBridge

/-- There is a character at this place, and it is not a space. -/
def HasText (cs : List Char) (i : Nat) : Prop :=
  i < cs.length ∧ cs[i]? ≠ some ' '

/-- There is text at all places from `i` on up to `j`, but none right before `i` and none at `j`. No
run can be made longer on either side, so there is one for each place of text (`stop_unique`,
`start_unique`). -/
structure IsTextRun (cs : List Char) (i j : Nat) : Prop where
  nonempty : i < j
  text : ∀ k, i ≤ k → k < j → HasText cs k
  start : ∀ k, k + 1 = i → ¬ HasText cs k
  stop : ¬ HasText cs j

theorem hasText_cons_succ {c : Char} {cs : List Char} {i : Nat} :
    HasText (c :: cs) (i + 1) ↔ HasText cs i := by
  simp [HasText]

/-! ### Character by character

The inductions take the line from the left, which moves every place by one. Columns that are counted
from the beginning and columns that are counted from further on differ by a constant
(`columnsFrom_add`), so it is enough to know those that are counted from zero.
-/

section

variable {before : Char} {cs : List Char}

/-- The flag says whether the character before is a space. -/
theorem columnsFrom_cons (i : Nat) (before c : Char) (cs : List Char) :
    columnsFrom i (before = ' ') (c :: cs) =
      (if c ≠ ' ' ∧ before = ' ' then [i] else []) ++ columnsFrom (i + 1) (c = ' ') cs := by
  rw [columnsFrom]
  by_cases hc : c = ' ' <;> by_cases hbefore : before = ' ' <;> simp [hc, hbefore]

/-- Columns are counted from wherever the text begins. -/
theorem columnsFrom_add (d : Nat) (cs : List Char) :
    ∀ i fresh, columnsFrom (i + d) fresh cs = (columnsFrom i fresh cs).map (· + d) := by
  induction cs with
  | nil => exact fun _ _ => rfl
  | cons c cs ih =>
      intro i fresh
      have hnext := ih (i + 1)
      rw [Nat.add_right_comm] at hnext
      by_cases hc : c = ' ' <;> cases fresh <;> simp [columnsFrom, hc, hnext]

/-- The columns behind the first character are those of the rest, one place further on. -/
theorem columnsFrom_zero_cons (before c : Char) (cs : List Char) :
    columnsFrom 0 (before = ' ') (c :: cs) =
      (if c ≠ ' ' ∧ before = ' ' then [0] else []) ++
        (columnsFrom 0 (c = ' ') cs).map (· + 1) := by
  rw [columnsFrom_cons, columnsFrom_add]

/-- With the character before in front of the text, each place has the one before it at its own
number. -/
theorem mem_columnsFrom_iff {i : Nat} :
    i ∈ columnsFrom 0 (before = ' ') cs ↔ HasText cs i ∧ (before :: cs)[i]? = some ' ' := by
  induction cs generalizing before i with
  | nil => simp [columnsFrom, HasText]
  | cons c cs ih =>
      rw [columnsFrom_zero_cons]
      cases i with
      | zero => by_cases h : c ≠ ' ' ∧ before = ' ' <;> simp [h, HasText]
      | succ i =>
          rw [hasText_cons_succ, List.getElem?_cons_succ, ← ih]
          split <;> simp

theorem pairwise_columnsFrom : (columnsFrom 0 (before = ' ') cs).Pairwise (· < ·) := by
  induction cs generalizing before with
  | nil => exact .nil
  | cons c cs ih =>
      rw [columnsFrom_zero_cons, List.pairwise_append]
      refine ⟨by split <;> simp, ?_, ?_⟩
      · exact ih.map _ fun i j h => Nat.add_lt_add_right h 1
      · intro i hi j hj
        obtain ⟨k, -, rfl⟩ := List.mem_map.1 hj
        split at hi
        · rw [List.mem_singleton.1 hi]
          exact Nat.succ_pos k
        · cases hi

/-- Behind a space the columns begin anew. -/
theorem columnsFrom_append (more : List Char) (cs : List Char) :
    ∀ (i : Nat) (before : Char),
      columnsFrom i (before = ' ') (cs ++ ' ' :: more) =
        columnsFrom i (before = ' ') cs ++ columnsFrom (i + (cs.length + 1)) true more := by
  induction cs with
  | nil =>
      intro i before
      rw [List.nil_append, columnsFrom_cons, if_neg (by simp)]
      rfl
  | cons c cs ih =>
      intro i before
      rw [List.cons_append, columnsFrom_cons, ih, columnsFrom_cons, List.append_assoc,
        List.length_cons, Nat.add_assoc i 1, Nat.add_comm 1]

/-- Nothing counts but where the spaces are. -/
theorem columnsFrom_congr {cs ds : List Char}
    (h : List.Forall₂ (fun c d => c = ' ' ↔ d = ' ') cs ds) :
    ∀ i fresh, columnsFrom i fresh cs = columnsFrom i fresh ds := by
  induction h with
  | nil => exact fun _ _ => rfl
  | cons hspace _ ih =>
      intro i fresh
      simp only [columnsFrom, hspace, ih]

end

/-! ### Runs

A run is as long as it can be: there is no text right before it and none at its end. That makes it
one run for each place of text, so columns and runs can be counted against each other.
-/

/-- There is no text right before a place if it is the first, or if a space is there. -/
theorem noText_before_iff {cs : List Char} {i : Nat} (htext : HasText cs i) :
    (∀ k, k + 1 = i → ¬ HasText cs k) ↔ i = 0 ∨ cs[i - 1]? = some ' ' := by
  cases i with
  | zero => simp
  | succ k =>
      have hk : k < cs.length := Nat.lt_of_succ_lt htext.1
      simp [HasText, hk]

namespace IsTextRun

variable {cs : List Char} {i j : Nat}

/-- A run has one end. -/
theorem stop_unique {j' : Nat} (h : IsTextRun cs i j) (h' : IsTextRun cs i j') : j = j' := by
  rcases Nat.lt_trichotomy j j' with hlt | heq | hlt
  · exact absurd (h'.text j h.nonempty.le hlt) h.stop
  · exact heq
  · exact absurd (h.text j' h'.nonempty.le hlt) h'.stop

/-- No other run begins in a run. -/
theorem start_unique {i' j' : Nat} (h : IsTextRun cs i j) (h' : IsTextRun cs i' j') (hle : i ≤ i')
    (hlt : i' < j) : i' = i := by
  rcases Nat.eq_or_lt_of_le hle with heq | hinside
  · exact heq.symm
  · obtain ⟨k, rfl⟩ : ∃ k, i' = k + 1 := Nat.exists_eq_succ_of_ne_zero (by omega)
    exact absurd (h.text k (by omega) (by omega)) (h'.start k rfl)

/-- Text goes on to the next space, or to the end. -/
theorem exists_of_hasText (htext : HasText cs i) (hstart : ∀ k, k + 1 = i → ¬ HasText cs k) :
    ∃ j, IsTextRun cs i j := by
  classical
  -- The run ends at the first place from `i` on that has no text. There is one, as behind the last
  -- character no place has any.
  have hend : ∃ j, i ≤ j ∧ ¬ HasText cs j :=
    ⟨cs.length, htext.1.le, fun h => Nat.lt_irrefl _ h.1⟩
  obtain ⟨hle, hstop⟩ := Nat.find_spec hend
  refine ⟨Nat.find hend, ?_, fun k hk hlt => ?_, hstart, hstop⟩
  · exact Nat.lt_of_le_of_ne hle fun heq => hstop (heq ▸ htext)
  · by_contra hnone
    exact Nat.find_min hend hlt ⟨hk, hnone⟩

end IsTextRun

/-! ### Lines

A line has nothing before it, which is taken for a space. With that, what is said above of any text
and the character before it holds of lines.
-/

/-- The start of a line is like a place behind a space. -/
theorem breakColumns_eq (line : String) :
    breakColumns line = columnsFrom 0 (' ' = ' ') line.toList := rfl

theorem mem_breakColumns_iff {line : String} {i : Nat} :
    i ∈ breakColumns line ↔
      HasText line.toList i ∧ (i = 0 ∨ line.toList[i - 1]? = some ' ') := by
  rw [breakColumns_eq, mem_columnsFrom_iff]
  cases i <;> simp

/-- Where a run begins there is a column, and nowhere else. -/
theorem mem_breakColumns_iff_isTextRun {line : String} {i : Nat} :
    i ∈ breakColumns line ↔ ∃ j, IsTextRun line.toList i j := by
  rw [mem_breakColumns_iff]
  constructor
  · rintro ⟨htext, hstart⟩
    exact IsTextRun.exists_of_hasText htext ((noText_before_iff htext).2 hstart)
  · rintro ⟨j, h⟩
    have htext := h.text i (Nat.le_refl i) h.nonempty
    exact ⟨htext, (noText_before_iff htext).1 h.start⟩

theorem pairwise_breakColumns (line : String) : (breakColumns line).Pairwise (· < ·) := by
  rw [breakColumns_eq]
  exact pairwise_columnsFrom

/-- What stands behind a space has its own columns, counted from there. -/
theorem breakColumns_append (line rest : String) :
    breakColumns (line ++ " " ++ rest) =
      breakColumns line ++ (breakColumns rest).map (· + (line.length + 1)) := by
  have htext : (line ++ " " ++ rest).toList = line.toList ++ ' ' :: rest.toList := by
    simp [String.toList_append]
  rw [breakColumns_eq, htext, columnsFrom_append, columnsFrom_add, String.length_toList]
  rfl

/-- **Columns are the beginnings of runs.** The columns of a line go up. They are the places of the
characters that are not a space and have a space, or nothing, before them. So there is one in each
longest run without a space, and each belongs to one such run. Only where the spaces are counts:
tabs and other blanks are text. The columns of two lines with a space between them are those of the
first and, further on by its length and the space, those of the second.

One lemma says at which places there is a column (`mem_breakColumns_iff`), and runs come in only
after that. The law for two lines is the one for a text with a space in it, since the start of a
line counts as if a space stood before it. -/
theorem columns_begin_runs (line : String) :
    (breakColumns line).Pairwise (· < ·) ∧
      (∀ i, i ∈ breakColumns line ↔
        (i < line.length ∧ line.toList[i]? ≠ some ' ') ∧
          (i = 0 ∨ line.toList[i - 1]? = some ' ')) ∧
      (∀ i j, IsTextRun line.toList i j →
        ∃! column, column ∈ breakColumns line ∧ i ≤ column ∧ column < j) ∧
      (∀ column ∈ breakColumns line, ∃! j, IsTextRun line.toList column j) ∧
      (∀ other : String, List.Forall₂ (fun c d => c = ' ' ↔ d = ' ') line.toList other.toList →
        breakColumns other = breakColumns line) ∧
      ∀ rest : String, breakColumns (line ++ " " ++ rest) =
        breakColumns line ++ (breakColumns rest).map (· + (line.length + 1)) := by
  refine ⟨pairwise_breakColumns line, fun _ => mem_breakColumns_iff, fun i j hrun => ?_, ?_,
    fun other hsame => (columnsFrom_congr hsame 0 true).symm, breakColumns_append line⟩
  · refine ⟨i, ⟨mem_breakColumns_iff_isTextRun.2 ⟨j, hrun⟩, Nat.le_refl i, hrun.nonempty⟩, ?_⟩
    rintro column ⟨hcolumn, hle, hlt⟩
    obtain ⟨_, hother⟩ := mem_breakColumns_iff_isTextRun.1 hcolumn
    exact hrun.start_unique hother hle hlt
  · intro column hcolumn
    obtain ⟨j, hrun⟩ := mem_breakColumns_iff_isTextRun.1 hcolumn
    exact ⟨j, hrun, fun _ hother => hother.stop_unique hrun⟩

/-- A tab is text, and a character counts once however many bytes it has. -/
example : breakColumns "  é\tb  \tfoo " = [2, 7] := by decide +kernel

end DebugBridge
