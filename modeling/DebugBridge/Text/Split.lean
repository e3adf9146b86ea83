/-
Cutting a text at characters.

`pieces` cuts at every character of a kind and loses nothing but those characters, `splitAtLast`
cuts once, at the last place a character stands.
-/

namespace DebugBridge.Text

/-- The runs of `cs` between the characters that satisfy `p`. There is one more run than there are
such characters, so two of them side by side have an empty run between them. -/
def pieces (p : Char → Bool) : List Char → List (List Char)
  | [] => [[]]
  | c :: cs =>
    if p c then [] :: pieces p cs
    else
      match pieces p cs with
      | [] => [[c]]
      | run :: runs => (c :: run) :: runs

@[simp] theorem pieces_nil (p : Char → Bool) : pieces p [] = [[]] := rfl

theorem pieces_ne_nil (p : Char → Bool) (cs : List Char) : pieces p cs ≠ [] := by
  induction cs with
  | nil => simp
  | cons c cs ih =>
    rw [pieces]
    split
    · simp
    · split <;> simp

theorem pieces_cons_of_pos {p : Char → Bool} {c : Char} (h : p c = true) (cs : List Char) :
    pieces p (c :: cs) = [] :: pieces p cs := by
  rw [pieces, if_pos h]

/-- There is one run more than there are places where the text is cut. -/
theorem length_pieces (p : Char → Bool) (cs : List Char) :
    (pieces p cs).length = cs.countP p + 1 := by
  induction cs with
  | nil => rfl
  | cons c cs ih =>
    by_cases hc : p c = true
    · rw [pieces_cons_of_pos hc, List.length_cons, ih, List.countP_cons_of_pos hc]
    · rw [pieces, if_neg hc, List.countP_cons_of_neg hc, ← ih]
      cases hruns : pieces p cs with
      | nil => exact absurd hruns (pieces_ne_nil p cs)
      | cons run runs => rfl

/-- The text before and after the last `mark`; nothing when `mark` does not occur. -/
def splitAtLast (mark : Char) : List Char → Option (List Char × List Char)
  | [] => none
  | c :: cs =>
    match splitAtLast mark cs with
    | some (before, after) => some (c :: before, after)
    | none => if c = mark then some ([], cs) else none

/-- The two parts with the mark between them are the whole text. -/
theorem eq_append_of_splitAtLast {mark : Char} {cs before after : List Char}
    (h : splitAtLast mark cs = some (before, after)) : cs = before ++ mark :: after := by
  induction cs generalizing before after with
  | nil => simp [splitAtLast] at h
  | cons c cs ih =>
    rw [splitAtLast] at h
    split at h
    · next b a hrest =>
      simp only [Option.some.injEq, Prod.mk.injEq] at h
      obtain ⟨rfl, rfl⟩ := h
      simp [← ih hrest]
    · split at h
      · next hc => simp_all
      · simp at h

theorem splitAtLast_eq_none_iff {mark : Char} {cs : List Char} :
    splitAtLast mark cs = none ↔ mark ∉ cs := by
  induction cs with
  | nil => simp [splitAtLast]
  | cons c cs ih =>
    rw [splitAtLast]
    split
    · next b a hrest =>
      have : mark ∈ cs := by rw [eq_append_of_splitAtLast hrest]; simp
      simp [this]
    · next hnone =>
      have := ih.1 hnone
      by_cases hc : c = mark
      · simp [hc]
      · simp [hc, this, Ne.symm hc]

/-- There is no mark behind the last one. -/
theorem not_mem_of_splitAtLast {mark : Char} {cs before after : List Char}
    (h : splitAtLast mark cs = some (before, after)) : mark ∉ after := by
  induction cs generalizing before after with
  | nil => simp [splitAtLast] at h
  | cons c cs ih =>
    rw [splitAtLast] at h
    split at h
    · next b a hrest =>
      simp only [Option.some.injEq, Prod.mk.injEq] at h
      obtain ⟨-, rfl⟩ := h
      exact ih hrest
    · next hnone =>
      split at h
      · simp only [Option.some.injEq, Prod.mk.injEq] at h
        obtain ⟨-, rfl⟩ := h
        exact splitAtLast_eq_none_iff.1 hnone
      · simp at h

/-- A mark behind which there is no other is where the text is cut. -/
theorem splitAtLast_append {mark : Char} {after : List Char} (h : mark ∉ after)
    (before : List Char) :
    splitAtLast mark (before ++ mark :: after) = some (before, after) := by
  induction before with
  | nil =>
    have hnone : splitAtLast mark after = none := splitAtLast_eq_none_iff.2 h
    rw [List.nil_append, splitAtLast, hnone]
    simp
  | cons c before ih =>
    rw [List.cons_append, splitAtLast, ih]

end DebugBridge.Text
