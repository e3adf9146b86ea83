/-
The words of a text, the text that they make with single spaces between them, and what is left of a
text without the blanks around it.

Words end at blanks and nowhere else, so all there is to know of them follows from how a blank
divides a text (`words_append_cons`): they are its longest runs without a blank (`words_eq_iff`).
Put together again they give the text back, but for the blanks: of every run of blanks one space is
left (`intercalate_words`). So a text comes back as it was just when its blanks are single spaces
(`squeezedFrom_eq_self_iff`).

To cut at blanks is to cut at characters that have some property, and a good deal does not depend on
which one it is. That is said of `pieces`, and used for lines and for the parts of an address as
well.
-/
import DebugBridge.Text.Blank

namespace DebugBridge.Text

/-! ### Words

A text is cut into runs, of which some may be empty. The words are those that are not.
-/

theorem pieces_append_cons {p : Char → Bool} {c : Char} (h : p c = true)
    (before after : List Char) :
    pieces p (before ++ c :: after) = pieces p before ++ pieces p after := by
  induction before with
  | nil => exact pieces_cons_of_pos h after
  | cons d before ih =>
      rw [List.cons_append, pieces, pieces, ih]
      split
      · rfl
      · cases hruns : pieces p before with
        | nil => exact absurd hruns (pieces_ne_nil p before)
        | cons run runs => rfl

/-- A text with marked ends is cut into the runs of its parts, and nothing is left. -/
theorem pieces_flatMap {α : Type} {p : Char → Bool} {mark : Char} (h : p mark = true)
    (part : α → List Char) (items : List α) :
    pieces p (items.flatMap fun a => part a ++ [mark]) =
      items.flatMap (fun a => pieces p (part a)) ++ [[]] := by
  induction items with
  | nil => rfl
  | cons a rest ih =>
      rw [List.flatMap_cons, List.append_assoc, List.singleton_append, pieces_append_cons h, ih,
        List.flatMap_cons, List.append_assoc]

/-- Parts with marks between them are cut there, and then each is cut on its own. -/
theorem pieces_intercalate {p : Char → Bool} {mark : Char} (h : p mark = true)
    {parts : List (List Char)} (hne : parts ≠ []) :
    pieces p ([mark].intercalate parts) = parts.flatMap (pieces p) := by
  induction parts with
  | nil => exact absurd rfl hne
  | cons part rest ih =>
      cases rest with
      | nil => rw [List.intercalate_singleton, List.flatMap_singleton]
      | cons next rest =>
          rw [List.intercalate_cons_of_ne_nil (List.cons_ne_nil next rest), List.append_assoc,
            List.singleton_append, pieces_append_cons h, ih (List.cons_ne_nil next rest)]
          rfl

/-- A text that has nowhere to be cut at is one run. -/
theorem pieces_of_no_mark {p : Char → Bool} {cs : List Char} (h : ∀ c ∈ cs, p c = false) :
    pieces p cs = [cs] := by
  induction cs with
  | nil => rfl
  | cons c cs ih =>
      obtain ⟨hc, hcs⟩ := List.forall_mem_cons.1 h
      rw [pieces, if_neg (by simp [hc]), ih hcs]

/-- A blank divides the words. -/
theorem words_append_cons {c : Char} (h : isBlank c = true) (before after : List Char) :
    words (before ++ c :: after) = words before ++ words after := by
  rw [words, pieces_append_cons h, List.filter_append]
  rfl

theorem words_cons_of_blank {c : Char} (h : isBlank c = true) (cs : List Char) :
    words (c :: cs) = words cs :=
  words_append_cons h [] cs

/-- A text with anything but blanks in it has words. -/
theorem words_eq_nil_iff {cs : List Char} : words cs = [] ↔ ∀ c ∈ cs, isBlank c = true := by
  induction cs with
  | nil => simp [words]
  | cons c cs ih =>
      by_cases hc : isBlank c = true
      · rw [words_cons_of_blank hc, ih]
        simp [hc]
      · refine ⟨fun hnone => absurd hnone ?_, fun hall => absurd (hall c List.mem_cons_self) hc⟩
        rw [words, pieces, if_neg hc]
        cases pieces isBlank cs <;> simp

/-- A text without blanks is one word. -/
theorem words_of_no_blank {word : List Char} (hne : word ≠ [])
    (h : ∀ c ∈ word, isBlank c = false) : words word = [word] := by
  rw [words, pieces_of_no_mark h]
  simpa using hne

/-- The longest runs without a blank, one after the other. A word goes on to a blank or to the end,
so it cannot be cut short. -/
inductive IsWords : List Char → List (List Char) → Prop
  | nil {cs : List Char} (h : ∀ c ∈ cs, isBlank c = true) : IsWords cs []
  | cons {blanks word rest : List Char} {ws : List (List Char)}
      (hblanks : ∀ c ∈ blanks, isBlank c = true) (hne : word ≠ [])
      (hword : ∀ c ∈ word, isBlank c = false) (hend : ∀ c ∈ rest.head?, isBlank c = true)
      (hrest : IsWords rest ws) : IsWords (blanks ++ word ++ rest) (word :: ws)

/-- A word may be the first thing there is. -/
theorem IsWords.begin {word rest : List Char} {ws : List (List Char)} (hne : word ≠ [])
    (hword : ∀ c ∈ word, isBlank c = false) (hend : ∀ c ∈ rest.head?, isBlank c = true)
    (hrest : IsWords rest ws) : IsWords (word ++ rest) (word :: ws) :=
  .cons (List.forall_mem_nil _) hne hword hend hrest

theorem words_append_of_blank {blanks : List Char} (h : ∀ c ∈ blanks, isBlank c = true)
    (cs : List Char) : words (blanks ++ cs) = words cs := by
  induction blanks with
  | nil => rfl
  | cons c blanks ih =>
      obtain ⟨hc, hblanks⟩ := List.forall_mem_cons.1 h
      rw [List.cons_append, words_cons_of_blank hc, ih hblanks]

theorem IsWords.words_eq {cs : List Char} {ws : List (List Char)} (h : IsWords cs ws) :
    words cs = ws := by
  induction h with
  | nil h => exact words_eq_nil_iff.2 h
  | @cons blanks word rest ws hblanks hne hword hend _ ih =>
      rw [List.append_assoc, words_append_of_blank hblanks]
      cases rest with
      | nil => rw [List.append_nil, words_of_no_blank hne hword, ← ih, words_eq_nil_iff.2 (by simp)]
      | cons c rest =>
          have hc : isBlank c = true := hend c rfl
          rw [words_append_cons hc, words_of_no_blank hne hword, ← ih, words_cons_of_blank hc]
          rfl

theorem exists_isWords (cs : List Char) : ∃ ws, IsWords cs ws := by
  induction cs with
  | nil => exact ⟨[], .nil (by simp)⟩
  | cons c cs ih =>
      obtain ⟨ws, h⟩ := ih
      by_cases hc : isBlank c = true
      · cases h with
        | nil h => exact ⟨[], .nil (List.forall_mem_cons.2 ⟨hc, h⟩)⟩
        | cons hblanks hne hword hend hrest =>
            exact ⟨_, .cons (List.forall_mem_cons.2 ⟨hc, hblanks⟩) hne hword hend hrest⟩
      · have hplain : isBlank c = false := by simpa using hc
        have hbegins : (∀ d ∈ cs.head?, isBlank d = true) → ∃ ws, IsWords (c :: cs) ws :=
          fun hend => ⟨_, .begin (List.cons_ne_nil c []) (by simpa) hend h⟩
        cases h with
        | nil h => exact hbegins fun d hd => h d (List.mem_of_mem_head? hd)
        | @cons blanks word rest ws hblanks hne hword hend hrest =>
            cases blanks with
            | nil =>
                exact ⟨_, .begin (List.cons_ne_nil c word)
                  (List.forall_mem_cons.2 ⟨hplain, hword⟩) hend hrest⟩
            | cons d blanks => exact hbegins fun e he => hblanks e (by simp_all)

/-- The words of a text are what they are said to be. -/
theorem words_eq_iff {cs : List Char} {ws : List (List Char)} : words cs = ws ↔ IsWords cs ws := by
  refine ⟨?_, IsWords.words_eq⟩
  rintro rfl
  obtain ⟨ws, h⟩ := exists_isWords cs
  rwa [h.words_eq]

/-! ### One space for a run of blanks

Squeezing goes through a text once, with a flag for whether the last character was a blank. That
makes it possible to speak of a text from some place on, which every induction here needs.
-/

/-- A text with one space for every run of blanks. If a blank stands before it, the blanks at its
beginning belong to that run. -/
def squeezedFrom (behindBlank : Bool) : List Char → List Char
  | [] => []
  | c :: cs =>
    if isBlank c then
      if behindBlank then squeezedFrom true cs else ' ' :: squeezedFrom true cs
    else c :: squeezedFrom false cs

/-- A text with one space for every run of blanks. -/
def squeezed (text : String) : String := String.ofList (squeezedFrom false text.toList)

/-- The text does not end with a blank. -/
def EndsPlain (cs : List Char) : Prop := ∀ c ∈ cs.getLast?, isBlank c = false

instance (cs : List Char) : Decidable (EndsPlain cs) :=
  decidable_of_iff (cs.getLast?.all (fun c => !isBlank c) = true) <| by
    cases h : cs.getLast? <;> simp [EndsPlain, h]

theorem EndsPlain.tail {c : Char} {cs : List Char} (h : EndsPlain (c :: cs)) : EndsPlain cs := by
  cases cs with
  | nil => simp [EndsPlain]
  | cons d cs => exact h

theorem EndsPlain.append {plain : List Char} (hne : plain ≠ [])
    (h : ∀ c ∈ plain, isBlank c = false) (cs : List Char) : EndsPlain (cs ++ plain) := by
  intro c hc
  rw [List.getLast?_append, List.getLast?_eq_some_getLast hne] at hc
  obtain rfl := Option.some.inj hc
  exact h _ (List.getLast_mem hne)

/-- Behind a blank such a text goes on with a word. -/
theorem EndsPlain.words_ne_nil {c : Char} {cs : List Char} (h : EndsPlain (c :: cs))
    (hc : isBlank c = true) : words cs ≠ [] := by
  rw [Ne, words_eq_nil_iff]
  intro hblank
  have hall : ∀ d ∈ c :: cs, isBlank d = true := List.forall_mem_cons.2 ⟨hc, hblank⟩
  have hlast := h _ (List.getLast?_eq_some_getLast (List.cons_ne_nil c cs))
  rw [hall _ (List.getLast_mem _)] at hlast
  cases hlast

/-- The words of a text that does not end with a blank, with single spaces between them. The second
part is about a text of which the beginning of a word has been read already. -/
theorem intercalate_words_append {cs : List Char} (h : EndsPlain cs) :
    [' '].intercalate (words cs) = squeezedFrom true cs ∧
      ∀ word ≠ [], (∀ c ∈ word, isBlank c = false) →
        [' '].intercalate (words (word ++ cs)) = word ++ squeezedFrom false cs := by
  induction cs with
  | nil =>
      refine ⟨rfl, fun word hne hword => ?_⟩
      rw [List.append_nil, words_of_no_blank hne hword]
      rw [List.intercalate_singleton, squeezedFrom, List.append_nil]
  | cons c cs ih =>
      obtain ⟨hwords, hgoing⟩ := ih h.tail
      by_cases hc : isBlank c = true
      · refine ⟨?_, fun word hne hword => ?_⟩
        · rw [words_cons_of_blank hc, hwords, squeezedFrom, if_pos hc, if_pos rfl]
        · rw [words_append_cons hc, words_of_no_blank hne hword, List.singleton_append,
            List.intercalate_cons_of_ne_nil (h.words_ne_nil hc), hwords]
          simp [squeezedFrom, hc]
      · have hplain : isBlank c = false := by simpa using hc
        refine ⟨?_, fun word hne hword => ?_⟩
        · have hfirst := hgoing [c] (by simp) (by simpa using hplain)
          simpa [squeezedFrom, hplain] using hfirst
        · have hmore := hgoing (word ++ [c]) (by simp)
            (List.forall_mem_append.2 ⟨hword, by simpa using hplain⟩)
          simpa [squeezedFrom, hplain] using hmore

theorem intercalate_words {cs : List Char} (h : EndsPlain cs) :
    [' '].intercalate (words cs) = squeezedFrom true cs :=
  (intercalate_words_append h).1

theorem squeezedFrom_append {plain : List Char} (h : ∀ c ∈ plain, isBlank c = false)
    (cs : List Char) :
    ∀ behindBlank, squeezedFrom behindBlank (cs ++ plain) =
      squeezedFrom behindBlank cs ++ plain := by
  induction cs with
  | nil =>
      induction plain with
      | nil => exact fun _ => rfl
      | cons c plain ih =>
          obtain ⟨hc, hplain⟩ := List.forall_mem_cons.1 h
          intro behindBlank
          simpa [squeezedFrom, hc] using ih hplain false
  | cons c cs ih =>
      intro behindBlank
      cases behindBlank <;> by_cases hc : isBlank c = true <;> simp [squeezedFrom, hc, ih]

/-- It does not matter whether a blank stands before a text that begins with none. -/
theorem squeezedFrom_of_head {cs : List Char} (h : ∀ c ∈ cs.head?, isBlank c = false)
    (behindBlank : Bool) : squeezedFrom behindBlank cs = squeezedFrom false cs := by
  cases cs with
  | nil => rfl
  | cons c cs => simp [squeezedFrom, h c rfl]

/-- A text that begins with something else than a blank keeps its beginning. -/
theorem exists_squeezedFrom {cs : List Char} (hne : cs ≠ [])
    (h : ∀ c ∈ cs.head?, isBlank c = false) :
    ∃ first rest, squeezedFrom false cs = first :: rest := by
  obtain ⟨first, rest, rfl⟩ := List.exists_cons_of_ne_nil hne
  exact ⟨first, squeezedFrom false rest, by simp [squeezedFrom, h first rfl]⟩

theorem length_squeezedFrom_le (cs : List Char) :
    ∀ behindBlank, (squeezedFrom behindBlank cs).length ≤ cs.length := by
  induction cs with
  | nil => exact fun _ => Nat.le_refl _
  | cons c cs ih =>
      intro behindBlank
      have htrue := ih true
      have hfalse := ih false
      unfold squeezedFrom
      split
      · split <;> simp only [List.length_cons] <;> omega
      · simp only [List.length_cons]
        omega

/-- The only blanks of the text are spaces, and no two of them stand side by side. -/
structure SingleSpaced (cs : List Char) : Prop where
  spaces : ∀ c ∈ cs, isBlank c = true → c = ' '
  apart : ¬[' ', ' '] <:+: cs

theorem singleSpaced_cons_of_plain {c : Char} (hc : isBlank c = false) {cs : List Char} :
    SingleSpaced (c :: cs) ↔ SingleSpaced cs := by
  have hspace : c ≠ ' ' := by
    rintro rfl
    exact absurd hc (by decide)
  refine ⟨fun h => ⟨?_, ?_⟩, fun h => ⟨?_, ?_⟩⟩
  · exact fun d hd => h.spaces d (List.mem_cons_of_mem _ hd)
  · exact fun hinside => h.apart (List.infix_cons hinside)
  · exact List.forall_mem_cons.2 ⟨fun hblank => absurd hblank (by simp [hc]), h.spaces⟩
  · rw [List.infix_cons_iff]
    rintro (hstart | hinside)
    · exact hspace (List.cons_prefix_cons.1 hstart).1.symm
    · exact h.apart hinside

/-- A space may stand before a text of single spaces that begins with something else. -/
theorem singleSpaced_cons_of_blank {c : Char} (hc : isBlank c = true) {cs : List Char} :
    SingleSpaced (c :: cs) ↔
      c = ' ' ∧ (∀ d ∈ cs.head?, isBlank d = false) ∧ SingleSpaced cs := by
  constructor
  · intro h
    obtain rfl := h.spaces c List.mem_cons_self hc
    refine ⟨rfl, fun d hd => ?_, fun d hd => h.spaces d (List.mem_cons_of_mem _ hd),
      fun hinside => h.apart (List.infix_cons hinside)⟩
    obtain ⟨rest, rfl⟩ := List.head?_eq_some_iff.1 hd
    refine Bool.eq_false_iff.2 fun hblank => h.apart ?_
    obtain rfl := h.spaces d (by simp) hblank
    exact (List.prefix_append [' ', ' '] rest).isInfix
  · rintro ⟨rfl, hhead, h⟩
    refine ⟨List.forall_mem_cons.2 ⟨fun _ => rfl, h.spaces⟩, ?_⟩
    rw [List.infix_cons_iff]
    rintro (hstart | hinside)
    · cases cs with
      | nil => simp at hstart
      | cons d cs =>
          obtain ⟨-, hrest⟩ := List.cons_prefix_cons.1 hstart
          obtain ⟨rfl, -⟩ := List.cons_prefix_cons.1 hrest
          exact absurd (hhead ' ' rfl) (by decide)
    · exact h.apart hinside

/-- Only a text whose blanks are single spaces stays as it is. The induction needs both parts, since
behind a blank a text that begins with another one is changed. -/
theorem squeezedFrom_eq_self_iff (cs : List Char) :
    (squeezedFrom false cs = cs ↔ SingleSpaced cs) ∧
      (squeezedFrom true cs = cs ↔ (∀ c ∈ cs.head?, isBlank c = false) ∧ SingleSpaced cs) := by
  induction cs with
  | nil =>
      have hnil : SingleSpaced [] := ⟨by simp, by simp⟩
      simp [squeezedFrom, hnil]
  | cons c cs ih =>
      obtain ⟨hfalse, htrue⟩ := ih
      by_cases hc : isBlank c = true
      · refine ⟨?_, ?_⟩
        · rw [singleSpaced_cons_of_blank hc, squeezedFrom, if_pos hc, if_neg (by decide),
            List.cons.injEq, htrue, eq_comm]
        · -- Something is lost at the beginning, so the two cannot be equal.
          refine iff_of_false (fun heq => ?_) (fun h => ?_)
          · have hlength := length_squeezedFrom_le cs true
            rw [squeezedFrom, if_pos hc, if_pos rfl] at heq
            rw [heq, List.length_cons] at hlength
            omega
          · exact absurd (h.1 c rfl) (by simp [hc])
      · have hplain : isBlank c = false := by simpa using hc
        have hkeep : ∀ behindBlank, squeezedFrom behindBlank (c :: cs) = c :: cs ↔
            SingleSpaced (c :: cs) := by
          intro behindBlank
          rw [singleSpaced_cons_of_plain hplain, squeezedFrom, if_neg hc, List.cons.injEq, hfalse]
          simp
        refine ⟨hkeep false, (hkeep true).trans ?_⟩
        simp [hplain]

/-! ### Trimming

What is left after trimming is told by three conditions, and there is only one such text. So the
order in which the two ends are trimmed plays no part.
-/

/-- `core` is what is left of `cs` without the blanks around it. With the conditions on its ends,
there is only one. -/
structure IsTrimmed (cs core : List Char) : Prop where
  around : ∃ before after, cs = before ++ core ++ after ∧
    (∀ c ∈ before, isBlank c = true) ∧ ∀ c ∈ after, isBlank c = true
  first : ∀ c ∈ core.head?, isBlank c = false
  last : EndsPlain core

theorem dropWhile_isBlank_append {before cs : List Char} (hbefore : ∀ c ∈ before, isBlank c = true)
    (hfirst : ∀ c ∈ cs.head?, isBlank c = false) : (before ++ cs).dropWhile isBlank = cs := by
  rw [List.dropWhile_append_of_pos hbefore]
  cases cs with
  | nil => rfl
  | cons c cs => exact List.dropWhile_cons_of_neg (by simp [hfirst c rfl])

theorem isBlank_of_mem_head?_dropWhile (cs : List Char) :
    ∀ c ∈ (cs.dropWhile isBlank).head?, isBlank c = false := by
  intro c hc
  have h := List.head?_dropWhile_not isBlank cs
  rw [hc] at h
  simpa using h

theorem isTrimmed_trim (cs : List Char) : IsTrimmed cs (trim cs) := by
  let rest := cs.dropWhile isBlank
  let after := (rest.reverse.takeWhile isBlank).reverse
  have hrest : rest = trim cs ++ after := by
    rw [trim, ← List.reverse_append, List.takeWhile_append_dropWhile, List.reverse_reverse]
  refine ⟨⟨cs.takeWhile isBlank, after, ?_, ?_, ?_⟩, ?_, ?_⟩
  · rw [List.append_assoc, ← hrest, List.takeWhile_append_dropWhile]
  · exact fun c hc => List.all_eq_true.1 List.all_takeWhile c hc
  · exact fun c hc => List.all_eq_true.1 List.all_takeWhile c (List.mem_reverse.1 hc)
  · intro c hc
    refine isBlank_of_mem_head?_dropWhile cs c ?_
    show c ∈ rest.head?
    rw [hrest, List.head?_append, Option.mem_def.1 hc]
    rfl
  · intro c hc
    rw [trim, List.getLast?_reverse] at hc
    exact isBlank_of_mem_head?_dropWhile _ c hc

theorem trim_eq_iff {cs core : List Char} : trim cs = core ↔ IsTrimmed cs core := by
  constructor
  · rintro rfl
    exact isTrimmed_trim cs
  · rintro ⟨⟨before, after, rfl, hbefore, hafter⟩, hfirst, hlast⟩
    rw [trim, List.append_assoc]
    cases core with
    | nil =>
        have hblank := List.forall_mem_append.2 ⟨hbefore, hafter⟩
        have hnothing : (before ++ after).dropWhile isBlank = [] := by
          simpa using @dropWhile_isBlank_append (before ++ after) [] hblank (by simp)
        rw [List.nil_append, hnothing]
        rfl
    | cons c core =>
        have hback : ∀ d ∈ (c :: core).reverse.head?, isBlank d = false := by
          rw [List.head?_reverse]
          exact hlast
        rw [dropWhile_isBlank_append hbefore (by simpa using hfirst), List.reverse_append,
          dropWhile_isBlank_append (fun d hd => hafter d (List.mem_reverse.1 hd)) hback,
          List.reverse_reverse]

end DebugBridge.Text
