/-
How the child of a value is written.

A member is put behind its value with a comma, but directly behind the scope when the value is the
whole scope. The code goes by the number of members in the path. Whoever only sees the text would go
by its last character, since a scope ends with a colon; but a name may do so too, and then the comma
is there all the same (`child_of_colon`).

To say where the two differ, it has to be known which texts end with a colon. A text ends as the
last thing in it that is not empty, which may be the scope, when nothing but empty names follows and
no comma with them (`endsWithColon_text`).
-/
import DebugBridge.Variable
import Mathlib.Data.List.Basic

namespace DebugBridge

namespace VariableHandle

/-- The scope of a value in writing. -/
def scopeText (h : VariableHandle) : String :=
  match h.scope with
  | .locals frame => "local:" ++ frame.toNat.repr ++ ":"
  | .globals => "global:"

theorem text_eq (h : VariableHandle) : h.text = h.scopeText ++ h.memberPath := by
  obtain ⟨scope, path⟩ := h
  cases scope <;> rfl

/-- Whether a text ends with the mark that ends a scope. -/
def EndsWithColon (text : String) : Prop := text.toList.getLast? = some ':'

instance (text : String) : Decidable (EndsWithColon text) :=
  inferInstanceAs (Decidable (_ = _))

theorem endsWithColon_append {back : String} (h : back ≠ "") (front : String) :
    EndsWithColon (front ++ back) ↔ EndsWithColon back := by
  have hne : back.toList ≠ [] := by simpa using h
  rw [EndsWithColon, EndsWithColon, String.toList_append, List.getLast?_append,
    List.getLast?_eq_some_getLast hne, Option.some_or]

theorem endsWithColon_scopeText (h : VariableHandle) : EndsWithColon h.scopeText := by
  obtain ⟨scope, path⟩ := h
  cases scope with
  | locals frame => exact (endsWithColon_append (by decide) _).2 (by decide)
  | globals => exact (by decide +kernel : EndsWithColon "global:")

theorem memberPath_child (h : VariableHandle) (name : String) :
    (h.child name).memberPath = h.memberPath ++ (if h.path = [] then "" else ",") ++ name := by
  obtain ⟨scope, path⟩ := h
  by_cases hpath : path = []
  · subst hpath
    rfl
  · have hjoined := String.intercalate_append_of_ne_nil (s := ",") hpath (List.cons_ne_nil name [])
    rw [if_neg hpath]
    simpa [memberPath, child] using hjoined

/-- A member is put behind a comma, unless it is the first. The text of the value is left as it is,
so the texts of all values above are beginnings of this one. -/
theorem text_child (h : VariableHandle) (name : String) :
    (h.child name).text = h.text ++ (if h.path = [] then "" else ",") ++ name := by
  have hscope : (h.child name).scopeText = h.scopeText := rfl
  rw [text_eq, text_eq, memberPath_child, hscope, String.append_assoc, String.append_assoc,
    String.append_assoc]

/-- The text of a scope alone ends with a colon, that of a child where its name does. -/
theorem endsWithColon_text_child (h : VariableHandle) (name : String) :
    EndsWithColon (h.child name).text ↔ name = "" ∧ h.path = [] ∨ EndsWithColon name := by
  rw [text_child]
  by_cases hname : name = ""
  · have hnot : ¬EndsWithColon name := by rw [hname]; decide
    rw [or_iff_left hnot, hname, String.append_empty, eq_self, true_and]
    by_cases hpath : h.path = []
    · have hnothing : h.memberPath = "" := by rw [memberPath, hpath]; rfl
      rw [if_pos hpath, String.append_empty, text_eq, hnothing, String.append_empty]
      exact iff_of_true h.endsWithColon_scopeText hpath
    · rw [if_neg hpath, endsWithColon_append (by decide)]
      exact iff_of_false (by decide) hpath
  · rw [endsWithColon_append hname, or_iff_right fun h => hname h.1]

/-- The text ends with a colon where nothing follows the scope, and where the last name does. -/
theorem endsWithColon_text (h : VariableHandle) :
    EndsWithColon h.text ↔
      h.path = [] ∨ h.path = [""] ∨ ∃ last, h.path.getLast? = some last ∧ EndsWithColon last := by
  obtain ⟨scope, path⟩ := h
  rcases List.eq_nil_or_concat path with rfl | ⟨before, last, rfl⟩
  · have hnothing : memberPath ⟨scope, []⟩ = "" := rfl
    rw [text_eq, hnothing, String.append_empty]
    exact iff_of_true (endsWithColon_scopeText _) (.inl rfl)
  · rw [List.concat_eq_append]
    have hchild := endsWithColon_text_child ⟨scope, before⟩ last
    rw [child] at hchild
    rw [hchild, List.getLast?_concat]
    cases before <;> simp

/-- **What stands between a value and its member.** It is a comma unless the path of the value is
empty. The last character of the text says the same except for the paths of a single member without
a name and those whose last name ends with a colon: there the text ends like a scope, and a comma
follows.

Which texts end with a colon is therefore part of the statement. Where nothing follows the scope the
text ends with the colon of the scope itself, and otherwise the last name decides. -/
theorem child_is_written (h : VariableHandle) (name : String) :
    (h.child name).text = h.text ++ (if h.path = [] then "" else ",") ++ name ∧
      (EndsWithColon h.text ↔
        h.path = [] ∨ h.path = [""] ∨ ∃ last, h.path.getLast? = some last ∧ EndsWithColon last) ∧
      ((h.child name).text = h.text ++ (if EndsWithColon h.text then "" else ",") ++ name ↔
        h.path = [] ∨ ¬EndsWithColon h.text) := by
  refine ⟨text_child h name, endsWithColon_text h, ?_⟩
  rw [text_child]
  by_cases hpath : h.path = []
  · have hcolon : EndsWithColon h.text := (endsWithColon_text h).2 (.inl hpath)
    simp [hpath, hcolon]
  · by_cases hcolon : EndsWithColon h.text
    · simp [hpath, hcolon]
    · simp [hpath, hcolon]

/-- A name that ends with a colon looks like a scope, and yet its member is put behind a comma. -/
theorem child_of_colon :
    let h : VariableHandle := ⟨.locals 0, ["a:"]⟩
    EndsWithColon h.text ∧ (h.child "b").text = "local:0:a:,b" ∧
      (h.child "b").text ≠ h.text ++ "b" := by
  decide +kernel

end VariableHandle

end DebugBridge
