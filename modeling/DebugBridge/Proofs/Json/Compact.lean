/-
A compact text reads back as the value it was written for.

That needs three things of a value, together `Value.Fits`: its integers are such as a text can hold,
it holds no double, and its containers are not nested too deep. The induction is on this predicate,
because what is inside a container fits into one level less, and the reader is one level deeper
there.

The readers run on fuel. A text has enough of it at twice its length, as each call takes a character
away or hands on to another one that does. How much fuel a text is really given matters once, when a
whole text is read (`read_compact`).

The text of such a value is on one line: what could end the line is a control, and a control in a
string is written without one (`noControls_writeValue`).
-/
import DebugBridge.Proofs.Json.Literal

namespace DebugBridge.Json

/-- A value without doubles whose integers a text can hold, with at most `room` containers one
within the other. -/
inductive Value.Fits : Nat → Value → Prop where
  | null {room : Nat} : Fits room .null
  | bool {room : Nat} (b : Bool) : Fits room (.bool b)
  | integer {room : Nat} {n : Int} (h : IsInteger n) : Fits room (.integer n)
  | string {room : Nat} (s : String) : Fits room (.string s)
  | array {room : Nat} {items : List Value} (h : ∀ v ∈ items, Fits room v) :
      Fits (room + 1) (.array items)
  | object {room : Nat} {members : List (String × Value)} (h : ∀ m ∈ members, Fits room m.2) :
      Fits (room + 1) (.object members)

/-! ### Where a value begins

The reader looks at the first character to tell what it has before it. A written value never begins
with a blank, so nothing is skipped, and never with a closing bracket, so no container is taken for
an empty one.
-/

/-- The characters that a value begins with. -/
def beginsValue (c : Char) : Bool :=
  c.isDigit || ['-', 'n', 't', 'f', '"', '[', '\x7b'].contains c

theorem isBlank_of_beginsValue {c : Char} (h : beginsValue c = true) : isBlank c = false := by
  cases hblank : isBlank c with
  | false => rfl
  | true =>
      simp only [isBlank, Bool.or_eq_true, beq_iff_eq] at hblank
      rcases hblank with ((rfl | rfl) | rfl) | rfl <;> exact absurd h (by decide)

theorem skipBlanks_cons {c : Char} (h : isBlank c = false) (cs : List Char) :
    skipBlanks (c :: cs) = c :: cs := by
  simp [skipBlanks, h]

theorem exists_writeNumber (n : Int) :
    ∃ c cs, writeNumber (.integer n) = c :: cs ∧ (c = '-' ∨ c.isDigit = true) := by
  cases n with
  | ofNat n =>
      rw [writeNumber_ofNat]
      cases hdigits : Nat.toDigits 10 n with
      | nil => exact absurd hdigits Nat.toDigits_ne_nil
      | cons c cs =>
          have hc : c.isDigit = true :=
            Nat.isDigit_of_mem_toDigits (by decide) (by decide) (hdigits ▸ List.mem_cons_self)
          exact ⟨c, cs, rfl, .inr hc⟩
  | negSucc n => exact ⟨'-', _, writeNumber_negSucc n, .inl rfl⟩

theorem beginsValue_of_number {c : Char} (h : c = '-' ∨ c.isDigit = true) :
    beginsValue c = true := by
  rcases h with rfl | hc
  · rfl
  · simp [beginsValue, hc]

/-- A written value begins with one of those characters, and not with a blank or a closing bracket.
-/
theorem exists_writeValue {room : Nat} {v : Value} (h : v.Fits room) :
    ∃ c cs, writeValue v = c :: cs ∧ beginsValue c = true := by
  cases h with
  | null => exact ⟨_, _, rfl, rfl⟩
  | bool b => cases b <;> exact ⟨_, _, rfl, rfl⟩
  | integer =>
      rename_i n _
      obtain ⟨c, cs, htext, hc⟩ := exists_writeNumber n
      exact ⟨c, cs, htext, beginsValue_of_number hc⟩
  | string s => exact ⟨_, _, rfl, rfl⟩
  | array => exact ⟨_, _, rfl, rfl⟩
  | object => exact ⟨_, _, rfl, rfl⟩

/-! ### The readers, one step at a time

Each call of a reader goes one character further or goes on with another reader. The lemmas say so
for the texts that are written, and from here on the bodies of the readers are not looked at again.
-/

theorem readValue_number {c : Char} (h : c = '-' ∨ c.isDigit = true) (fuel depth : Nat)
    (cs : List Char) : readValue (fuel + 1) depth (c :: cs) = readNumber (c :: cs) := by
  have hblank : isBlank c = false := isBlank_of_beginsValue (beginsValue_of_number h)
  rw [readValue, skipBlanks_cons hblank]
  split
  case h_7 => rfl
  all_goals
    rename_i heq
    obtain ⟨rfl, -⟩ := List.cons.inj heq
    exact absurd h (by decide)

theorem readValue_string (fuel depth : Nat) (s : String) (rest : List Char) :
    readValue (fuel + 1) depth (writeString s ++ rest) = (.string s, some rest) := by
  have htext : writeString s ++ rest = '"' :: (s.toList.flatMap writeChar ++ '"' :: rest) := by
    simp [writeString]
  rw [htext, readValue, skipBlanks_cons rfl]
  simp [readString_written]

/-- An opening bracket in front of an item. -/
theorem readValue_array {c : Char} (hc : beginsValue c = true) (fuel depth : Nat) (cs : List Char) :
    readValue (fuel + 1) depth ('[' :: c :: cs) =
      (.within depth (.array (readItems fuel (depth + 1) (c :: cs)).1
        (readItems fuel (depth + 1) (c :: cs)).2.isSome),
        (readItems fuel (depth + 1) (c :: cs)).2) := by
  rw [readValue, skipBlanks_cons rfl]
  simp only [skipBlanks_cons (isBlank_of_beginsValue hc)]
  split
  · next heq =>
      obtain ⟨rfl, -⟩ := List.cons.inj heq
      exact absurd hc (by decide)
  · rfl

/-- An opening brace in front of a key. -/
theorem readValue_object {c : Char} (hc : beginsValue c = true) (fuel depth : Nat)
    (cs : List Char) :
    readValue (fuel + 1) depth ('\x7b' :: c :: cs) =
      (.within depth (.object (readMembers fuel (depth + 1) (c :: cs)).1
        (readMembers fuel (depth + 1) (c :: cs)).2.isSome),
        (readMembers fuel (depth + 1) (c :: cs)).2) := by
  rw [readValue, skipBlanks_cons rfl]
  simp only [skipBlanks_cons (isBlank_of_beginsValue hc)]
  split
  · next heq =>
      obtain ⟨rfl, -⟩ := List.cons.inj heq
      exact absurd hc (by decide)
  · rfl

/-- A value reads back, whatever stands behind it. -/
def ReadsBack (depth : Nat) (v : Value) : Prop :=
  ∀ {fuel : Nat} {rest : List Char}, 2 * (writeValue v).length ≤ fuel → AtEnd rest →
    readValue fuel depth (writeValue v ++ rest) = (.ofValue v, some rest)

theorem readItems_written {depth : Nat} {items : List Value} (hne : items ≠ [])
    (hitems : ∀ v ∈ items, ReadsBack depth v) (rest : List Char) :
    ∀ {fuel : Nat}, 2 * (writeItems items).length + 1 ≤ fuel →
      readItems fuel depth (writeItems items ++ ']' :: rest) =
        (Document.ofValues items, some rest) := by
  induction items with
  | nil => exact absurd rfl hne
  | cons v others ih =>
      intro fuel hfuel
      obtain ⟨fuel, rfl⟩ := Nat.exists_eq_add_of_le' (Nat.le_trans (Nat.le_add_left 1 _) hfuel)
      have hv : ReadsBack depth v := hitems v List.mem_cons_self
      cases others with
      | nil =>
          simp only [writeItems] at hfuel ⊢
          rw [readItems, hv (by omega) (atEnd_cons (by simp) _)]
          simp [skipBlanks_cons, isBlank, Document.ofValues]
      | cons w others =>
          simp only [writeItems, List.length_append, List.length_cons] at hfuel
          have hrest := ih (by simp) (fun u hu => hitems u (List.mem_cons_of_mem _ hu))
            (show 2 * (writeItems (w :: others)).length + 1 ≤ fuel by omega)
          rw [writeItems, List.append_assoc, List.cons_append, readItems,
            hv (by omega) (atEnd_cons (by simp) _)]
          simp only [skipBlanks_cons (c := ',') rfl, hrest]
          rfl

theorem readMembers_written {depth : Nat} {members : List (String × Value)} (hne : members ≠ [])
    (hmembers : ∀ m ∈ members, ReadsBack depth m.2) (rest : List Char) :
    ∀ {fuel : Nat}, 2 * (writeMembers members).length + 1 ≤ fuel →
      readMembers fuel depth (writeMembers members ++ '\x7d' :: rest) =
        (Document.ofMembers members, some rest) := by
  induction members with
  | nil => exact absurd rfl hne
  | cons m others ih =>
      obtain ⟨key, v⟩ := m
      intro fuel hfuel
      obtain ⟨fuel, rfl⟩ := Nat.exists_eq_add_of_le' (Nat.le_trans (Nat.le_add_left 1 _) hfuel)
      have hv : ReadsBack depth v := hmembers (key, v) List.mem_cons_self
      have hkey : ∀ cs, writeString key ++ cs =
          '"' :: (key.toList.flatMap writeChar ++ '"' :: cs) := by
        intro cs
        simp [writeString]
      cases others with
      | nil =>
          simp only [writeMembers, List.length_append, List.length_cons] at hfuel
          rw [writeMembers, List.append_assoc, hkey, readMembers, skipBlanks_cons (c := '"') rfl]
          simp only [readString_written, List.cons_append, skipBlanks_cons (c := ':') rfl]
          rw [hv (by omega) (atEnd_cons (by simp) _)]
          simp [skipBlanks_cons, isBlank, Document.ofMembers]
      | cons n others =>
          simp only [writeMembers, List.length_append, List.length_cons] at hfuel
          have hrest := ih (by simp) (fun u hu => hmembers u (List.mem_cons_of_mem _ hu))
            (show 2 * (writeMembers (n :: others)).length + 1 ≤ fuel by omega)
          rw [writeMembers, List.append_assoc, hkey, readMembers, skipBlanks_cons (c := '"') rfl]
          simp only [readString_written, List.cons_append, skipBlanks_cons (c := ':') rfl,
            List.append_assoc]
          rw [hv (by omega) (atEnd_cons (by simp) _)]
          simp only [skipBlanks_cons (c := ',') rfl, hrest]
          rfl

/-! ### Values and texts

What there is to show of each kind of value is that it reads back whatever stands behind it.
Containers ask for this of what is in them, one level deeper.
-/

theorem within_of_fits {room depth : Nat} (h : depth + (room + 1) ≤ nestingLimit)
    (container : Document) : Document.within depth container = container :=
  if_pos (by omega)

/-- A written array or object begins with its first item or key. -/
theorem exists_writeItems {room : Nat} {v : Value} (h : v.Fits room) (others : List Value) :
    ∃ c cs, writeItems (v :: others) = c :: cs ∧ beginsValue c = true := by
  obtain ⟨c, cs, htext, hc⟩ := exists_writeValue h
  cases others with
  | nil => exact ⟨c, cs, htext, hc⟩
  | cons w others =>
      exact ⟨c, cs ++ ',' :: writeItems (w :: others), by simp [writeItems, htext], hc⟩

theorem exists_writeMembers (m : String × Value) (others : List (String × Value)) :
    ∃ cs, writeMembers (m :: others) = '"' :: cs := by
  cases others <;> exact ⟨_, rfl⟩

section Constructors

variable (depth : Nat)

theorem readsBack_null : ReadsBack depth .null := by
  rintro (_ | fuel) rest hfuel -
  · simp [writeValue] at hfuel
  · rfl

theorem readsBack_bool (b : Bool) : ReadsBack depth (.bool b) := by
  rintro (_ | fuel) rest hfuel -
  · cases b <;> simp [writeValue] at hfuel
  · cases b <;> rfl

theorem readsBack_integer {n : Int} (hn : IsInteger n) : ReadsBack depth (.integer n) := by
  obtain ⟨c, cs, htext, hc⟩ := exists_writeNumber n
  rintro (_ | fuel) rest hfuel hrest
  · simp [writeValue, Value.integer, htext] at hfuel
  · have hnumber := readNumber_written hn hrest
    show readValue (fuel + 1) depth (writeNumber (.integer n) ++ rest) = _
    rw [htext, List.cons_append] at hnumber ⊢
    rw [readValue_number hc, hnumber]
    rfl

theorem readsBack_string (s : String) : ReadsBack depth (.string s) := by
  rintro (_ | fuel) rest hfuel -
  · simp [writeValue, writeString] at hfuel
  · exact readValue_string fuel depth s rest

end Constructors

section Containers

variable {room depth : Nat} (hdepth : depth + (room + 1) ≤ nestingLimit)
include hdepth

/-- An array reads back if its items do one level deeper, where they have what room is left. -/
theorem readsBack_array {items : List Value} (hitems : ∀ v ∈ items, v.Fits room)
    (hread : ∀ v ∈ items, ReadsBack (depth + 1) v) : ReadsBack depth (.array items) := by
  rintro (_ | fuel) rest hfuel -
  · simp [writeValue] at hfuel
  · cases items with
    | nil =>
        show (Document.within depth _, _) = _
        rw [within_of_fits hdepth]
        rfl
    | cons v others =>
        obtain ⟨c, cs, htext, hc⟩ := exists_writeItems (hitems v List.mem_cons_self) others
        simp only [writeValue, List.length_cons, List.length_append] at hfuel
        have hinner := readItems_written (List.cons_ne_nil v others) hread rest
          (show 2 * (writeItems (v :: others)).length + 1 ≤ fuel by omega)
        have hwritten : writeValue (.array (v :: others)) ++ rest =
            '[' :: (writeItems (v :: others) ++ ']' :: rest) := by
          simp [writeValue]
        rw [hwritten]
        rw [htext, List.cons_append] at hinner ⊢
        rw [readValue_array hc, hinner, within_of_fits hdepth]
        rfl

/-- Likewise an object, whose text goes on with the quote of a key. -/
theorem readsBack_object {members : List (String × Value)}
    (hread : ∀ m ∈ members, ReadsBack (depth + 1) m.2) : ReadsBack depth (.object members) := by
  rintro (_ | fuel) rest hfuel -
  · simp [writeValue] at hfuel
  · cases members with
    | nil =>
        show (Document.within depth _, _) = _
        rw [within_of_fits hdepth]
        rfl
    | cons m others =>
        obtain ⟨cs, htext⟩ := exists_writeMembers m others
        simp only [writeValue, List.length_cons, List.length_append] at hfuel
        have hinner := readMembers_written (List.cons_ne_nil m others) hread rest
          (show 2 * (writeMembers (m :: others)).length + 1 ≤ fuel by omega)
        have hwritten : writeValue (.object (m :: others)) ++ rest =
            '\x7b' :: (writeMembers (m :: others) ++ '\x7d' :: rest) := by
          simp [writeValue]
        rw [hwritten]
        rw [htext, List.cons_append] at hinner ⊢
        rw [readValue_object rfl, hinner, within_of_fits hdepth]
        rfl

end Containers

/-- A value that fits into what the limit leaves at some depth reads back there. -/
theorem readsBack_of_fits {room : Nat} {v : Value} (h : v.Fits room) :
    ∀ depth : Nat, depth + room ≤ nestingLimit → ReadsBack depth v := by
  induction h with
  | null => exact fun depth _ => readsBack_null depth
  | bool b => exact fun depth _ => readsBack_bool depth b
  | integer hn => exact fun depth _ => readsBack_integer depth hn
  | string s => exact fun depth _ => readsBack_string depth s
  | array hitems ih =>
      intro depth hdepth
      exact readsBack_array hdepth hitems fun v hv => ih v hv (depth + 1) (by omega)
  | object hmembers ih =>
      intro depth hdepth
      exact readsBack_object hdepth fun m hm => ih m hm (depth + 1) (by omega)

/-- **A compact text reads back.** What is read is the value, and nothing follows it. -/
theorem read_compact {v : Value} (h : v.Fits nestingLimit) :
    read v.compact = ⟨.ofValue v, true⟩ := by
  have htext : v.compact.toList = writeValue v := String.toList_ofList
  have hread := readsBack_of_fits h 0 (by omega)
    (show 2 * (writeValue v).length ≤ 2 * (writeValue v).length + 1 by omega) atEnd_nil
  rw [List.append_nil] at hread
  simp only [read, htext, hread]
  rfl

/-! ### Controls

Only strings could hold a control. Everything else is made of digits, letters and marks.
-/

/-- There is no control among these characters, so nothing that breaks the line. -/
def NoControls (cs : List Char) : Prop := ∀ c ∈ cs, 0x20 ≤ c.toNat

namespace NoControls

variable {c : Char} {cs more : List Char}

theorem nil : NoControls [] := List.forall_mem_nil _

theorem cons (hc : 0x20 ≤ c.toNat) (hcs : NoControls cs) : NoControls (c :: cs) :=
  List.forall_mem_cons.2 ⟨hc, hcs⟩

theorem append (hcs : NoControls cs) (hmore : NoControls more) : NoControls (cs ++ more) :=
  List.forall_mem_append.2 ⟨hcs, hmore⟩

theorem of_all (h : cs.all (fun c => 0x20 ≤ c.toNat) = true) : NoControls cs := by
  simpa [NoControls] using h

theorem not_mem_lineFeed (hcs : NoControls cs) : '\n' ∉ cs := fun hmem =>
  absurd (hcs _ hmem) (by decide)

end NoControls

theorem hexDigit_noControl : ∀ n < 0x10, 0x20 ≤ (hexDigit n).toNat := by
  decide

/-- A control is written without one. -/
theorem noControls_writeChar (c : Char) : NoControls (writeChar c) := by
  unfold writeChar
  split
  case h_8 =>
    split
    case isTrue hcontrol =>
      refine .cons (by decide) (.cons (by decide) (.cons (by decide) (.cons (by decide) ?_)))
      exact .cons (hexDigit_noControl _ (by omega)) (.cons (hexDigit_noControl _ (by omega)) .nil)
    case isFalse hcontrol => exact .cons (by omega) .nil
  all_goals exact .of_all rfl

theorem noControls_writeString (text : String) : NoControls (writeString text) := by
  refine .cons (by decide) (.append (fun c hc => ?_) (.cons (by decide) .nil))
  obtain ⟨d, -, hc⟩ := List.mem_flatMap.1 hc
  exact noControls_writeChar d c hc

theorem noControls_toDigits (n : Nat) : NoControls (Nat.toDigits 10 n) := by
  intro c hc
  have hdigit : c.isDigit = true := Nat.isDigit_of_mem_toDigits (by decide) (by decide) hc
  have hzero : 48 ≤ c.toNat := (Char.isDigit_iff_toNat.1 hdigit).1
  omega

theorem noControls_writeNumber (n : Int) : NoControls (writeNumber (.integer n)) := by
  cases n with
  | ofNat n =>
      rw [writeNumber_ofNat]
      exact noControls_toDigits n
  | negSucc n =>
      rw [writeNumber_negSucc]
      exact .cons (by decide) (noControls_toDigits _)

theorem noControls_writeItems {items : List Value} (h : ∀ v ∈ items, NoControls (writeValue v)) :
    NoControls (writeItems items) := by
  induction items with
  | nil => exact .nil
  | cons v others ih =>
      obtain ⟨hv, hothers⟩ := List.forall_mem_cons.1 h
      cases others with
      | nil => exact hv
      | cons w others =>
          rw [writeItems]
          exact hv.append (.cons (by decide) (ih hothers))

theorem noControls_writeMembers {members : List (String × Value)}
    (h : ∀ m ∈ members, NoControls (writeValue m.2)) : NoControls (writeMembers members) := by
  induction members with
  | nil => exact .nil
  | cons m others ih =>
      obtain ⟨key, v⟩ := m
      obtain ⟨hv, hothers⟩ := List.forall_mem_cons.1 h
      have hkey := noControls_writeString key
      cases others with
      | nil =>
          rw [writeMembers]
          exact hkey.append (.cons (by decide) hv)
      | cons n others =>
          rw [writeMembers]
          exact hkey.append (.cons (by decide) (hv.append (.cons (by decide) (ih hothers))))

/-- **A compact text is one line**, whatever its strings hold. -/
theorem noControls_writeValue {room : Nat} {v : Value} (h : v.Fits room) :
    NoControls (writeValue v) := by
  induction h with
  | null => exact .of_all rfl
  | bool b => cases b <;> exact .of_all rfl
  | integer => exact noControls_writeNumber _
  | string s => exact noControls_writeString s
  | array _ ih =>
      exact .cons (by decide) (.append (noControls_writeItems ih) (.cons (by decide) .nil))
  | object _ ih =>
      exact .cons (by decide) (.append (noControls_writeMembers ih) (.cons (by decide) .nil))

end DebugBridge.Json
