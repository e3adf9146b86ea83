/-
What a text can hold.

A document that was read from a text is bounded (`Document.Bounded`): its integers have 64 bits and
its containers keep to the limit of nesting. So a value that such a document stands for fits into a
text again, if it has no double. Besides, its keys ascend (`Value.Sorted`), both of which is shown
at once (`Document.Bounded.value`). And a value with ascending keys is the one that its own document
stands for (`Document.value?_ofValue`).

Together these close a circle. A value that was read can be written and read again, and is the same
value then. Where a message carries any value there is, as the answer to a command does, nothing
else is known of it but that it was read.
-/
import DebugBridge.Proofs.Json.Compact
import Mathlib.Data.String.Basic

namespace DebugBridge.Json

/-! ### Ascending keys

An object is a list of members. What makes it a map is that each key is put at its place in the
order and only where it is not there yet, so the keys ascend strictly.
-/

/-- A value all of whose objects have their keys in ascending order. The order is strict, so no key
comes twice. -/
inductive Value.Sorted : Value → Prop where
  | null : Sorted .null
  | bool (b : Bool) : Sorted (.bool b)
  | number (n : Number) : Sorted (.number n)
  | string (s : String) : Sorted (.string s)
  | array {items : List Value} (h : ∀ v ∈ items, Sorted v) : Sorted (.array items)
  | object {members : List (String × Value)} (hkeys : (members.map Prod.fst).Pairwise (· < ·))
      (h : ∀ m ∈ members, Sorted m.2) : Sorted (.object members)

theorem eq_or_mem_of_mem_insertAbsent {α : Type} {key : String} {value : α}
    {members : List (String × α)} {m : String × α} (h : m ∈ insertAbsent key value members) :
    m = (key, value) ∨ m ∈ members := by
  induction members with
  | nil => exact .inl (List.mem_singleton.1 h)
  | cons n rest ih =>
      obtain ⟨k, v⟩ := n
      rw [insertAbsent] at h
      split at h
      · exact List.mem_cons.1 h
      · split at h
        · exact .inr h
        · rcases List.mem_cons.1 h with rfl | h
          · exact .inr List.mem_cons_self
          · exact (ih h).imp_right (List.mem_cons_of_mem _)

theorem pairwise_insertAbsent {α : Type} (key : String) (value : α) {members : List (String × α)}
    (h : (members.map Prod.fst).Pairwise (· < ·)) :
    ((insertAbsent key value members).map Prod.fst).Pairwise (· < ·) := by
  induction members with
  | nil => exact List.pairwise_singleton _ _
  | cons n rest ih =>
      obtain ⟨k, v⟩ := n
      obtain ⟨hfirst, hrest⟩ := List.pairwise_cons.1 h
      rw [insertAbsent]
      split
      · next hlt =>
          refine List.pairwise_cons.2 ⟨fun other hother => ?_, h⟩
          rcases List.mem_cons.1 hother with rfl | hother
          · exact hlt
          · exact lt_trans hlt (hfirst other hother)
      · next hnot =>
          split
          · exact h
          · next hne =>
              refine List.pairwise_cons.2 ⟨fun other hother => ?_, ih hrest⟩
              obtain ⟨m, hm, rfl⟩ := List.mem_map.1 hother
              rcases eq_or_mem_of_mem_insertAbsent hm with rfl | hm
              · exact lt_of_le_of_ne (not_lt.1 hnot) (Ne.symm hne)
              · exact hfirst _ (List.mem_map_of_mem hm)

/-- A key in front of all others is put in front. -/
theorem insertAbsent_of_lt {α : Type} {key : String} {value : α} {members : List (String × α)}
    (h : ∀ k ∈ members.map Prod.fst, key < k) :
    insertAbsent key value members = (key, value) :: members := by
  cases members with
  | nil => rfl
  | cons m rest =>
      rw [insertAbsent, if_pos (h m.1 List.mem_cons_self)]

/-! ### What a document stands for

Not every document stands for a value. One that does stands for a value member by member, so what
holds of the parts of the document holds of those of the value.
-/

namespace Document

theorem mem_values? {docs : List Document} {values : List Value} (h : values? docs = some values) :
    ∀ v ∈ values, ∃ d ∈ docs, d.value? = some v := by
  induction docs generalizing values with
  | nil =>
      obtain rfl := Option.some.inj h
      simp
  | cons d rest ih =>
      rw [values?] at h
      split at h
      case h_2 => simp at h
      case h_1 v vs hv hvs =>
        obtain rfl := Option.some.inj h
        intro w hw
        rcases List.mem_cons.1 hw with rfl | hw
        · exact ⟨d, List.mem_cons_self, hv⟩
        · obtain ⟨d', hd', hw⟩ := ih hvs w hw
          exact ⟨d', List.mem_cons_of_mem _ hd', hw⟩

theorem mem_members? {docs : List (Option String × Document)} {members : List (String × Value)}
    (h : members? docs = some members) :
    (members.map Prod.fst).Pairwise (· < ·) ∧
      ∀ m ∈ members, ∃ d ∈ docs, d.2.value? = some m.2 := by
  induction docs generalizing members with
  | nil =>
      obtain rfl := Option.some.inj h
      simp
  | cons d rest ih =>
      obtain ⟨key, d⟩ := d
      unfold members? at h
      split at h
      case h_2 => simp at h
      case h_1 key v vs hv hvs =>
        obtain rfl := Option.some.inj h
        obtain ⟨hkeys, hrest⟩ := ih hvs
        refine ⟨pairwise_insertAbsent key v hkeys, fun m hm => ?_⟩
        rcases eq_or_mem_of_mem_insertAbsent hm with rfl | hm
        · exact ⟨_, List.mem_cons_self, hv⟩
        · obtain ⟨d', hd', hm⟩ := hrest m hm
          exact ⟨d', List.mem_cons_of_mem _ hd', hm⟩

theorem values?_ofValues {α : Type} {form form' : α → Value} {items : List α}
    (h : ∀ a ∈ items, (ofValue (form a)).value? = some (form' a)) :
    values? (ofValues (items.map form)) = some (items.map form') := by
  induction items with
  | nil => rfl
  | cons a rest ih =>
      have hrest := ih fun b hb => h b (List.mem_cons_of_mem _ hb)
      simp only [List.map_cons, ofValues, values?, h a List.mem_cons_self, hrest]

theorem members?_ofMembers {members : List (String × Value)}
    (hkeys : (members.map Prod.fst).Pairwise (· < ·))
    (h : ∀ m ∈ members, (ofValue m.2).value? = some m.2) :
    members? (ofMembers members) = some members := by
  induction members with
  | nil => rfl
  | cons m rest ih =>
      obtain ⟨key, v⟩ := m
      obtain ⟨hfirst, hrest⟩ := List.pairwise_cons.1 hkeys
      have hothers := ih hrest fun n hn => h n (List.mem_cons_of_mem _ hn)
      simp only [ofMembers, members?, h (key, v) List.mem_cons_self, hothers,
        insertAbsent_of_lt hfirst]

/-- Only `null` stands for `null`. -/
theorem eq_null_of_value? {d : Document} (h : d.value? = some .null) : d = .null := by
  cases d with
  | null => rfl
  | array items closed => cases closed <;> simp [value?] at h
  | object members closed => cases closed <;> simp [value?] at h
  | _ => simp [value?] at h

/-- The document of a value with ascending keys stands for just this value. -/
theorem value?_ofValue {v : Value} (h : v.Sorted) : (ofValue v).value? = some v := by
  induction h with
  | null => rfl
  | bool b => rfl
  | number n => rfl
  | string s => rfl
  | @array items _ ih =>
      have hitems : values? (ofValues (items.map id)) = some (items.map id) := values?_ofValues ih
      rw [List.map_id] at hitems
      simp only [ofValue, value?, if_true, hitems, Option.map_some]
  | object hkeys _ ih =>
      simp only [ofValue, value?, if_true, members?_ofMembers hkeys ih, Option.map_some]

end Document

/-! ### Doubles

That the digits of a double give it back is not shown here. So what is said of the texts of values
is said of those without a double anywhere inside.
-/

mutual

/-- Whether there is a double anywhere in a value. -/
def Value.hasDouble : Value → Bool
  | .number (.double _) => true
  | .array items => hasDoubleItem items
  | .object members => hasDoubleMember members
  | _ => false

@[inherit_doc Value.hasDouble]
def Value.hasDoubleItem : List Value → Bool
  | [] => false
  | v :: rest => v.hasDouble || hasDoubleItem rest

@[inherit_doc Value.hasDouble]
def Value.hasDoubleMember : List (String × Value) → Bool
  | [] => false
  | (_, v) :: rest => v.hasDouble || hasDoubleMember rest

end

theorem Value.hasDouble_of_mem_items {items : List Value} (h : hasDoubleItem items = false) :
    ∀ v ∈ items, v.hasDouble = false := by
  induction items with
  | nil => simp
  | cons v rest ih =>
      rw [hasDoubleItem, Bool.or_eq_false_iff] at h
      exact List.forall_mem_cons.2 ⟨h.1, ih h.2⟩

theorem Value.hasDouble_of_mem_members {members : List (String × Value)}
    (h : hasDoubleMember members = false) : ∀ m ∈ members, m.2.hasDouble = false := by
  induction members with
  | nil => simp
  | cons m rest ih =>
      obtain ⟨key, v⟩ := m
      rw [hasDoubleMember, Bool.or_eq_false_iff] at h
      exact List.forall_mem_cons.2 ⟨h.1, ih h.2⟩

/-! ### Documents that were read

The room for containers is what the limit leaves at the depth of the reader. A container without
room is beyond, and stands for nothing, so it is bounded all the same.
-/

/-- A document whose integers have 64 bits, with at most `room` containers one within the other.
What is beyond or broken is bounded as well, since it stands for no value. -/
inductive Document.Bounded : Nat → Document → Prop where
  | null {room : Nat} : Bounded room .null
  | bool {room : Nat} (b : Bool) : Bounded room (.bool b)
  | integer {room : Nat} {n : Int} (h : IsInteger n) : Bounded room (.number (.integer n))
  | double {room : Nat} (bits : UInt64) : Bounded room (.number (.double bits))
  | string {room : Nat} (s : String) : Bounded room (.string s)
  | array {room : Nat} {items : List Document} (closed : Bool) (h : ∀ d ∈ items, Bounded room d) :
      Bounded (room + 1) (.array items closed)
  | object {room : Nat} {members : List (Option String × Document)} (closed : Bool)
      (h : ∀ m ∈ members, Bounded room m.2) : Bounded (room + 1) (.object members closed)
  | beyond {room : Nat} : Bounded room .beyond
  | broken {room : Nat} : Bounded room .broken

/-- What such a document stands for has ascending keys and, without a double, fits into a text. Both
go from the parts of a document to those of the value, so one induction shows both. -/
theorem Document.Bounded.value {room : Nat} {d : Document} (h : d.Bounded room) :
    ∀ {v : Value}, d.value? = some v → v.Sorted ∧ (v.hasDouble = false → v.Fits room) := by
  induction h with
  | null =>
      rintro _ ⟨⟩
      exact ⟨.null, fun _ => .null⟩
  | bool b =>
      rintro _ ⟨⟩
      exact ⟨.bool b, fun _ => .bool b⟩
  | integer h =>
      rintro _ ⟨⟩
      exact ⟨.number _, fun _ => .integer h⟩
  | double bits =>
      rintro _ ⟨⟩
      exact ⟨.number _, nofun⟩
  | string s =>
      rintro _ ⟨⟩
      exact ⟨.string s, fun _ => .string s⟩
  | @array room items closed _ ih =>
      intro v hv
      rw [value?] at hv
      split at hv
      case isFalse => simp at hv
      case isTrue =>
        obtain ⟨values, hvalues, rfl⟩ := Option.map_eq_some_iff.1 hv
        have hitem : ∀ w ∈ values, w.Sorted ∧ (w.hasDouble = false → w.Fits room) := by
          intro w hw
          obtain ⟨d, hd, hdw⟩ := mem_values? hvalues w hw
          exact ih d hd hdw
        refine ⟨.array fun w hw => (hitem w hw).1, fun hdouble => .array fun w hw => ?_⟩
        exact (hitem w hw).2 (Value.hasDouble_of_mem_items hdouble w hw)
  | @object room members closed _ ih =>
      intro v hv
      rw [value?] at hv
      split at hv
      case isFalse => simp at hv
      case isTrue =>
        obtain ⟨values, hvalues, rfl⟩ := Option.map_eq_some_iff.1 hv
        obtain ⟨hkeys, hvalues⟩ := mem_members? hvalues
        have hmember : ∀ m ∈ values, m.2.Sorted ∧ (m.2.hasDouble = false → m.2.Fits room) := by
          intro m hm
          obtain ⟨d, hd, hdm⟩ := hvalues m hm
          exact ih d hd hdm
        refine ⟨.object hkeys fun m hm => (hmember m hm).1, fun hdouble => .object fun m hm => ?_⟩
        exact (hmember m hm).2 (Value.hasDouble_of_mem_members hdouble m hm)
  | beyond => nofun
  | broken => nofun

theorem Numeral.accumulate_le {significand : Nat} (h : significand ≤ largest) (ds : List Char) :
    (accumulate significand ds).1 ≤ largest := by
  induction ds generalizing significand with
  | nil => exact h
  | cons c ds ih =>
      rw [accumulate]
      split
      · next hnext => exact ih hnext
      · exact h

theorem Numeral.isInteger_of_number? {n : Numeral} {k : Int} (h : n.number? = some (.integer k)) :
    IsInteger k := by
  have hle := accumulate_le (Nat.zero_le largest) n.whole
  unfold number? at h
  dsimp only at h
  split at h
  · split at h
    · split at h
      · next hsignificand =>
          obtain rfl := Number.integer.inj (Option.some.inj h)
          exact ⟨by omega, by omega⟩
      · simp at h
    · obtain rfl := Number.integer.inj (Option.some.inj h)
      exact ⟨by omega, by omega⟩
  · simp at h

theorem bounded_readNumber (room : Nat) (cs : List Char) : (readNumber cs).1.Bounded room := by
  unfold readNumber
  split
  · exact .broken
  · next numeral rest _ =>
      cases hnumber : numeral.number? with
      | none => exact .beyond
      | some number =>
          cases number with
          | integer n => exact .integer (Numeral.isInteger_of_number? hnumber)
          | double bits => exact .double bits

/-- A container is as deep as the limit allows, or stands for no value. -/
theorem bounded_within {depth : Nat} {container : Document}
    (h : ∀ room, nestingLimit - depth = room + 1 → container.Bounded (room + 1)) :
    (Document.within depth container).Bounded (nestingLimit - depth) := by
  unfold Document.within
  split
  · next hdepth =>
      obtain ⟨room, hroom⟩ := Nat.exists_eq_add_of_lt hdepth
      have heq : nestingLimit - depth = room + 1 := by omega
      rw [heq]
      exact h room heq
  · exact .beyond

section Readers

variable {fuel : Nat}

theorem bounded_readValue_succ
    (hitems : ∀ depth cs, ∀ d ∈ (readItems fuel depth cs).1, d.Bounded (nestingLimit - depth))
    (hmembers : ∀ depth cs, ∀ m ∈ (readMembers fuel depth cs).1,
      m.2.Bounded (nestingLimit - depth)) (depth : Nat) (cs : List Char) :
    (readValue (fuel + 1) depth cs).1.Bounded (nestingLimit - depth) := by
  have hinside : ∀ room, nestingLimit - depth = room + 1 → nestingLimit - (depth + 1) = room :=
    fun room hroom => by omega
  rw [readValue]
  split
  case h_1 => exact .null
  case h_2 => exact .bool true
  case h_3 => exact .bool false
  case h_4 =>
    split
    · exact .broken
    · next text _ _ => cases text <;> constructor
  case h_5 =>
    split
    · exact bounded_within fun room _ => .array true (by simp)
    · refine bounded_within fun room hroom => .array _ fun d hd => ?_
      exact hinside room hroom ▸ hitems _ _ d hd
  case h_6 =>
    split
    · exact bounded_within fun room _ => .object true (by simp)
    · refine bounded_within fun room hroom => .object _ fun m hm => ?_
      exact hinside room hroom ▸ hmembers _ _ m hm
  case h_7 => exact bounded_readNumber _ _

theorem bounded_readItems_succ
    (hvalue : ∀ depth cs, (readValue fuel depth cs).1.Bounded (nestingLimit - depth))
    (hitems : ∀ depth cs, ∀ d ∈ (readItems fuel depth cs).1, d.Bounded (nestingLimit - depth))
    (depth : Nat) (cs : List Char) :
    ∀ d ∈ (readItems (fuel + 1) depth cs).1, d.Bounded (nestingLimit - depth) := by
  have hfirst := hvalue depth cs
  rw [readItems]
  split
  · next item heq =>
      rw [heq] at hfirst
      exact List.forall_mem_singleton.2 hfirst
  · next item rest heq =>
      rw [heq] at hfirst
      split
      · exact List.forall_mem_cons.2 ⟨hfirst, hitems _ _⟩
      · exact List.forall_mem_singleton.2 hfirst
      · exact List.forall_mem_singleton.2 hfirst

theorem bounded_readMembers_succ
    (hvalue : ∀ depth cs, (readValue fuel depth cs).1.Bounded (nestingLimit - depth))
    (hmembers : ∀ depth cs, ∀ m ∈ (readMembers fuel depth cs).1,
      m.2.Bounded (nestingLimit - depth)) (depth : Nat) (cs : List Char) :
    ∀ m ∈ (readMembers (fuel + 1) depth cs).1, m.2.Bounded (nestingLimit - depth) := by
  rw [readMembers]
  split
  case h_2 => simp
  case h_1 =>
    split
    case h_1 => simp
    case h_2 =>
      split
      case h_2 => exact List.forall_mem_singleton.2 .broken
      case h_1 afterColon _ =>
        have hfirst := hvalue depth afterColon
        split
        · next item heq =>
            rw [heq] at hfirst
            exact List.forall_mem_singleton.2 hfirst
        · next item rest heq =>
            rw [heq] at hfirst
            split
            · exact List.forall_mem_cons.2 ⟨hfirst, hmembers _ _⟩
            · exact List.forall_mem_singleton.2 hfirst
            · exact List.forall_mem_singleton.2 hfirst

end Readers

/-- Each of the three readers keeps within what the limit leaves. -/
theorem bounded_readers (fuel : Nat) :
    (∀ depth cs, (readValue fuel depth cs).1.Bounded (nestingLimit - depth)) ∧
      (∀ depth cs, ∀ d ∈ (readItems fuel depth cs).1, d.Bounded (nestingLimit - depth)) ∧
      ∀ depth cs, ∀ m ∈ (readMembers fuel depth cs).1, m.2.Bounded (nestingLimit - depth) := by
  induction fuel with
  | zero =>
      exact ⟨fun _ _ => .broken, fun _ _ => by simp [readItems], fun _ _ => by simp [readMembers]⟩
  | succ fuel ih =>
      obtain ⟨hvalue, hitems, hmembers⟩ := ih
      exact ⟨bounded_readValue_succ hitems hmembers, bounded_readItems_succ hvalue hitems,
        bounded_readMembers_succ hvalue hmembers⟩

/-- The document of a text is bounded. -/
theorem bounded_read (text : String) : (read text).document.Bounded nestingLimit :=
  (bounded_readers (2 * text.toList.length + 1)).1 0 text.toList

end DebugBridge.Json
