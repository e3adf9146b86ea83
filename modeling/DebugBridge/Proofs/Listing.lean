/-
A listing with its references.

A listing is numbered entry by entry, and the table is handed on from one entry to the next: what an
entry is given depends on the entries before it only by their number of aggregates. So a listing in
two pieces is the second piece listed with the table that the first one leaves (`expand_append`),
and each statement about an entry is about a table and one entry (`memberOf`, `register`). Names
play no part in it: two entries of one name get two numbers.

Numbers are given out in a word with a sign. A table that is larger than that has numbers which lead
elsewhere, so what is said of them here is said of tables below that size, and the size of a table
behind a listing is known beforehand (`size_expand`).
-/
import DebugBridge.Proofs.References

namespace DebugBridge

/-- How many entries of a listing have members. -/
def aggregatesIn (entries : List RemoteVariable) : Nat :=
  entries.countP fun v => isAggregate v.type

theorem aggregatesIn_take_succ {entries : List RemoteVariable} {i : Nat} {v : RemoteVariable}
    (hentry : entries[i]? = some v) :
    aggregatesIn (entries.take (i + 1)) =
      aggregatesIn (entries.take i) + if isAggregate v.type then 1 else 0 := by
  rw [aggregatesIn, List.take_add_one, hentry, List.countP_append, Option.toList_some,
    List.countP_singleton]
  rfl

theorem aggregatesIn_take_le (entries : List RemoteVariable) (i : Nat) :
    aggregatesIn (entries.take i) ≤ aggregatesIn entries :=
  (List.take_sublist i entries).countP_le

/-- What of a variable comes from the debuggee. -/
def Variable.listed (m : Variable) : RemoteVariable := ⟨m.name, m.type, m.value⟩

namespace HandleTable

/-- What a client is shown of an entry that comes next. -/
def memberOf (t : HandleTable) (v : RemoteVariable) : Variable :=
  ⟨v.name, v.type, v.value, if isAggregate v.type then Int64.ofNat (t.size + 1) else 0⟩

/-- The table behind an entry of a listing. -/
def register (t : HandleTable) (parent : VariableHandle) (v : RemoteVariable) : HandleTable :=
  if isAggregate v.type then (t.create (parent.child v.name)).2 else t

theorem expand_cons (t : HandleTable) (parent : VariableHandle) (v : RemoteVariable)
    (rest : List RemoteVariable) :
    t.expand parent (v :: rest) =
      (t.memberOf v :: ((t.register parent v).expand parent rest).1,
        ((t.register parent v).expand parent rest).2) := by
  cases haggregate : isAggregate v.type with
  | true => simp [expand, memberOf, register, haggregate]
  | false => simp [expand, memberOf, register, haggregate]

/-- A listing goes on with the table that its beginning leaves. So the entry at a place can be
looked at alone: the entries before it are a listing, and so are those behind it. -/
theorem expand_append (parent : VariableHandle) (more : List RemoteVariable) :
    ∀ (entries : List RemoteVariable) (t : HandleTable),
      t.expand parent (entries ++ more) =
        ((t.expand parent entries).1 ++ ((t.expand parent entries).2.expand parent more).1,
          ((t.expand parent entries).2.expand parent more).2)
  | [], _ => rfl
  | v :: rest, t => by
      rw [List.cons_append, expand_cons, expand_cons, expand_append parent more rest]
      rfl

/-- Nothing that the debuggee says of an entry is changed, left out or added. -/
theorem listed_expand (parent : VariableHandle) :
    ∀ (entries : List RemoteVariable) (t : HandleTable),
      (t.expand parent entries).1.map Variable.listed = entries
  | [], _ => rfl
  | v :: rest, t => by
      rw [expand_cons, List.map_cons, listed_expand parent rest]
      rfl

theorem length_expand (t : HandleTable) (parent : VariableHandle) (entries : List RemoteVariable) :
    (t.expand parent entries).1.length = entries.length := by
  rw [← List.length_map (f := Variable.listed), listed_expand]

theorem size_expand (t : HandleTable) (parent : VariableHandle) (entries : List RemoteVariable) :
    (t.expand parent entries).2.size = t.size + aggregatesIn entries := by
  rw [size, handles_expand, List.length_append, VariableHandle.children, List.length_map,
    ← List.countP_eq_length_filter]
  rfl

/-- What has a number keeps it. -/
theorem get?_expand {t : HandleTable} {reference : Int64} {h : VariableHandle}
    (parent : VariableHandle) (entries : List RemoteVariable) (hget : t.get? reference = some h) :
    (t.expand parent entries).2.get? reference = some h := by
  unfold get? at hget ⊢
  dsimp only at hget ⊢
  split at hget
  · rename_i hone
    rw [if_pos hone, handles_expand, List.getElem?_append_left (List.getElem?_eq_some_iff.1 hget).1,
      hget]
  · cases hget

/-- A new number is looked up at the end of the table. -/
theorem get?_create {t : HandleTable} (h : VariableHandle)
    (hfew : ((t.size + 1 : Nat) : Int) ≤ Int64.maxValue.toInt) :
    (t.create h).2.get? (t.create h).1 = some h := by
  refine get?_of_mem_numbered ?_ (by rwa [size_create])
  rw [handles_create, fst_create]
  exact mem_numbered.2 ⟨t.size, List.getElem?_concat_length, by rw [Nat.add_comm]⟩

theorem reference_of_plain {v : RemoteVariable} (t : HandleTable) (h : isAggregate v.type = false) :
    (t.memberOf v).reference = 0 := by
  simp [memberOf, h]

/-- The reference of an aggregate is the next number, and leads to the member. -/
theorem reference_of_aggregate {t : HandleTable} {v : RemoteVariable} (parent : VariableHandle)
    (h : isAggregate v.type = true) (hfew : ((t.size + 1 : Nat) : Int) ≤ Int64.maxValue.toInt) :
    (t.memberOf v).reference.toInt = ((t.size + 1 : Nat) : Int) ∧
      (t.register parent v).get? (t.memberOf v).reference = some (parent.child v.name) := by
  have hnumber : (t.memberOf v).reference = (t.create (parent.child v.name)).1 := by
    rw [memberOf, if_pos h]
    rfl
  have hregister : t.register parent v = (t.create (parent.child v.name)).2 := if_pos h
  rw [hnumber, hregister, fst_create, toInt_ofNat hfew]
  exact ⟨rfl, get?_create _ hfew⟩

/-- An entry is shown with what its table gives it, which is the table behind the entries before it.
The table behind the whole listing is then that of the entries behind this one. -/
theorem getElem?_expand {entries : List RemoteVariable} {i : Nat} {v : RemoteVariable}
    (t : HandleTable) (parent : VariableHandle) (hentry : entries[i]? = some v) :
    (t.expand parent entries).1[i]? = some ((t.expand parent (entries.take i)).2.memberOf v) ∧
      (t.expand parent entries).2 =
        (((t.expand parent (entries.take i)).2.register parent v).expand parent
          (entries.drop (i + 1))).2 := by
  obtain ⟨hi, hv⟩ := List.getElem?_eq_some_iff.1 hentry
  have hsplit : entries = entries.take i ++ v :: entries.drop (i + 1) := by
    rw [← hv, ← List.drop_eq_getElem_cons hi, List.take_append_drop]
  have hplace : (t.expand parent (entries.take i)).1.length = i := by
    rw [length_expand, List.length_take_of_le (Nat.le_of_lt hi)]
  have hexpand := expand_append parent (v :: entries.drop (i + 1)) (entries.take i) t
  rw [← hsplit, expand_cons] at hexpand
  refine ⟨?_, congrArg (fun result => result.2) hexpand⟩
  rw [hexpand, List.getElem?_append_right (Nat.le_of_eq hplace), hplace, Nat.sub_self]
  rfl

/-- **A listing is numbered on from its table.** While there are numbers, each entry is shown as the
debuggee lists it, at its place. Those without members, and no others, have the reference zero. The
others have the numbers behind those of the table, in order, and such a number leads to the member
of the value that is listed. All earlier numbers lead where they did, and the table has as many more
as there are such entries.

Each entry is looked at with the table that the entries before it leave (`getElem?_expand`). How
many numbers have been given out until then depends on nothing but how many of these entries have
members. -/
theorem listing_is_numbered_on (t : HandleTable) (parent : VariableHandle)
    (entries : List RemoteVariable)
    (hfew : ((t.size + aggregatesIn entries : Nat) : Int) < Int64.maxValue.toInt) :
    let members := (t.expand parent entries).1
    let after := (t.expand parent entries).2
    members.map Variable.listed = entries ∧
      (∀ i v m, entries[i]? = some v → members[i]? = some m →
        (m.reference = 0 ↔ isAggregate v.type = false) ∧
          (isAggregate v.type = true →
            m.reference.toInt = ((t.size + aggregatesIn (entries.take (i + 1)) : Nat) : Int) ∧
              after.get? m.reference = some ⟨parent.scope, parent.path ++ [v.name]⟩)) ∧
      (∀ reference h, t.get? reference = some h → after.get? reference = some h) ∧
      after.size = t.size + aggregatesIn entries := by
  intro members after
  refine ⟨listed_expand parent entries t, ?_, fun _ _ => get?_expand parent entries,
    size_expand t parent entries⟩
  intro i v m hentry hmember
  obtain ⟨hshown, hafter⟩ := getElem?_expand t parent hentry
  obtain rfl : (t.expand parent (entries.take i)).2.memberOf v = m :=
    Option.some.inj (hshown.symm.trans hmember)
  have hsize := size_expand t parent (entries.take i)
  have hplace := aggregatesIn_take_succ hentry
  have hle := aggregatesIn_take_le entries (i + 1)
  cases haggregate : isAggregate v.type with
  | false => simp [reference_of_plain _ haggregate]
  | true =>
      rw [haggregate, if_pos rfl] at hplace
      obtain ⟨hnumber, hget⟩ := reference_of_aggregate parent haggregate
        (t := (t.expand parent (entries.take i)).2) (by omega)
      refine ⟨⟨fun hzero => ?_, by simp⟩, fun _ => ⟨by omega, ?_⟩⟩
      · rw [hzero] at hnumber
        have hnull : (0 : Int64).toInt = 0 := rfl
        omega
      · show (t.expand parent entries).2.get? _ = _
        rw [hafter]
        exact get?_expand parent _ hget

/-- Among the members of the local `self`, two without a name around a number: the table has a
number given out, so these have the second and the third. -/
theorem listing_of_nameless_members :
    let t : HandleTable := ⟨[.locals 1]⟩
    let parent : VariableHandle := ⟨.locals 1, ["self"]⟩
    let entries : List RemoteVariable :=
      [⟨"", "table", "t"⟩, ⟨"n", "integer", "5"⟩, ⟨"", "array", "a"⟩]
    ((t.size + aggregatesIn entries : Nat) : Int) < Int64.maxValue.toInt ∧
      (t.expand parent entries).1 =
        [⟨"", "table", "t", 2⟩, ⟨"n", "integer", "5", 0⟩, ⟨"", "array", "a", 3⟩] ∧
      (t.expand parent entries).2.get? 2 = some ⟨.locals 1, ["self", ""]⟩ ∧
      (t.expand parent entries).2.get? 3 = some ⟨.locals 1, ["self", ""]⟩ ∧
      (t.expand parent entries).2.get? 1 = some ⟨.locals 1, []⟩ ∧
      (t.expand parent entries).2.size = 3 := by
  intro t parent entries
  have hfew : ((t.size + aggregatesIn entries : Nat) : Int) < Int64.maxValue.toInt := by decide
  obtain ⟨-, hmembers, hkept, hsize⟩ := listing_is_numbered_on t parent entries hfew
  refine ⟨hfew, by decide, ?_, ?_, hkept 1 _ (by decide), hsize⟩
  · exact ((hmembers 0 ⟨"", "table", "t"⟩ ⟨"", "table", "t", 2⟩ rfl (by decide)).2 (by decide)).2
  · exact ((hmembers 2 ⟨"", "array", "a"⟩ ⟨"", "array", "a", 3⟩ rfl (by decide)).2 (by decide)).2

end HandleTable

end DebugBridge
