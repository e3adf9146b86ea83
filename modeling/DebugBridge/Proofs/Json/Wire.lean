/-
What is written reads back, type by type.

A form is read field by field, so it is enough to know of each field that it is there, once, and
that its own reader takes it (`Fields.field_of`). Together with the compact text, which holds the
whole form and nothing else (`read_compact`), that makes a type lawful (`Wire.Lawful`): a text
written for one of its members is read as just this member.

What a field is in a document of any kind is said once, for objects and for arrays
(`Fields.fieldOr_named_eq_all_iff`, `Fields.fieldOr_ordered_eq_all_iff`). What is true of written
forms, of values and of the documents in which envelopes are looked for follows from there.
-/
import DebugBridge.Json.Wire
import DebugBridge.Proofs.Json.Reading

namespace DebugBridge.Json

/-! ### Results -/

section Results

variable {ε α β : Type} {x : Except ε α}

theorem map_eq_ok_iff {f : α → β} {b : β} : x.map f = .ok b ↔ ∃ a, x = .ok a ∧ f a = b := by
  cases x <;> simp [Except.map]

theorem map_eq_error_iff {f : α → β} {e : ε} : x.map f = .error e ↔ x = .error e := by
  cases x <;> simp [Except.map]

theorem bind_eq_ok_iff {f : α → Except ε β} {b : β} :
    x.bind f = .ok b ↔ ∃ a, x = .ok a ∧ f a = .ok b := by
  cases x <;> simp [Except.bind]

theorem bind_eq_error_iff {f : α → Except ε β} {e : ε} :
    x.bind f = .error e ↔ x = .error e ∨ ∃ a, x = .ok a ∧ f a = .error e := by
  cases x <;> simp [Except.bind]

end Results

/-! ### Single values

For each reader of a single value, that it takes what is written for its type. The bounds of the
machine integers are met because the number was one of that type before it was written.
-/

namespace Document

theorem asInteger_ofValue {wanted : String} {least greatest n : Int} (hleast : least ≤ n)
    (hgreatest : n ≤ greatest) : asInteger wanted least greatest (ofValue (.integer n)) = .ok n :=
  if_pos ⟨hleast, hgreatest⟩

theorem asUInt32_ofValue (n : UInt32) : asUInt32 (ofValue (.natural n.toNat)) = .ok n := by
  have hn := n.toNat_lt_size
  rw [asUInt32, Value.natural, asInteger_ofValue (by omega) (by omega)]
  simp [Except.map]

theorem asUInt64_ofValue (n : UInt64) : asUInt64 (ofValue (.natural n.toNat)) = .ok n := by
  have hn := n.toNat_lt_size
  rw [asUInt64, Value.natural, asInteger_ofValue (by omega) (by omega)]
  simp [Except.map]

theorem asInt32_ofValue (n : Int32) : asInt32 (ofValue (.integer n.toInt)) = .ok n := by
  rw [asInt32, asInteger_ofValue n.minValue_le_toInt n.toInt_le]
  simp [Except.map]

theorem asInt64_ofValue (n : Int64) : asInt64 (ofValue (.integer n.toInt)) = .ok n := by
  rw [asInt64, asInteger_ofValue n.minValue_le_toInt n.toInt_le]
  simp [Except.map]

theorem asItems_ofValues {α : Type} {decode : Decoder α} {form : α → Value} {items : List α}
    (h : ∀ a ∈ items, decode (ofValue (form a)) = .ok a) :
    asItems decode (ofValues (items.map form)) = .ok items := by
  induction items with
  | nil => rfl
  | cons a items ih =>
      simp only [List.map_cons, ofValues, asItems, h a List.mem_cons_self]
      rw [ih fun b hb => h b (List.mem_cons_of_mem _ hb)]
      rfl

/-- A list is read if its items are. -/
theorem asList_ofValue {α : Type} {decode : Decoder α} {form : α → Value} {items : List α}
    (h : ∀ a ∈ items, decode (ofValue (form a)) = .ok a) :
    asList decode (ofValue (.list form items)) = .ok items := by
  simp only [Value.list, ofValue, asList, asItems_ofValues h, if_true]

/-- What is read is kept, unless it is `null`, which is not read at all. -/
theorem asOption_of_ne_null {α : Type} {decode : Decoder α} {d : Document} (h : d ≠ null) :
    asOption decode d = (decode d).map some := by
  unfold asOption
  split
  · exact absurd rfl h
  · rfl

theorem ofValue_eq_null_iff {v : Value} : ofValue v = null ↔ v = .null := by
  cases v <;> simp [ofValue]

theorem asOption_ofValue {α : Type} {decode : Decoder α} {v : Value} {a : α} (hv : v ≠ .null)
    (hdecode : decode (ofValue v) = .ok a) :
    asOption decode (ofValue v) = .ok (some a) := by
  rw [asOption_of_ne_null (mt ofValue_eq_null_iff.1 hv), hdecode]
  rfl

theorem asVariant_ofValue {α : Type} {known : List (String × α)} {isUnit : Decoder Unit}
    {name : String} {a : α} (h : known.lookup name = some a) :
    asVariant known isUnit (ofValue (.string name)) = .ok a := by
  simp only [ofValue, asVariant, asVariant.find, h]

/-- `null` is taken for nothing, so a value that may be missing is never `null` when it is there. -/
theorem asOption_asValue_eq_ok_iff {d : Document} {o : Option Value} :
    asOption asValue d = .ok o ↔
      (d = null ∧ o = none) ∨ ∃ v, o = some v ∧ d.value? = some v ∧ v ≠ .null := by
  by_cases hnull : d = null
  · subst hnull
    have hvalue : ¬∃ v, o = some v ∧ null.value? = some v ∧ v ≠ .null := by
      rintro ⟨v, -, hv, hne⟩
      exact hne (Option.some.inj hv).symm
    rw [or_iff_left hvalue]
    simp [asOption, eq_comm]
  · have hvalue : ∀ v, d.value? = some v → v ≠ .null := by
      rintro v hv rfl
      exact hnull (eq_null_of_value? hv)
    rw [asOption_of_ne_null hnull, asValue]
    cases hd : d.value? with
    | none => simp [hnull, Except.map]
    | some v => simp [hnull, hvalue v hd, Except.map, eq_comm]

theorem asOption_asValue_eq_some_iff {d : Document} {v : Value} :
    asOption asValue d = .ok (some v) ↔ d.value? = some v ∧ v ≠ .null := by
  simp [asOption_asValue_eq_ok_iff]

end Document

/-! ### Fields

All that stands under a key is a list, and the reader of a field looks at nothing else of an object:
none is what the field is when absent, one is read, and several are a fault. So the field of an
object comes down to that list, and the field of an array to one place in it.
-/

namespace Document

/-- All that stands under `key`. -/
def under (key : String) (members : List (Option String × Document)) : List Document :=
  members.filterMap fun member => if member.1 = some key then some member.2 else none

theorem under_cons (key : String) (k : Option String) (content : Document)
    (rest : List (Option String × Document)) :
    under key ((k, content) :: rest) =
      if k = some key then content :: under key rest else under key rest := by
  by_cases hkey : k = some key <;> simp [under, hkey]

theorem mem_of_mem_under {key : String} {members : List (Option String × Document)} {d : Document}
    (h : d ∈ under key members) : d ∈ members.map Prod.snd := by
  obtain ⟨member, hmember, hsome⟩ := List.mem_filterMap.1 h
  split at hsome
  · exact List.mem_map.2 ⟨member, hmember, Option.some.inj hsome⟩
  · cases hsome

theorem under_ofMembers (name : String) (members : List (String × Value)) :
    under name (ofMembers members) =
      (members.filter fun member => member.1 = name).map fun member => .ofValue member.2 := by
  induction members with
  | nil => rfl
  | cons member rest ih =>
      obtain ⟨key, v⟩ := member
      rw [ofMembers, under_cons, ih, List.filter_cons]
      by_cases hkey : key = name <;> simp [hkey]

theorem under_of_notMem {name : String} {members : List (String × Value)}
    (h : name ∉ members.map Prod.fst) : under name (ofMembers members) = [] := by
  rw [under_ofMembers, List.map_eq_nil_iff, List.filter_eq_nil_iff]
  intro member hmember
  have hne : member.1 ≠ name := fun heq => h (List.mem_map.2 ⟨member, hmember, heq⟩)
  simpa using hne

/-- Where no key comes twice, what is looked up under a key is all that stands there. -/
theorem under_of_lookup {name : String} {members : List (String × Value)} {v : Value}
    (hkeys : (members.map Prod.fst).Nodup) (hlookup : members.lookup name = some v) :
    under name (ofMembers members) = [ofValue v] := by
  induction members with
  | nil => simp at hlookup
  | cons member rest ih =>
      obtain ⟨key, w⟩ := member
      rw [List.map_cons, List.nodup_cons] at hkeys
      rw [List.lookup_cons] at hlookup
      rw [ofMembers, under_cons]
      by_cases hkey : key = name
      · subst hkey
        obtain rfl : w = v := by simpa using hlookup
        rw [if_pos rfl, under_of_notMem hkeys.1]
      · rw [beq_false_of_ne (Ne.symm hkey)] at hlookup
        rw [if_neg (by simpa using hkey), ih hkeys.2 hlookup]

end Document

namespace Gathered

theorem map_eq_all {α β : Type} {f : α → β} {x : Gathered α} {a : α} (h : x = all a) :
    f <$> x = all (f a) :=
  map_eq_all_iff.2 ⟨a, h, rfl⟩

theorem seq_eq_all {α β : Type} {f : Gathered (α → β)} {x : Gathered α} {g : α → β} {a : α}
    (hf : f = all g) (hx : x = all a) : f <*> x = all (g a) :=
  seq_eq_all_iff.2 ⟨g, a, hf, hx, rfl⟩

end Gathered

namespace Fields

/-- The fields of an object that was written. -/
def of (members : List (String × Value)) : Fields := .named (Document.ofMembers members) true

section Members

variable {α : Type} {name : String} {decode : Decoder α} {place : Nat}
  {members : List (Option String × Document)} {items : List Document} {closed : Bool}
  {kind : String} {absent short : Option α} {index : Nat} {a : α}

theorem findIdx?_eq_none_iff_under :
    (members.findIdx? fun member => member.1 = some name) = none ↔
      Document.under name members = [] := by
  simp [Document.under, List.findIdx?_eq_none_iff, List.filterMap_eq_nil_iff]

theorem find?_eq_none_iff_under :
    find? name decode place members = none ↔ Document.under name members = [] := by
  induction members generalizing place with
  | nil => simp [find?, Document.under]
  | cons member rest ih =>
      obtain ⟨key, content⟩ := member
      rw [find?, Document.under_cons]
      by_cases hkey : key = some name
      · rw [if_pos hkey, if_pos hkey]
        split
        · simp
        · split <;> simp
      · rw [if_neg hkey, if_neg hkey, ih]

/-- What is found under a name stands there alone. -/
theorem find?_eq_all_iff_under :
    find? name decode place members = some (.all a) ↔
      ∃ content, Document.under name members = [content] ∧ decode content = .ok a := by
  induction members generalizing place with
  | nil => simp [find?, Document.under]
  | cons member rest ih =>
      obtain ⟨key, content⟩ := member
      rw [find?, Document.under_cons]
      by_cases hkey : key = some name
      · rw [if_pos hkey, if_pos hkey]
        simp only [List.cons.injEq, ← findIdx?_eq_none_iff_under]
        cases hread : decode content with
        | error e => simp [hread]
        | ok b =>
            dsimp only
            split
            · next hfound => simp [hfound]
            · next hnone => simp [hnone, hread]
      · rw [if_neg hkey, if_neg hkey, ih]

/-- A field of an object is what stands under its name, or what it is when nothing does. -/
theorem fieldOr_named_eq_all_iff :
    fieldOr absent short index name decode (named members closed) = .all a ↔
      (Document.under name members = [] ∧ absent = some a) ∨
        ∃ content, Document.under name members = [content] ∧ decode content = .ok a := by
  have hnone : find? name decode 0 members = none ↔ Document.under name members = [] :=
    find?_eq_none_iff_under
  have hall : find? name decode 0 members = some (.all a) ↔ _ := find?_eq_all_iff_under
  rw [← hnone, ← hall]
  cases hfound : find? name decode 0 members <;> cases absent <;> simp [fieldOr, hfound]

/-- A field of an array is what stands in its place, or what it is when the array ends before it. -/
theorem fieldOr_ordered_eq_all_iff :
    fieldOr absent short index name decode (ordered items closed kind) = .all a ↔
      (items[index]? = none ∧ short = some a) ∨
        ∃ content, items[index]? = some content ∧ decode content = .ok a := by
  cases hitem : items[index]? with
  | none => cases short <;> simp [fieldOr, hitem]
  | some content => cases hread : decode content <;> simp [fieldOr, hitem, hread]

end Members

section Lookup

variable {α : Type} {name : String} {decode : Decoder α} {index : Nat}
  {members : List (String × Value)}

/-- A field that is there, once, is what its reader makes of it. -/
theorem fieldOr_of {absent short : Option α} {a : α} {v : Value}
    (hkeys : (members.map Prod.fst).Nodup) (hlookup : members.lookup name = some v)
    (hdecode : decode (.ofValue v) = .ok a) :
    fieldOr absent short index name decode (of members) = .all a :=
  fieldOr_named_eq_all_iff.2 (.inr ⟨_, Document.under_of_lookup hkeys hlookup, hdecode⟩)

theorem field_of {a : α} {v : Value} (hkeys : (members.map Prod.fst).Nodup)
    (hlookup : members.lookup name = some v) (hdecode : decode (.ofValue v) = .ok a) :
    field index name decode (of members) = .all a :=
  fieldOr_of hkeys hlookup hdecode

theorem fieldDefault_of {default a : α} {v : Value} (hkeys : (members.map Prod.fst).Nodup)
    (hlookup : members.lookup name = some v) (hdecode : decode (.ofValue v) = .ok a) :
    fieldDefault default index name decode (of members) = .all a :=
  fieldOr_of hkeys hlookup hdecode

/-- A field that is not there is what it is then. -/
theorem fieldOr_of_notMem {a : α} {short : Option α} (h : name ∉ members.map Prod.fst) :
    fieldOr (some a) short index name decode (of members) = .all a :=
  fieldOr_named_eq_all_iff.2 (.inl ⟨Document.under_of_notMem h, rfl⟩)

end Lookup

theorem intact_of (members : List (String × Value)) : (of members).intact = .all () := by
  have hkeys : ((Document.ofMembers members).findIdx? fun member => member.1.isNone) = none := by
    rw [Document.ofMembers_eq_map, List.findIdx?_map, List.findIdx?_eq_none_iff]
    exact fun _ _ => rfl
  simp only [of, intact, hkeys, if_true]

end Fields

/-- A record is read if its fields are. -/
theorem Document.asRecord_ofValue {α : Type} {layout : Layout} {gather : Fields → Gathered α}
    {members : List (String × Value)} {a : α} (h : gather (.of members) = .all a) :
    asRecord layout gather (ofValue (.object members)) = .ok a := by
  have hintact := Fields.intact_of members
  rw [Fields.of] at h hintact
  simp only [ofValue, asRecord, h, hintact]
  rfl

/-! ### Where a field comes from

Going the other way, a record that was read says something about its document. Each of its fields is
a default or was read from one of the places, and those lie one level deeper than the record itself.
-/

namespace Fields

/-- What stands in the places of the fields, whatever their names. -/
def contents : Fields → List Document
  | named members _ => members.map Prod.snd
  | ordered items _ _ => items

/-- A field is what it is when it is missing, or read from one of the places. -/
theorem exists_of_fieldOr {α : Type} {absent short : Option α} {index : Nat} {name : String}
    {decode : Decoder α} {fields : Fields} {a : α}
    (h : fieldOr absent short index name decode fields = .all a) :
    absent = some a ∨ short = some a ∨ ∃ d ∈ fields.contents, decode d = .ok a := by
  cases fields with
  | named members closed =>
      obtain ⟨-, habsent⟩ | ⟨content, hunder, hread⟩ := fieldOr_named_eq_all_iff.1 h
      · exact .inl habsent
      · have hmem : content ∈ Document.under name members :=
          hunder ▸ List.mem_singleton_self content
        exact .inr (.inr ⟨content, Document.mem_of_mem_under hmem, hread⟩)
  | ordered items closed kind =>
      obtain ⟨-, hshort⟩ | ⟨content, hitem, hread⟩ := fieldOr_ordered_eq_all_iff.1 h
      · exact .inr (.inl hshort)
      · exact .inr (.inr ⟨content, List.mem_of_getElem? hitem, hread⟩)

end Fields

/-- A record that was read is gathered from fields that lie in the document, one level deeper. -/
theorem Document.Bounded.asRecord {α : Type} {layout : Layout} {gather : Fields → Gathered α}
    {room : Nat} {d : Document} {a : α} (h : d.Bounded (room + 1))
    (hread : d.asRecord layout gather = .ok a) :
    ∃ fields : Fields, gather fields = .all a ∧
      ∀ content ∈ fields.contents, content.Bounded room := by
  cases h with
  | @object _ members closed hmembers =>
      obtain ⟨result, hsettle, rfl⟩ := map_eq_ok_iff.1 hread
      have hall := Gathered.both_eq_all_iff.1 (Gathered.settle_eq_ok_iff.1 hsettle)
      refine ⟨_, hall.1, fun content hcontent => ?_⟩
      obtain ⟨member, hmember, rfl⟩ := List.mem_map.1 hcontent
      exact hmembers member hmember
  | @array _ items closed hitems =>
      obtain ⟨result, hsettle, rfl⟩ := map_eq_ok_iff.1 hread
      have hall := Gathered.both_eq_all_iff.1 (Gathered.settle_eq_ok_iff.1 hsettle)
      exact ⟨_, (Gathered.both_eq_all_iff.1 hall.1).1, hitems⟩
  | _ => exact nomatch hread

/-! ### Forms that fit into a text

A text holds integers between two bounds and containers up to a depth. These lemmas are for the
simplifier, so that the form of a record is seen to fit by going through its members.
-/

namespace Value.Fits

attribute [simp] null bool string

theorem natural {room n : Nat} (h : n ≤ Numeral.largest) : Fits room (.natural n) :=
  .integer ⟨by omega, by exact_mod_cast h⟩

@[simp] theorem uint32 {room : Nat} (n : UInt32) : Fits room (.natural n.toNat) :=
  .natural (Nat.le_trans (Nat.le_of_lt n.toNat_lt_size) (by decide))

@[simp] theorem uint64 {room : Nat} (n : UInt64) : Fits room (.natural n.toNat) :=
  .natural (Nat.le_sub_one_of_lt n.toNat_lt_size)

@[simp] theorem int64 {room : Nat} (n : Int64) : Fits room (.integer n.toInt) := by
  have hleast := n.minValue_le_toInt
  have hgreatest := n.toInt_le
  refine .integer ⟨Int.le_trans (by decide) hleast, Int.le_trans hgreatest (by decide)⟩

@[simp] theorem int32 {room : Nat} (n : Int32) : Fits room (.integer n.toInt) := by
  have hleast := n.minValue_le_toInt
  have hgreatest := n.toInt_le
  refine .integer ⟨Int.le_trans (by decide) hleast, Int.le_trans hgreatest (by decide)⟩

theorem list {α : Type} {room : Nat} {form : α → Value} {items : List α}
    (h : ∀ a ∈ items, Fits room (form a)) : Fits (room + 1) (.list form items) := by
  refine .array fun v hv => ?_
  obtain ⟨a, ha, rfl⟩ := List.mem_map.1 hv
  exact h a ha

end Value.Fits

namespace Wire

/-- A type whose members have a text and can be told by their form. To be lawful is a property of
the type and not of its members, so it is shown once for each type and handed on to the types made
from it. -/
structure Lawful (α : Type) [Wire α] : Prop where
  fits : ∀ a : α, (encode a).Fits nestingLimit
  decode_encode : ∀ a : α, decode (.ofValue (encode a)) = .ok a

theorem decodeText_compact {α : Type} {decode : Decoder α} {v : Value} {a : α}
    (hfits : v.Fits nestingLimit) (hdecode : decode (.ofValue v) = .ok a) :
    decodeText decode v.compact = .ok a := by
  simp only [decodeText, read_compact hfits, hdecode, if_true]

/-- A list of members whose forms leave room for one more container. -/
theorem Lawful.decodeText_list {α : Type} [Wire α] (h : Lawful α)
    (hfits : ∀ a : α, (encode a).Fits (nestingLimit - 1)) (items : List α) :
    decodeText (Document.asList decode) (Value.list encode items).compact = .ok items :=
  decodeText_compact (.list fun a _ => hfits a)
    (Document.asList_ofValue fun a _ => h.decode_encode a)

theorem decode_of_ofText? {α : Type} [Wire α] {text : String} {a : α} (h : ofText? text = some a) :
    decode (read text).document = .ok a := by
  unfold ofText? decodeText at h
  dsimp only at h
  split at h
  · exact nomatch h
  · next found hfound =>
      split at h
      · exact hfound.trans (congrArg _ (Option.some.inj h))
      · exact nomatch h

theorem ofText?_toText_of {α : Type} [Wire α] {a : α} (hfits : (encode a).Fits nestingLimit)
    (hdecode : decode (.ofValue (encode a)) = .ok a) : ofText? (toText a) = some a := by
  rw [ofText?, toText, decodeText_compact hfits hdecode]
  rfl

/-- What is written for a member of a lawful type reads back as this member. -/
theorem Lawful.ofText?_toText {α : Type} [Wire α] (h : Lawful α) (a : α) :
    ofText? (toText a) = some a :=
  ofText?_toText_of (h.fits a) (h.decode_encode a)

end Wire

end DebugBridge.Json
