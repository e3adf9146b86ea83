/-
What a reader takes.

`Proofs/Json/Wire.lean` shows that what was written is read. Here it is the other way round: a
reader is described by a form, a relation between data and values, and takes a value exactly if it
has the form (`Reads`). Each way to build a reader from others builds a form from theirs, so that
the form of a whole record can be read off its fields.

A reader that refuses a value also says why: the one error without words, `malformed`, is about
texts and never about values. That is carried along with the form, since it too is known of a reader
once it is known of its parts.
-/
import Mathlib.Data.List.Forall2
import DebugBridge.Proofs.Json.Wire

namespace DebugBridge.Json

namespace Value

/-- Under `key` stands `v`, and nothing else does. -/
def Holds (members : List (String × Value)) (key : String) (v : Value) : Prop :=
  members.filter (fun member => member.1 = key) = [(key, v)]

/-- Nothing stands under `key`. -/
def Lacks (members : List (String × Value)) (key : String) : Prop :=
  ∀ member ∈ members, member.1 ≠ key

theorem lacks_iff_filter {members : List (String × Value)} {key : String} :
    Lacks members key ↔ members.filter (fun member => member.1 = key) = [] := by
  simp [Lacks, List.filter_eq_nil_iff]

end Value

open Value (Holds Lacks)

/-- Every error but one has words. -/
theorem DecodeError.exists_message {e : DecodeError} (h : e ≠ .malformed) :
    ∃ words, e.message? = some words := by
  cases e with
  | malformed => exact absurd rfl h
  | _ => exact ⟨_, rfl⟩

/-- `decode` takes exactly the values of the form, and has words for what is wrong with any other.
The second half does not go without saying, as readers have no words for a text that is malformed.
-/
structure Reads {α : Type} (decode : Decoder α) (Form : α → Value → Prop) : Prop where
  ok_iff : ∀ {v : Value} {a : α}, decode (.ofValue v) = .ok a ↔ Form a v
  tells : ∀ {v : Value} {e : DecodeError}, decode (.ofValue v) = .error e → e ≠ .malformed

/-! ### Single values

The readers that everything else is built from. Each is described by an equation between the value
and the form of what was read, with the bounds of its type where it has any.
-/

namespace Document

theorem unwanted_ne_malformed (wanted : String) (v : Value) :
    (ofValue v).unwanted wanted ≠ .malformed := by
  cases v with
  | number n => cases n <;> simp [ofValue, unwanted]
  | _ => simp [ofValue, unwanted]

end Document

namespace Reads

variable {α : Type}

/-- What is refused does not have the form. -/
theorem not_form {decode : Decoder α} {Form : α → Value → Prop} (h : Reads decode Form) {v : Value}
    {e : DecodeError} (hread : decode (.ofValue v) = .error e) (a : α) : ¬ Form a v := by
  simp [← h.ok_iff, hread]

theorem congr {decode : Decoder α} {Form Form' : α → Value → Prop} (h : Reads decode Form)
    (hforms : ∀ a v, Form a v ↔ Form' a v) : Reads decode Form' :=
  ⟨fun {v a} => h.ok_iff.trans (hforms a v), h.tells⟩

theorem string : Reads Document.asString fun s v => v = .string s where
  ok_iff {v s} := by cases v <;> simp [Document.ofValue, Document.asString]
  tells {v e} h := by
    cases v with
    | string s => cases h
    | _ => exact Except.error.inj h ▸ Document.unwanted_ne_malformed _ _

theorem unit : Reads Document.asUnit fun _ v => v = .null where
  ok_iff {v s} := by cases v <;> simp [Document.ofValue, Document.asUnit]
  tells {v e} h := by
    cases v with
    | null => cases h
    | _ => exact Except.error.inj h ▸ Document.unwanted_ne_malformed _ _

theorem integer (wanted : String) (least greatest : Int) :
    Reads (Document.asInteger wanted least greatest) fun n v =>
      v = .integer n ∧ least ≤ n ∧ n ≤ greatest where
  ok_iff {v n} := by
    cases v with
    | number m =>
        cases m with
        | integer m =>
            simp only [Document.ofValue, Document.asInteger, Value.integer]
            split <;> grind
        | double bits => simp [Document.ofValue, Document.asInteger, Value.integer]
    | _ => simp [Document.ofValue, Document.asInteger, Value.integer]
  tells {v e} h := by
    cases v with
    | number m =>
        cases m with
        | integer m =>
            simp only [Document.ofValue, Document.asInteger] at h
            split at h
            · cases h
            · cases h
              simp
        | double bits =>
            exact Except.error.inj h ▸ Document.unwanted_ne_malformed wanted
              (.number (.double bits))
    | _ => exact Except.error.inj h ▸ Document.unwanted_ne_malformed _ _

/-- What is made of something that was read has the form of that, if it can be made of it. -/
theorem bind {β : Type} {decode : Decoder α} {Form : α → Value → Prop} (h : Reads decode Form)
    {f : α → Except DecodeError β} (hf : ∀ {a e}, f a = .error e → e ≠ .malformed) :
    Reads (fun d => (decode d).bind f) fun b v => ∃ a, Form a v ∧ f a = .ok b where
  ok_iff {v b} := by simp only [bind_eq_ok_iff, h.ok_iff]
  tells {v e} hread := by
    rcases bind_eq_error_iff.1 hread with hdecode | ⟨a, -, hmake⟩
    · exact h.tells hdecode
    · exact hf hmake

theorem map {β : Type} {decode : Decoder α} {Form : α → Value → Prop} (h : Reads decode Form)
    (f : α → β) : Reads (fun d => (decode d).map f) fun b v => ∃ a, Form a v ∧ f a = b where
  ok_iff {v b} := by simp only [map_eq_ok_iff, h.ok_iff]
  tells {v e} hread := h.tells (map_eq_error_iff.1 hread)

theorem uint32 : Reads Document.asUInt32 fun n v => v = .natural n.toNat := by
  refine ((integer "u32" 0 _).map fun n => UInt32.ofNat n.toNat).congr fun n v => ?_
  constructor
  · rintro ⟨m, ⟨rfl, hleast, hgreatest⟩, rfl⟩
    have hsmall : m.toNat < UInt32.size := by
      have : (UInt32.size - 1 : Nat) < UInt32.size := by decide
      omega
    rw [UInt32.toNat_ofNat_of_lt' hsmall, Value.natural, Int.toNat_of_nonneg hleast]
  · rintro rfl
    have hn := n.toNat_lt_size
    exact ⟨n.toNat, ⟨rfl, by omega, by omega⟩, by simp⟩

section Variant

variable {known : List (String × α)} {isUnit : Decoder Unit} {Form : Unit → Value → Prop}
  {name : String} {a : α}

theorem find_ok_iff :
    Document.asVariant.find known name = .ok a ↔ known.lookup name = some a := by
  cases hfound : known.lookup name <;> simp [Document.asVariant.find, hfound]

theorem find_tells {e : DecodeError} (h : Document.asVariant.find known name = .error e) :
    e ≠ .malformed := by
  cases hfound : known.lookup name with
  | none =>
      rw [Document.asVariant.find, hfound] at h
      cases h
      simp
  | some a => simp [Document.asVariant.find, hfound] at h

theorem asVariant_only (content : Value) :
    Document.asVariant known isUnit (.ofValue (.object [(name, content)])) =
      (Document.asVariant.find known name).bind fun a =>
        (isUnit (.ofValue content)).map fun _ => a := by
  simp only [Document.ofValue, Document.ofMembers, Document.asVariant, Bind.bind, Except.bind, pure,
    Except.pure, Except.map]

/-- One of a few names, or an object with nothing but such a name. -/
theorem variant (known : List (String × α)) (h : Reads isUnit Form) :
    Reads (Document.asVariant known isUnit) fun a v =>
      ∃ name, known.lookup name = some a ∧
        (v = .string name ∨ ∃ content, Form () content ∧ v = .object [(name, content)]) where
  ok_iff {v a} := by
    cases v with
    | string name =>
        show Document.asVariant.find known name = .ok a ↔ _
        simp [find_ok_iff]
    | object members =>
        rcases members with _ | ⟨⟨name, content⟩, _ | ⟨second, rest⟩⟩
        case cons.nil =>
          have hunit : (∃ u, Form u content) ↔ Form () content :=
            ⟨fun ⟨_, h⟩ => h, fun h => ⟨(), h⟩⟩
          simp [asVariant_only, bind_eq_ok_iff, map_eq_ok_iff, find_ok_iff, h.ok_iff,
            hunit, and_comm]
        all_goals simp [Document.ofValue, Document.ofMembers, Document.asVariant]
    | number n => cases n <;> simp [Document.ofValue, Document.asVariant]
    | _ => simp [Document.ofValue, Document.asVariant]
  tells {v e} hread := by
    cases v with
    | string name => exact find_tells hread
    | object members =>
        rcases members with _ | ⟨⟨name, content⟩, _ | ⟨second, rest⟩⟩
        case cons.nil =>
          rw [asVariant_only] at hread
          rcases bind_eq_error_iff.1 hread with hfind | ⟨a, -, hunit⟩
          · exact find_tells hfind
          · exact h.tells (map_eq_error_iff.1 hunit)
        all_goals
          cases hread
          simp
    | _ => exact Except.error.inj hread ▸ Document.unwanted_ne_malformed _ _

end Variant

/-! ### Values inside values

A reader of options takes one more value than the one it is built from, and loses one, as `null` is
always none. A reader of lists takes the lists whose items are all taken, item by item.
-/

/-- `null`, or what the reader takes. -/
theorem option {decode : Decoder α} {Form : α → Value → Prop} (h : Reads decode Form) :
    Reads (Document.asOption decode) fun given v =>
      v = .null ∧ given = none ∨ v ≠ .null ∧ ∃ a, given = some a ∧ Form a v where
  ok_iff {v given} := by
    by_cases hnull : v = .null
    · subst hnull
      simp [Document.ofValue, Document.asOption, eq_comm]
    · rw [Document.asOption_of_ne_null (mt Document.ofValue_eq_null_iff.1 hnull)]
      have := (h.map some).ok_iff (v := v) (a := given)
      simp [this, hnull, eq_comm, and_comm]
  tells {v e} hread := by
    cases v with
    | null => cases hread
    | _ => exact (h.map some).tells hread

theorem asItems_ok_iff {decode : Decoder α} {Form : α → Value → Prop} (h : Reads decode Form)
    {vs : List Value} {items : List α} :
    Document.asItems decode (Document.ofValues vs) = .ok items ↔ List.Forall₂ Form items vs := by
  induction vs generalizing items with
  | nil => cases items <;> simp [Document.ofValues, Document.asItems]
  | cons v rest ih =>
      rw [Document.ofValues, Document.asItems]
      cases hdecode : decode (.ofValue v) with
      | error e => cases items <;> simp [h.not_form hdecode]
      | ok a =>
          have hform : ∀ b, Form b v ↔ a = b := by simp [← h.ok_iff, hdecode]
          cases items <;> simp [map_eq_ok_iff, ih, hform, and_comm]

theorem asItems_tells {decode : Decoder α} {Form : α → Value → Prop} (h : Reads decode Form)
    {vs : List Value} {e : DecodeError}
    (hread : Document.asItems decode (Document.ofValues vs) = .error e) : e ≠ .malformed := by
  induction vs generalizing e with
  | nil => cases hread
  | cons v rest ih =>
      rw [Document.ofValues, Document.asItems] at hread
      cases hdecode : decode (.ofValue v) with
      | error e' =>
          rw [hdecode] at hread
          exact Except.error.inj hread ▸ h.tells hdecode
      | ok a =>
          rw [hdecode] at hread
          exact ih (map_eq_error_iff.1 hread)

theorem list {decode : Decoder α} {Form : α → Value → Prop} (h : Reads decode Form) :
    Reads (Document.asList decode) fun items v =>
      ∃ vs, v = .array vs ∧ List.Forall₂ Form items vs where
  ok_iff {v items} := by
    cases v with
    | array vs =>
        simp only [Document.ofValue, Document.asList, Value.array.injEq, exists_eq_left',
          ← asItems_ok_iff h]
        cases Document.asItems decode (Document.ofValues vs) <;> simp
    | _ => simp [Document.ofValue, Document.asList]
  tells {v e} hread := by
    cases v with
    | array vs =>
        simp only [Document.ofValue, Document.asList] at hread
        split at hread
        · next hitems => exact Except.error.inj hread ▸ asItems_tells h hitems
        · cases hread
    | _ => exact Except.error.inj hread ▸ Document.unwanted_ne_malformed _ _

end Reads

/-! ### Records

A record is found in an object by the names of its fields or in an array by their order. The two
differ in what may be left out and in what may be too much, so a form has a case for each; a record
that is in neither has none.
-/

/-- What is wrong, if anything is, has words. -/
def Gathered.Tells {α : Type} (x : Gathered α) : Prop :=
  ∀ first, x = .fault first → first.error ≠ .malformed

namespace Gathered.Tells

variable {α β : Type}

theorem all (a : α) : (Gathered.all a).Tells := by
  rintro _ ⟨⟩

theorem fault {place : Nat} {e : DecodeError} (h : e ≠ .malformed) :
    (Gathered.fault (α := α) ⟨place, e⟩).Tells := by
  rintro _ ⟨⟩
  exact h

theorem both {x : Gathered α} {y : Gathered β} (hx : x.Tells) (hy : y.Tells) :
    (x.both y).Tells := by
  cases x with
  | all a =>
      cases y with
      | all b => exact .all (a, b)
      | fault g => exact fun _ h => Gathered.fault.inj h ▸ hy g rfl
  | fault f =>
      cases y with
      | all b => exact fun _ h => Gathered.fault.inj h ▸ hx f rfl
      | fault g =>
          intro first h
          obtain rfl := Gathered.fault.inj h
          split
          · exact hy g rfl
          · exact hx f rfl

theorem map {x : Gathered α} (h : x.Tells) (f : α → β) : (f <$> x).Tells := by
  cases x with
  | all a => exact .all (f a)
  | fault first => exact fun _ heq => Gathered.fault.inj heq ▸ h first rfl

theorem seq {f : Gathered (α → β)} {x : Gathered α} (hf : f.Tells) (hx : x.Tells) :
    (f <*> x).Tells :=
  (hf.both hx).map _

end Gathered.Tells

namespace Fields

/-- The fields of a value that was read before. -/
inductive Whole : Fields → Prop
  | named (members : List (String × Value)) : Whole (.of members)
  | ordered (items : List Value) (kind : String) :
      Whole (.ordered (Document.ofValues items) true kind)

section Find

variable {α : Type} {name : String} {decode : Decoder α} {Form : α → Value → Prop}
  {members : List (String × Value)} {place : Nat}

theorem under_ofMembers_eq_nil_iff :
    Document.under name (Document.ofMembers members) = [] ↔ Lacks members name := by
  rw [Document.under_ofMembers, List.map_eq_nil_iff, Value.lacks_iff_filter]

theorem exists_under_ofMembers_iff (h : Reads decode Form) {a : α} :
    (∃ content, Document.under name (Document.ofMembers members) = [content] ∧
        decode content = .ok a) ↔
      ∃ v, Holds members name v ∧ Form a v := by
  rw [Document.under_ofMembers]
  simp only [List.map_eq_singleton_iff, Holds, ← h.ok_iff]
  constructor
  · rintro ⟨_, ⟨⟨key, v⟩, hfilter, rfl⟩, hread⟩
    have hmem := List.mem_filter.1 (hfilter ▸ List.mem_singleton_self (key, v))
    obtain rfl : key = name := by simpa using hmem.2
    exact ⟨v, hfilter, hread⟩
  · rintro ⟨v, hfilter, hread⟩
    exact ⟨_, ⟨(name, v), hfilter, rfl⟩, hread⟩

theorem find?_tells (h : Reads decode Form) {found : Gathered α}
    (hfound : find? name decode place (Document.ofMembers members) = some found) : found.Tells := by
  induction members generalizing place with
  | nil => cases hfound
  | cons member rest ih =>
      obtain ⟨key, v⟩ := member
      rw [Document.ofMembers, find?] at hfound
      split at hfound
      · split at hfound
        · next hread => exact Option.some.inj hfound ▸ .fault (h.tells hread)
        · split at hfound
          · exact Option.some.inj hfound ▸ .fault (by simp)
          · exact Option.some.inj hfound ▸ .all _
      · exact ih hfound

end Find

section Field

variable {α : Type} {absent short : Option α} {index : Nat} {name : String} {decode : Decoder α}
  {Form : α → Value → Prop}

theorem fieldOr_named_iff (h : Reads decode Form) {members : List (String × Value)} {a : α} :
    fieldOr absent short index name decode (.of members) = .all a ↔
      Lacks members name ∧ absent = some a ∨ ∃ v, Holds members name v ∧ Form a v := by
  rw [of, fieldOr_named_eq_all_iff, under_ofMembers_eq_nil_iff, exists_under_ofMembers_iff h]

theorem fieldOr_ordered_iff (h : Reads decode Form) {items : List Value} {kind : String} {a : α} :
    fieldOr absent none index name decode (.ordered (Document.ofValues items) true kind) = .all a ↔
      ∃ v, items[index]? = some v ∧ Form a v := by
  rw [fieldOr_ordered_eq_all_iff, Document.ofValues_eq_map, List.getElem?_map]
  simp [← h.ok_iff]

theorem field_named_iff (h : Reads decode Form) {members : List (String × Value)} {a : α} :
    field index name decode (.of members) = .all a ↔ ∃ v, Holds members name v ∧ Form a v := by
  simp [field, fieldOr_named_iff h]

theorem field_ordered_iff (h : Reads decode Form) {items : List Value} {kind : String} {a : α} :
    field index name decode (.ordered (Document.ofValues items) true kind) = .all a ↔
      ∃ v, items[index]? = some v ∧ Form a v :=
  fieldOr_ordered_iff h

theorem fieldOr_tells (h : Reads decode Form) {fields : Fields} (hwhole : fields.Whole) :
    (fieldOr absent short index name decode fields).Tells := by
  cases hwhole with
  | named members =>
      unfold fieldOr
      dsimp only [of]
      split
      · next hfound => exact find?_tells h hfound
      · exact .all _
      · exact .fault (by simp)
  | ordered items kind =>
      unfold fieldOr
      dsimp only
      split
      · next item _ hitem =>
          rw [Document.ofValues_eq_map, List.getElem?_map, Option.map_eq_some_iff] at hitem
          obtain ⟨v, -, rfl⟩ := hitem
          split
          · exact .all _
          · next hread => exact .fault (h.tells hread)
      · exact .all _
      · exact .fault (by simp)

end Field

end Fields

theorem Gathered.Tells.settle {α β : Type} {x : Gathered α} (h : x.Tells) {f : α → β}
    {e : DecodeError} (hread : x.settle.map f = .error e) : e ≠ .malformed := by
  have hsettle := map_eq_error_iff.1 hread
  cases x with
  | all a => cases hsettle
  | fault first => exact Except.error.inj hsettle ▸ h first rfl

theorem Document.asRecord_array {α : Type} (layout : Layout) (gather : Fields → Gathered α)
    (items : List Value) :
    asRecord layout gather (ofValue (.array items)) =
      ((gather (.ordered (ofValues items) true layout.kind)).both
        (if items.length ≤ layout.arity then .all ()
          else .fault ⟨layout.arity, layout.surplus items.length⟩)).settle.map Prod.fst := by
  have hlength : (ofValues items).length = items.length := by rw [ofValues_eq_map, List.length_map]
  simp only [ofValue, asRecord, Fields.intact, hlength, if_true]
  generalize gather _ = gathered
  split <;> cases gathered <;> rfl

/-- A record has the form that its fields have, by name or in order. What has to be shown of the
fields is shown of them as they are gathered, whichever of the two ways they came. -/
theorem Reads.record {α : Type} {layout : Layout} {gather : Fields → Gathered α}
    {Form : α → Value → Prop} (hsurplus : ∀ length, layout.surplus length ≠ .malformed)
    (hnamed : ∀ {members a}, gather (.of members) = .all a ↔ Form a (.object members))
    (hordered : ∀ {items a},
      items.length ≤ layout.arity ∧
          gather (.ordered (Document.ofValues items) true layout.kind) = .all a ↔
        Form a (.array items))
    (hform : ∀ {a v}, Form a v → (∃ members, v = .object members) ∨ ∃ items, v = .array items)
    (htells : ∀ fields : Fields, fields.Whole → (gather fields).Tells) :
    Reads (Document.asRecord layout gather) Form where
  ok_iff {v a} := by
    cases v with
    | object members =>
        show ((gather (.of members)).both (Fields.of members).intact).settle.map Prod.fst =
          .ok a ↔ _
        rw [← hnamed, Fields.intact_of]
        cases gather (.of members) <;> simp [Gathered.both, Gathered.settle, Except.map]
    | array items =>
        rw [← hordered, Document.asRecord_array]
        by_cases hfits : items.length ≤ layout.arity
        · rw [if_pos hfits]
          cases gather (.ordered (Document.ofValues items) true layout.kind) <;>
            simp [hfits, Gathered.both, Gathered.settle, Except.map]
        · rw [if_neg hfits]
          cases gather (.ordered (Document.ofValues items) true layout.kind) <;>
            simp [hfits, Gathered.both, Gathered.settle, Except.map]
    | _ =>
        constructor
        · rintro ⟨⟩
        · intro h
          obtain ⟨_, ⟨⟩⟩ | ⟨_, ⟨⟩⟩ := hform h
  tells {v e} hread := by
    cases v with
    | object members =>
        refine Gathered.Tells.settle ?_ hread
        rw [← Fields.of, Fields.intact_of]
        exact (htells _ (.named members)).both (.all ())
    | array items =>
        rw [Document.asRecord_array] at hread
        refine Gathered.Tells.settle ((htells _ (.ordered items layout.kind)).both ?_) hread
        split
        · exact .all ()
        · exact .fault (hsurplus _)
    | _ => exact Except.error.inj hread ▸ Document.unwanted_ne_malformed _ _

end DebugBridge.Json
