/-
Records: data with named fields.

A document holds a record either as an object, by name, or as an array, by the order in which the
fields are declared. Members that nobody asks for are passed over. A record can be wrong in several
places; what is reported is the fault that is met first when the document is read from the left.
That a field is missing is noticed only after everything that is there.
-/
import DebugBridge.Json.Decode

namespace DebugBridge.Json

/-- A fault and the place where it is met. -/
structure Fault where
  place : Nat
  error : DecodeError
  deriving DecidableEq, Repr

/-- What has been read of a record: all that was asked for, or the fault met first. -/
inductive Gathered (α : Type) where
  | all (result : α)
  | fault (first : Fault)

namespace Gathered

def map {α β : Type} (f : α → β) : Gathered α → Gathered β
  | all a => all (f a)
  | fault first => fault first

/-- Both parts, or the earlier fault. -/
def both {α β : Type} : Gathered α → Gathered β → Gathered (α × β)
  | all a, all b => all (a, b)
  | fault f, all _ => fault f
  | all _, fault g => fault g
  | fault f, fault g => fault (if g.place < f.place then g else f)

instance : Functor Gathered where
  map := map

instance : Seq Gathered where
  seq f a := map (fun (f, a) => f a) (both f (a ()))

/-- The result, or the error of the fault. -/
def settle {α : Type} : Gathered α → Except DecodeError α
  | all a => .ok a
  | fault first => .error first.error

theorem both_eq_all_iff {α β : Type} {x : Gathered α} {y : Gathered β} {a : α} {b : β} :
    both x y = all (a, b) ↔ x = all a ∧ y = all b := by
  cases x <;> cases y <;> simp [both]

/-- Everything is gathered exactly when the function and its argument are. -/
theorem seq_eq_all_iff {α β : Type} {f : Gathered (α → β)} {x : Gathered α} {b : β} :
    f <*> x = all b ↔ ∃ g a, f = all g ∧ x = all a ∧ g a = b := by
  cases f <;> cases x <;> simp [Seq.seq, both, map]

theorem map_eq_all_iff {α β : Type} {f : α → β} {x : Gathered α} {b : β} :
    f <$> x = all b ↔ ∃ a, x = all a ∧ f a = b := by
  cases x <;> simp [Functor.map, map]

theorem settle_eq_ok_iff {α : Type} {x : Gathered α} {a : α} : x.settle = .ok a ↔ x = all a := by
  cases x <;> simp [settle]

end Gathered

/-- The fields of a record as a document holds them. An array also knows what a record of its kind
is called when it is too short. -/
inductive Fields where
  | named (members : List (Option String × Document)) (closed : Bool)
  | ordered (items : List Document) (closed : Bool) (kind : String)

namespace Fields

/-- What the members from `place` on hold under `name`, if they have that key. The key must not
come twice. -/
def find? {α : Type} (name : String) (decode : Decoder α) (place : Nat) :
    List (Option String × Document) → Option (Gathered α)
  | [] => none
  | (key, content) :: rest =>
    if key = some name then
      match decode content with
      | .error e => some (.fault ⟨place, e⟩)
      | .ok a =>
        match rest.findIdx? fun member => member.1 = some name with
        | some i => some (.fault ⟨place + 1 + i, .duplicateField name⟩)
        | none => some (.all a)
    else find? name decode (place + 1) rest

/-- The field declared at `index`. `absent` is what it is when an object does not have it, `short`
when an array ends before it. -/
def fieldOr {α : Type} (absent short : Option α) (index : Nat) (name : String)
    (decode : Decoder α) : Fields → Gathered α
  | named members _ =>
    match find? name decode 0 members, absent with
    | some found, _ => found
    | none, some a => .all a
    | none, none => .fault ⟨members.length + 1 + index, .missingField name⟩
  | ordered items closed kind =>
    match items[index]?, short with
    | some item, _ =>
      match decode item with
      | .ok a => .all a
      | .error e => .fault ⟨index, e⟩
    | none, some a => .all a
    | none, none =>
      .fault ⟨index, if closed then .invalidLength items.length kind else .malformed⟩

/-- A field that has to be there. -/
def field {α : Type} (index : Nat) (name : String) (decode : Decoder α) : Fields → Gathered α :=
  fieldOr none none index name decode

/-- A field that may be missing from an object, though not from an array. -/
def fieldOption {α : Type} (index : Nat) (name : String) (decode : Decoder α) :
    Fields → Gathered (Option α) :=
  fieldOr (some none) none index name (Document.asOption decode)

/-- A field that may be missing from either. -/
def fieldDefault {α : Type} (default : α) (index : Nat) (name : String) (decode : Decoder α) :
    Fields → Gathered α :=
  fieldOr (some default) (some default) index name decode

/-- The faults that belong to no field: a key that is no text, and an end that is not reached. -/
def intact : Fields → Gathered Unit
  | named members closed =>
    match members.findIdx? fun member => member.1.isNone with
    | some place => .fault ⟨place, .malformed⟩
    | none => if closed then .all () else .fault ⟨members.length, .malformed⟩
  | ordered items closed _ => if closed then .all () else .fault ⟨items.length, .malformed⟩

end Fields

/-- How a record is declared: its name, the number of its fields, and the error of an array with
more items than that. -/
structure Layout where
  name : String
  arity : Nat
  surplus : Nat → DecodeError := fun length => .invalidLength length "fewer elements in array"

/-- What an array shorter than the record is told. -/
def Layout.kind (layout : Layout) : String :=
  let elements := if layout.arity = 1 then "1 element" else s!"{layout.arity} elements"
  s!"struct {layout.name} with {elements}"

/-- Reads a record, of whose fields `gather` takes what it needs. -/
def Document.asRecord {α : Type} (layout : Layout) (gather : Fields → Gathered α) : Decoder α
  | .object members closed =>
    let fields := Fields.named members closed
    ((gather fields).both fields.intact).settle.map Prod.fst
  | .array items closed =>
    let fields := Fields.ordered items closed layout.kind
    let fits : Gathered Unit :=
      if items.length ≤ layout.arity then .all ()
      else .fault ⟨layout.arity, layout.surplus items.length⟩
    (((gather fields).both fits).both fields.intact).settle.map fun result => result.1.1
  | d => .error (d.unwanted s!"struct {layout.name}")

end DebugBridge.Json
