/-
Texts are stable.

Whatever way a text was written, reading it and writing down what was read gives a text that is read
as the same again. For all types but one that needs nothing of the first text: each of their members
has a text that is read as this member (`Wire.Lawful`). The one exception is the answer to a
command, whose data are any value; there it matters that they were read (`Document.Bounded`), and
that there is no double among them.

Each type has two lemmas, that its form fits into a text and that its reader takes its form. The
bounds on how deep a form is come from the type and not from its members, apart from the data of an
answer, and these leave one level for the answer around them.
-/
import DebugBridge.Bridge
import DebugBridge.Command
import DebugBridge.Config
import DebugBridge.Event
import DebugBridge.Failure
import DebugBridge.Stack
import DebugBridge.Variable
import DebugBridge.Proofs.Json.Wire
import DebugBridge.Proofs.Json.Reading

namespace DebugBridge

open Json (Decoder Document Fields Gathered Value Wire nestingLimit)
open Json.Value (Fits)

/-! ### Statuses -/

theorem RunState.decode_name (s : RunState) : decode (.ofValue (.string s.name)) = .ok s := by
  refine Document.asVariant_ofValue ?_
  cases s <;> rfl

theorem RunState.lawful : Wire.Lawful RunState where
  fits s := .string s.name
  decode_encode := decode_name

theorem StackEntry.fits_encode (e : StackEntry) (room : Nat) : (Wire.encode e).Fits (room + 1) :=
  .object (by simp)

/-- An entry is read from its three members, in whatever order they stand. -/
theorem StackEntry.decode_members (e : StackEntry) {members : List (String × Value)}
    (hkeys : (members.map Prod.fst).Nodup) (hfile : members.lookup "file" = some (.string e.file))
    (hline : members.lookup "line" = some (.natural e.line.toNat))
    (hfunction : members.lookup "function" = some (.string e.function)) :
    Wire.decode (.ofValue (.object members)) = .ok e := by
  obtain ⟨file, line, function⟩ := e
  refine Document.asRecord_ofValue
    (Gathered.seq_eq_all (Gathered.seq_eq_all (Gathered.map_eq_all ?file) ?line) ?function)
  case file => exact Fields.field_of hkeys hfile rfl
  case line => exact Fields.field_of hkeys hline (Document.asUInt32_ofValue line)
  case function => exact Fields.field_of hkeys hfunction rfl

theorem StackEntry.decode_encode (e : StackEntry) :
    Wire.decode (.ofValue (Wire.encode e)) = .ok e :=
  e.decode_members (by simp) rfl rfl rfl

theorem StackEntry.lawful : Wire.Lawful StackEntry :=
  ⟨fun e => e.fits_encode _, decode_encode⟩

theorem Status.fits_encode (s : Status) (room : Nat) : (Wire.encode s).Fits (room + 3) := by
  have hstack : (Value.list Wire.encode s.stack).Fits (room + 2) :=
    .list fun e _ => e.fits_encode room
  exact .object (by simp [hstack])

theorem Status.decode_encode (s : Status) : Wire.decode (.ofValue (Wire.encode s)) = .ok s := by
  obtain ⟨runState, stack⟩ := s
  refine Document.asRecord_ofValue (Gathered.seq_eq_all (Gathered.map_eq_all ?runState) ?stack)
  case runState => exact Fields.field_of (by simp) rfl runState.decode_name
  case stack =>
    exact Fields.fieldDefault_of (by simp) rfl
      (Document.asList_ofValue fun e _ => e.decode_encode)

theorem Status.lawful : Wire.Lawful Status :=
  ⟨fun s => s.fits_encode _, decode_encode⟩

theorem StackFrame.fits_encode (f : StackFrame) (room : Nat) : (Wire.encode f).Fits (room + 1) :=
  .object (by simp)

theorem StackFrame.lawful : Wire.Lawful StackFrame where
  fits f := f.fits_encode _
  decode_encode f := by
    obtain ⟨index, function, file, line⟩ := f
    refine Document.asRecord_ofValue (Gathered.seq_eq_all (Gathered.seq_eq_all
      (Gathered.seq_eq_all (Gathered.map_eq_all ?index) ?function) ?file) ?line)
    case index => exact Fields.field_of (by simp) rfl (Document.asUInt64_ofValue index)
    case function => exact Fields.field_of (by simp) rfl rfl
    case file => exact Fields.field_of (by simp) rfl rfl
    case line => exact Fields.field_of (by simp) rfl (Document.asUInt32_ofValue line)

/-! ### Variables -/

theorem RemoteVariable.fits_encode (v : RemoteVariable) (room : Nat) :
    (Wire.encode v).Fits (room + 1) :=
  .object (by simp)

theorem RemoteVariable.decode_encode (v : RemoteVariable) :
    Wire.decode (.ofValue (Wire.encode v)) = .ok v := by
  obtain ⟨name, type, value⟩ := v
  refine Document.asRecord_ofValue
    (Gathered.seq_eq_all (Gathered.seq_eq_all (Gathered.map_eq_all ?name) ?type) ?value)
  all_goals exact Fields.field_of (by simp) rfl rfl

theorem RemoteVariable.lawful : Wire.Lawful RemoteVariable :=
  ⟨fun v => v.fits_encode _, decode_encode⟩

theorem VariableList.lawful : Wire.Lawful VariableList where
  fits l := by
    have hentries : (Value.list Wire.encode l.entries).Fits (125 + 1) :=
      .list fun v _ => v.fits_encode 124
    exact .object (by simp [hentries])
  decode_encode l := by
    obtain ⟨entries⟩ := l
    refine Document.asRecord_ofValue (Gathered.map_eq_all (Fields.field_of (by simp) rfl ?_))
    exact Document.asList_ofValue fun v _ => v.decode_encode

theorem Variable.fits_encode (v : Variable) (room : Nat) : (Wire.encode v).Fits (room + 1) :=
  .object (by simp)

theorem Variable.lawful : Wire.Lawful Variable where
  fits v := v.fits_encode _
  decode_encode v := by
    obtain ⟨name, type, value, reference⟩ := v
    refine Document.asRecord_ofValue (Gathered.seq_eq_all (Gathered.seq_eq_all
      (Gathered.seq_eq_all (Gathered.map_eq_all ?name) ?type) ?value) ?reference)
    case reference => exact Fields.field_of (by simp) rfl (Document.asInt64_ofValue reference)
    all_goals exact Fields.field_of (by simp) rfl rfl

theorem Scope.fits_encode (s : Scope) (room : Nat) : (Wire.encode s).Fits (room + 1) :=
  .object (by simp)

theorem Scope.lawful : Wire.Lawful Scope where
  fits s := s.fits_encode _
  decode_encode s := by
    obtain ⟨name, reference, expensive⟩ := s
    refine Document.asRecord_ofValue
      (Gathered.seq_eq_all (Gathered.seq_eq_all (Gathered.map_eq_all ?name) ?reference) ?expensive)
    case reference => exact Fields.field_of (by simp) rfl (Document.asInt64_ofValue reference)
    all_goals exact Fields.field_of (by simp) rfl rfl

theorem Thread.lawful : Wire.Lawful Thread where
  fits t := .object (by simp)
  decode_encode t := by
    obtain ⟨id, name⟩ := t
    refine Document.asRecord_ofValue (Gathered.seq_eq_all (Gathered.map_eq_all ?id) ?name)
    case id => exact Fields.field_of (by simp) rfl (Document.asInt64_ofValue id)
    case name => exact Fields.field_of (by simp) rfl rfl

/-! ### Options -/

theorem Config.lawful : Wire.Lawful Config where
  fits c := by
    have htimeout :
        (Value.option (fun ms : UInt64 => .natural ms.toNat) c.callTimeout).Fits 126 := by
      cases c.callTimeout <;> simp [Value.option]
    exact .object (by simp [htimeout])
  decode_encode c := by
    obtain ⟨endpoint, stopOnEntry, noDebug, callTimeout⟩ := c
    refine Document.asRecord_ofValue (Gathered.seq_eq_all (Gathered.seq_eq_all
      (Gathered.seq_eq_all (Gathered.map_eq_all ?endpoint) ?stopOnEntry) ?noDebug) ?callTimeout)
    case callTimeout =>
      refine Fields.fieldDefault_of (by simp) rfl ?_
      cases callTimeout with
      | none => rfl
      | some ms =>
          show (Document.asUInt64 (.ofValue (.natural ms.toNat))).map some = _
          rw [Document.asUInt64_ofValue]
          rfl
    all_goals exact Fields.fieldDefault_of (by simp) rfl rfl

/-! ### Breakpoints and events

An event is an object with a tag that says which fields to read. The tag is read first and taken
out, and the fields are read from what is left, so there is one more step than with a record.
-/

theorem Breakpoint.fits_encode (b : Breakpoint) (room : Nat) : (Wire.encode b).Fits (room + 1) :=
  .object (by simp)

theorem Breakpoint.decode_encode (b : Breakpoint) :
    Wire.decode (.ofValue (Wire.encode b)) = .ok b := by
  obtain ⟨id, path, line, verified⟩ := b
  refine Document.asRecord_ofValue (Gathered.seq_eq_all (Gathered.seq_eq_all
    (Gathered.seq_eq_all (Gathered.map_eq_all ?id) ?path) ?line) ?verified)
  case id => exact Fields.field_of (by simp) rfl (Document.asUInt64_ofValue id)
  case line => exact Fields.field_of (by simp) rfl (Document.asUInt32_ofValue line)
  all_goals exact Fields.field_of (by simp) rfl rfl

theorem Breakpoint.lawful : Wire.Lawful Breakpoint :=
  ⟨fun b => b.fits_encode _, decode_encode⟩

theorem StopReason.decode_name (r : StopReason) (isUnit : Decoder Unit) :
    decode isUnit (.ofValue (.string r.name)) = .ok r := by
  refine Document.asVariant_ofValue ?_
  cases r <;> rfl

theorem StopReason.lawful : Wire.Lawful StopReason where
  fits r := .string r.name
  decode_encode r := r.decode_name _

namespace Event

/-- An event is read by its name, and then by the fields that the name asks for. The name is a
member among the others, so none of these may be called like it. -/
theorem decode_tagged {name : String} {fields : List (String × Value)} {e : Event}
    (hkeys : "event" ∉ fields.map Prod.fst)
    (hvalue : ∃ v,
      Document.asValue (.ofValue (.object (("event", .string name) :: fields))) = .ok v)
    (hfields : ofName name (.ofValue (.object fields)) = .ok e) :
    decode (.ofValue (.object (("event", .string name) :: fields))) = .ok e := by
  have hname : Fields.field 0 "event" Document.asString
      (.named (Document.ofMembers (("event", .string name) :: fields)) true) = .all name := by
    refine Fields.fieldOr_named_eq_all_iff.2 (.inr ⟨.string name, ?_, rfl⟩)
    rw [Document.ofMembers, Document.under_cons, if_pos rfl, Document.under_of_notMem hkeys]
    rfl
  have hrest : (Document.ofMembers (("event", .string name) :: fields)).filter
      (fun member => member.1 ≠ some "event") = Document.ofMembers fields := by
    rw [Document.ofMembers, List.filter_cons_of_neg (by simp), List.filter_eq_self]
    intro member hmember
    rw [Document.ofMembers_eq_map] at hmember
    obtain ⟨⟨key, v⟩, hmem, rfl⟩ := List.mem_map.1 hmember
    have hne : key ≠ "event" := fun heq => hkeys (List.mem_map.2 ⟨_, hmem, heq⟩)
    simpa using hne
  obtain ⟨v, hv⟩ := hvalue
  simp only [Document.ofValue] at hv ⊢
  simp only [decode, hv, hname, hrest]
  exact hfields

theorem exists_asValue (e : Event) : ∃ v, Document.asValue (.ofValue (Wire.encode e)) = .ok v := by
  cases e <;> exact ⟨_, rfl⟩

theorem decode_encode (e : Event) : decode (.ofValue (Wire.encode e)) = .ok e := by
  have hvalue := e.exists_asValue
  cases e with
  | started endpoint =>
      refine decode_tagged (by simp) hvalue ?_
      simp only [name, ofName]
      refine Document.asRecord_ofValue ?_
      refine Gathered.map_eq_all ?_
      exact Fields.field_of (by simp) rfl rfl
  | ended => exact decode_tagged (by simp) hvalue rfl
  | stopped reason thread =>
      refine decode_tagged (by simp) hvalue ?_
      simp only [name, ofName]
      refine Document.asRecord_ofValue ?_
      refine Gathered.seq_eq_all (Gathered.map_eq_all ?reason) ?thread
      case reason => exact Fields.field_of (by simp) rfl (reason.decode_name _)
      case thread => exact Fields.field_of (by simp) rfl (Document.asInt64_ofValue thread)
  | continued thread =>
      refine decode_tagged (by simp) hvalue ?_
      simp only [name, ofName]
      refine Document.asRecord_ofValue ?_
      refine Gathered.map_eq_all ?_
      exact Fields.field_of (by simp) rfl (Document.asInt64_ofValue thread)
  | breakpointVerified b =>
      refine decode_tagged (by simp) hvalue ?_
      simp only [name, ofName]
      refine Document.asRecord_ofValue ?_
      refine Gathered.map_eq_all ?_
      exact Fields.field_of (by simp) rfl b.decode_encode

theorem fits_encode (e : Event) (room : Nat) : (Wire.encode e).Fits (room + 2) := by
  refine .object (List.forall_mem_cons.2 ⟨.string _, ?_⟩)
  cases e with
  | breakpointVerified b => simp [b.fits_encode room]
  | _ => simp

theorem lawful : Wire.Lawful Event :=
  ⟨fun e => e.fits_encode _, decode_encode⟩

end Event

/-! ### Errors

Likewise an error, with its kind for the tag and one field for what there is to say about it. Kinds
that say nothing have no such field, and are read without it.
-/

namespace BridgeError

theorem decodeKind_kind (e : BridgeError) :
    decodeKind (.ofValue (.string e.kind)) = .ok e.kind := by
  refine Document.asVariant_ofValue ?_
  cases e <;> rfl

/-- What is written under `message`, if anything. -/
def content? : BridgeError → Option Value
  | unknownVariableReference reference => some (.integer reference.toInt)
  | e => e.detail?.map .string

theorem encode_eq (e : BridgeError) : Wire.encode e =
    .object (("type", .string e.kind) :: (e.content?.map fun v => ("message", v)).toList) := by
  cases e <;> rfl

theorem ofKind_kind (e : BridgeError) : ofKind e.kind (e.content?.map .ofValue) = .ok e := by
  cases e with
  | unknownVariableReference reference =>
      simp only [kind, content?, Option.map_some, ofKind, Document.asInt64_ofValue]
      rfl
  | _ => rfl

theorem decode_encode (e : BridgeError) : Wire.decode (.ofValue (Wire.encode e)) = .ok e := by
  have hrecord : Document.asRecord { name := "BridgeError", arity := 2 }
      (fun fields => Prod.mk <$> fields.field 0 "type" decodeKind
        <*> fields.fieldOr (some none) none 1 "message" fun content => .ok (some content))
      (.ofValue (.object (("type", .string e.kind) ::
        (e.content?.map fun v => ("message", v)).toList))) =
        .ok (e.kind, e.content?.map .ofValue) := by
    refine Document.asRecord_ofValue (Gathered.seq_eq_all (Gathered.map_eq_all ?kind) ?content)
    case kind =>
      refine Fields.field_of ?_ rfl e.decodeKind_kind
      cases e.content? <;> simp
    case content =>
      cases e.content? with
      | none => exact Fields.fieldOr_of_notMem (by simp)
      | some v => exact Fields.fieldOr_of (by simp) rfl rfl
  rw [encode_eq]
  let continued (read : Except Json.DecodeError (String × Option Document)) :=
    read.bind fun found => ofKind found.1 found.2
  exact (congrArg continued hrecord).trans e.ofKind_kind

theorem lawful : Wire.Lawful BridgeError where
  fits e := by
    rw [encode_eq]
    refine .object (List.forall_mem_cons.2 ⟨.string _, ?_⟩)
    cases e <;> simp [content?, detail?]
  decode_encode := decode_encode

end BridgeError

/-! ### Answers to commands

Data can be anything, and a text that is too deep or not sorted is possible as a value and
impossible as a reading. So here the first text matters: what is read from it is sorted, is not
`null` and leaves the room that an answer needs.
-/

namespace CommandResponse

/-- An answer whose data could have been read is read as it was written. -/
theorem decode_encode {r : CommandResponse}
    (hdata : ∀ v, r.data = some v → v ≠ .null ∧ v.Sorted) :
    Wire.decode (.ofValue (Wire.encode r)) = .ok r := by
  obtain ⟨code, data⟩ := r
  have hkeys : (((code.map fun code => ("code", Value.integer code.toInt)).toList
      ++ (data.map fun data => ("data", data)).toList).map Prod.fst).Nodup := by
    cases code <;> cases data <;> simp
  refine Document.asRecord_ofValue (Gathered.seq_eq_all (Gathered.map_eq_all ?code) ?data)
  case code =>
    cases code with
    | none => cases data <;> exact Fields.fieldOr_of_notMem (by simp)
    | some code =>
        refine Fields.fieldDefault_of hkeys rfl (Document.asOption_ofValue nofun ?_)
        exact Document.asInt32_ofValue code
  case data =>
    cases data with
    | none => cases code <;> exact Fields.fieldOr_of_notMem (by simp)
    | some v =>
        obtain ⟨hnull, hsorted⟩ := hdata v rfl
        have hvalue : Document.asValue (.ofValue v) = .ok v := by
          rw [Document.asValue, Document.value?_ofValue hsorted]
        cases code <;> exact Fields.fieldDefault_of hkeys rfl
          (Document.asOption_ofValue hnull hvalue)

/-- The data of an answer that was read. -/
theorem data_of_text {text : String} {r : CommandResponse} (h : Wire.ofText? text = some r) :
    ∀ v, r.data = some v → v ≠ .null ∧ v.Sorted ∧ (v.hasDouble = false → v.Fits 126) := by
  intro v hv
  obtain ⟨fields, hgather, hbounded⟩ :=
    (Json.bounded_read text).asRecord (Wire.decode_of_ofText? h)
  obtain ⟨_, data, hcode, hdata, rfl⟩ := Gathered.seq_eq_all_iff.1 hgather
  obtain ⟨code, -, rfl⟩ := Gathered.map_eq_all_iff.1 hcode
  obtain rfl : data = some v := hv
  rcases Fields.exists_of_fieldOr hdata with hmissing | hmissing | ⟨d, hd, hread⟩
  · exact nomatch hmissing
  · exact nomatch hmissing
  · obtain ⟨hvalue, hnull⟩ := Document.asOption_asValue_eq_some_iff.1 hread
    exact ⟨hnull, (hbounded d hd).value hvalue⟩

theorem fits_encode {r : CommandResponse} (hdata : ∀ v, r.data = some v → v.Fits 126) :
    (Wire.encode r).Fits nestingLimit := by
  obtain ⟨code, data⟩ := r
  refine .object (List.forall_mem_append.2 ⟨?_, ?_⟩)
  · cases code <;> simp
  · cases data with
    | none => simp
    | some v => simpa using hdata v rfl

end CommandResponse

/-! ### All of them

What was read has a text, that text is read as the same, and therefore it is written the same. The
second half is a consequence of the first, for any type.
-/

/-- What is written for `a` reads back as `a`, so that it is written the same again. -/
def Json.Wire.Stable {α : Type} [Wire α] (a : α) : Prop :=
  ofText? (toText a) = some a ∧ ∀ b : α, ofText? (toText a) = some b → toText b = toText a

theorem Json.Wire.stable_of {α : Type} [Wire α] {a : α} (h : ofText? (toText a) = some a) :
    Stable a := by
  refine ⟨h, fun b hb => ?_⟩
  rw [h] at hb
  rw [Option.some.inj hb]

theorem Json.Wire.Lawful.stable {α : Type} [Wire α] (h : Lawful α) (a : α) : Stable a :=
  stable_of (h.ofText?_toText a)

/-- **Texts are stable.** Whatever text was read, what was read has a text that is read as the same
and written the same again. For the answer to a command that holds as long as there is no double
among its data.

For all types but the last this is true of every value, and not only of those that were read. The
data of an answer may be any value at all, and whether it can be written again as it was depends on
its having been read. -/
theorem texts_are_stable :
    (∀ a : RunState, Wire.Stable a) ∧ (∀ a : StopReason, Wire.Stable a) ∧
      (∀ a : Event, Wire.Stable a) ∧ (∀ a : BridgeError, Wire.Stable a) ∧
      (∀ a : Config, Wire.Stable a) ∧ (∀ a : StackEntry, Wire.Stable a) ∧
      (∀ a : Status, Wire.Stable a) ∧ (∀ a : RemoteVariable, Wire.Stable a) ∧
      (∀ a : VariableList, Wire.Stable a) ∧ (∀ a : Breakpoint, Wire.Stable a) ∧
      (∀ a : StackFrame, Wire.Stable a) ∧ (∀ a : Variable, Wire.Stable a) ∧
      (∀ a : Scope, Wire.Stable a) ∧ (∀ a : Thread, Wire.Stable a) ∧
      ∀ (text : String) (r : CommandResponse), Wire.ofText? text = some r →
        (∀ v, r.data = some v → v.hasDouble = false) → Wire.Stable r := by
  refine ⟨RunState.lawful.stable, StopReason.lawful.stable, Event.lawful.stable,
    BridgeError.lawful.stable, Config.lawful.stable, StackEntry.lawful.stable, Status.lawful.stable,
    RemoteVariable.lawful.stable, VariableList.lawful.stable, Breakpoint.lawful.stable,
    StackFrame.lawful.stable, Variable.lawful.stable, Scope.lawful.stable, Thread.lawful.stable, ?_⟩
  intro text r hread hdouble
  have hdata := CommandResponse.data_of_text hread
  refine Wire.stable_of (Wire.ofText?_toText_of ?_ ?_)
  · exact CommandResponse.fits_encode fun v hv => (hdata v hv).2.2 (hdouble v hv)
  · exact CommandResponse.decode_encode fun v hv => ⟨(hdata v hv).1, (hdata v hv).2.1⟩

/-- Blanks, needless escapes and the order of keys do not come back. What does is stable, here with
the largest integer and with control characters in the keys. -/
theorem answer_is_stable :
    let text := "[null, \x7b\"b\\n\" : [\"\\u00e9\", -7], \"a\\u0001\": 18446744073709551615\x7d]"
    ∃ r : CommandResponse, Wire.ofText? text = some r ∧
      Wire.toText r =
        "\x7b\"data\":\x7b\"a\\u0001\":18446744073709551615,\"b\\n\":[\"é\",-7]\x7d\x7d" ∧
      Wire.Stable r := by
  intro text
  have hwritten : (Wire.ofText? text).map (fun r : CommandResponse => (Wire.toText r,
      r.data.map Value.hasDouble)) = some
        ("\x7b\"data\":\x7b\"a\\u0001\":18446744073709551615,\"b\\n\":[\"é\",-7]\x7d\x7d",
          some false) := by
    decide +kernel
  obtain ⟨r, hread, hr⟩ := Option.map_eq_some_iff.1 hwritten
  obtain ⟨htext, hdouble⟩ := Prod.mk.inj hr
  obtain ⟨-, -, -, -, -, -, -, -, -, -, -, -, -, -, hstable⟩ := texts_are_stable
  refine ⟨r, hread, htext, hstable text r hread fun v hv => ?_⟩
  rw [hv] at hdouble
  exact Option.some.inj hdouble

end DebugBridge
