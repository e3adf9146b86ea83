/-
What a frame is taken for.

A frame is an envelope if its text spells one (`IsEnvelope`): an object with one type and one
message among whatever else, or the two of them as an array. That settles what comes of it. A status
comes of an envelope of that type whose message reports one, an unknown type of any other envelope,
and of all else an error of decoding. The grammar says what counts as a text, so this is about every
text there is.

An envelope is read straight from its document, where a repeated key is still to be seen, and its
message as a value, where it is not. This is why `Wraps` speaks of documents, and `IsEnvelope` of a
value in the place of the message.
-/
import DebugBridge.Proofs.Json.Form
import DebugBridge.Proofs.Json.Recognition
import DebugBridge.Push

namespace DebugBridge

open Json (DecodeError Decoder Document Fields Gathered Layout Spells Value Wire)

namespace Json

/-! ### Records in documents of any kind

`Proofs/Json/Form.lean` describes readers by the values they take. An envelope is more than that,
since a document may be closed or not, have keys that are no text and hold what is no value. The
lemmas here are the ones of records that do not assume a value.
-/

namespace Fields

variable {members : List (Option String × Document)} {items : List Document} {closed : Bool}
  {kind : String}

theorem intact_named_iff :
    (named members closed).intact = .all () ↔
      (∀ member ∈ members, member.1.isSome = true) ∧ closed = true := by
  have hkeys : (members.findIdx? fun member => member.1.isNone) = none ↔
      ∀ member ∈ members, member.1.isSome = true := by
    simp [List.findIdx?_eq_none_iff]
  rw [← hkeys, intact]
  cases members.findIdx? fun member => member.1.isNone <;> cases closed <;> simp

theorem intact_ordered_iff : (ordered items closed kind).intact = .all () ↔ closed = true := by
  cases closed <;> simp [intact]

end Fields

namespace Document

variable {α : Type} {layout : Layout} {gather : Fields → Gathered α} {closed : Bool} {a : α}

theorem asRecord_object_eq_ok_iff {members : List (Option String × Document)} :
    asRecord layout gather (object members closed) = .ok a ↔
      gather (.named members closed) = .all a ∧ (Fields.named members closed).intact = .all () := by
  simp only [asRecord, map_eq_ok_iff, Gathered.settle_eq_ok_iff, Prod.exists,
    Gathered.both_eq_all_iff]
  simp [Unique.exists_iff]

theorem asRecord_array_eq_ok_iff {items : List Document} :
    asRecord layout gather (array items closed) = .ok a ↔
      gather (.ordered items closed layout.kind) = .all a ∧ items.length ≤ layout.arity ∧
        closed = true := by
  have hintact : (Fields.ordered items closed layout.kind).intact = .all () ↔ closed = true :=
    Fields.intact_ordered_iff
  simp only [asRecord, map_eq_ok_iff, Gathered.settle_eq_ok_iff, Prod.exists,
    Gathered.both_eq_all_iff, ← hintact]
  by_cases hfits : items.length ≤ layout.arity <;> simp [hfits, Unique.exists_iff]

end Document

end Json

/-! ### Envelopes

What stands under a name is taken as a list, which is empty, has one item or has several. That makes
one predicate serve for envelopes with a message, without one and with too many.
-/

/-- The document is closed and holds one type; `contents` is all that it holds for a message. It may
hold no message or several, and the reader takes neither as one (`Means`). -/
inductive Wraps (type : String) : List Document → Document → Prop
  | object {members : List (Option String × Document)}
      (hkeys : ∀ member ∈ members, member.1.isSome = true)
      (htype : Document.under "type" members = [.string type]) :
      Wraps type (Document.under "message" members) (.object members true)
  | array (content : Document) : Wraps type [content] (.array [.string type, content] true)

/-- The text is an envelope of this type around this message. -/
def IsEnvelope (text type : String) (message : Value) : Prop :=
  message ≠ .null ∧ ∃ content d, content.value? = some message ∧ Wraps type [content] d ∧
    Spells 0 (.value d) text.toList

/-- The text is an envelope of this type around nothing, or around `null`. -/
def IsEmptyEnvelope (text type : String) : Prop :=
  ∃ d, (Wraps type [] d ∨ Wraps type [.null] d) ∧ Spells 0 (.value d) text.toList

namespace Json

theorem decodeText_eq_ok_iff {α : Type} {decode : Decoder α} {text : String} {a : α} :
    Wire.decodeText decode text = .ok a ↔
      ∃ d, Spells 0 (.value d) text.toList ∧ decode d = .ok a := by
  simp only [← read_eq_iff, Wire.decodeText]
  obtain ⟨d, complete⟩ := read text
  cases hread : decode d <;> cases complete <;> simp [hread]

namespace Document

theorem asString_eq_ok_iff {d : Document} {s : String} : asString d = .ok s ↔ d = string s := by
  cases d <;> simp [asString]

end Document

end Json

namespace Wraps

variable {type : String} {contents : List Document} {closed : Bool}

theorem object_iff {members : List (Option String × Document)} :
    Wraps type contents (.object members closed) ↔
      ((∀ member ∈ members, member.1.isSome = true) ∧ closed = true) ∧
        Document.under "type" members = [.string type] ∧
          Document.under "message" members = contents := by
  constructor
  · rintro ⟨hkeys, htype⟩
    exact ⟨⟨hkeys, rfl⟩, htype, rfl⟩
  · rintro ⟨⟨hkeys, rfl⟩, htype, rfl⟩
    exact .object hkeys htype

theorem array_iff {items : List Document} :
    Wraps type contents (.array items closed) ↔
      closed = true ∧ ∃ content, items = [.string type, content] ∧ contents = [content] := by
  constructor
  · rintro ⟨⟩
    exact ⟨rfl, _, rfl, rfl⟩
  · rintro ⟨rfl, content, rfl, rfl⟩
    exact .array content

end Wraps

namespace Envelope

variable {type : String} {message : Option Value}

/-- What is made of all that stands for a message. -/
def Means (contents : List Document) (message : Option Value) : Prop :=
  contents = [] ∧ message = none ∨
    ∃ content, contents = [content] ∧ content.asOption Document.asValue = .ok message

theorem gather_eq_all_iff {fields : Fields} :
    (Envelope.mk <$> fields.field 0 "type" Document.asString
        <*> fields.fieldOption 1 "message" Document.asValue) = .all ⟨type, message⟩ ↔
      fields.field 0 "type" Document.asString = .all type ∧
        fields.fieldOption 1 "message" Document.asValue = .all message := by
  simp only [Gathered.seq_eq_all_iff, Gathered.map_eq_all_iff]
  constructor
  · rintro ⟨_, m, ⟨t, ht, rfl⟩, hm, heq⟩
    obtain ⟨rfl, rfl⟩ := Envelope.mk.inj heq
    exact ⟨ht, hm⟩
  · rintro ⟨ht, hm⟩
    exact ⟨_, message, ⟨type, ht, rfl⟩, hm, rfl⟩

theorem decode_eq_ok_iff {d : Document} :
    decode d = .ok ⟨type, message⟩ ↔
      ∃ contents, Wraps type contents d ∧ Means contents message := by
  cases d with
  | object members closed =>
      rw [decode, Document.asRecord_object_eq_ok_iff, gather_eq_all_iff, Fields.intact_named_iff,
        Fields.field, Fields.fieldOption, Fields.fieldOr_named_eq_all_iff,
        Fields.fieldOr_named_eq_all_iff]
      have hmeans : ∀ contents : List Document, contents = [] ∧ some none = some message ∨
          (∃ content, contents = [content] ∧ content.asOption Document.asValue = .ok message) ↔
            Means contents message := by
        intro contents
        simp only [Means, Option.some.injEq, eq_comm (a := none)]
      rw [hmeans]
      simp only [Wraps.object_iff, Document.asString_eq_ok_iff, reduceCtorEq, and_false, false_or,
        exists_eq_right]
      constructor
      · rintro ⟨⟨htype, hmessage⟩, hintact⟩
        exact ⟨_, ⟨hintact, htype, rfl⟩, hmessage⟩
      · rintro ⟨_, ⟨hintact, htype, rfl⟩, hmessage⟩
        exact ⟨⟨htype, hmessage⟩, hintact⟩
  | array items closed =>
      rw [decode, Document.asRecord_array_eq_ok_iff, gather_eq_all_iff, Fields.field,
        Fields.fieldOption, Fields.fieldOr_ordered_eq_all_iff, Fields.fieldOr_ordered_eq_all_iff]
      simp only [Wraps.array_iff, Document.asString_eq_ok_iff, reduceCtorEq, and_false, false_or]
      constructor
      · rintro ⟨⟨⟨_, htype, rfl⟩, content, hcontent, hread⟩, hlength, rfl⟩
        refine ⟨[content], ⟨rfl, content, ?_, rfl⟩, .inr ⟨content, rfl, hread⟩⟩
        rcases items with _ | ⟨first, _ | ⟨second, _ | ⟨third, more⟩⟩⟩
        · simp at htype
        · simp at hcontent
        · obtain rfl := Option.some.inj htype
          obtain rfl := Option.some.inj hcontent
          rfl
        · simp at hlength
      · rintro ⟨_, ⟨rfl, content, rfl, rfl⟩, ⟨⟨⟩, -⟩ | ⟨_, ⟨⟩, hread⟩⟩
        exact ⟨⟨⟨_, rfl, rfl⟩, content, rfl, hread⟩, Nat.le_refl 2, rfl⟩
  | _ =>
      constructor
      · rintro ⟨⟩
      · rintro ⟨_, ⟨⟩, -⟩

theorem means_some_iff {contents : List Document} {m : Value} :
    Means contents (some m) ↔
      ∃ content, contents = [content] ∧ content.value? = some m ∧ m ≠ .null := by
  simp [Means, Document.asOption_asValue_eq_ok_iff]

theorem means_none_iff {contents : List Document} :
    Means contents none ↔ contents = [] ∨ contents = [.null] := by
  simp [Means, Document.asOption_asValue_eq_ok_iff]

end Envelope

theorem decodeText_eq_some_iff {text type : String} {m : Value} :
    Wire.decodeText Envelope.decode text = .ok ⟨type, some m⟩ ↔ IsEnvelope text type m := by
  simp only [Json.decodeText_eq_ok_iff, Envelope.decode_eq_ok_iff, Envelope.means_some_iff,
    IsEnvelope]
  constructor
  · rintro ⟨d, htext, _, hwraps, content, rfl, hm, hnull⟩
    exact ⟨hnull, content, d, hm, hwraps, htext⟩
  · rintro ⟨hnull, content, d, hm, hwraps, htext⟩
    exact ⟨d, htext, _, hwraps, content, rfl, hm, hnull⟩

theorem decodeText_eq_none_iff {text type : String} :
    Wire.decodeText Envelope.decode text = .ok ⟨type, none⟩ ↔ IsEmptyEnvelope text type := by
  simp only [Json.decodeText_eq_ok_iff, Envelope.decode_eq_ok_iff, Envelope.means_none_iff,
    IsEmptyEnvelope]
  constructor
  · rintro ⟨d, htext, _, hwraps, rfl | rfl⟩
    · exact ⟨d, .inl hwraps, htext⟩
    · exact ⟨d, .inr hwraps, htext⟩
  · rintro ⟨d, hwraps | hwraps, htext⟩
    · exact ⟨d, htext, _, hwraps, .inl rfl⟩
    · exact ⟨d, htext, _, hwraps, .inr rfl⟩

/-! ### Frames

Of an envelope with a message, the type decides. If it is the one of a status, the message is read
as a status, and a failure of that is an error of decoding; if it is another, the message is not
looked at.
-/

namespace Status

variable {text : String}

theorem ofFrame_eq_ok_iff {s : Status} :
    ofFrame text = .ok s ↔ ∃ m, IsEnvelope text "status" m ∧ ofValue m = .ok s := by
  simp only [← decodeText_eq_some_iff, ofFrame]
  cases hread : Wire.decodeText Envelope.decode text with
  | error cause => simp
  | ok envelope =>
      obtain ⟨type, _ | m⟩ := envelope
      · simp
      · by_cases htype : type = "status"
        · subst htype
          cases hstatus : ofValue m <;> simp [hstatus, Except.mapError]
        · simp [htype]

theorem ofFrame_eq_unknown_iff {type : String} :
    ofFrame text = .error (.unknownMessageType type) ↔
      type ≠ "status" ∧ ∃ m, IsEnvelope text type m := by
  simp only [← decodeText_eq_some_iff, ofFrame]
  cases hread : Wire.decodeText Envelope.decode text with
  | error cause => simp
  | ok envelope =>
      obtain ⟨found, _ | m⟩ := envelope
      · simp
      · by_cases hfound : found = "status"
        · subst hfound
          cases hstatus : ofValue m <;> simp +contextual [hstatus, Except.mapError, eq_comm]
        · simp +contextual [hfound, eq_comm]

/-- Neither a status nor an unknown type: then the frame, or the status in it, is not read. -/
theorem exists_cause_of_ofFrame (text : String) :
    (∃ s, ofFrame text = .ok s) ∨ (∃ type, ofFrame text = .error (.unknownMessageType type)) ∨
      ∃ cause, ofFrame text = .error (.decode cause) := by
  unfold ofFrame
  split
  · exact .inr (.inr ⟨_, rfl⟩)
  · exact .inr (.inr ⟨_, rfl⟩)
  · next type m _ =>
      split
      · cases ofValue m with
        | error cause => exact .inr (.inr ⟨cause, rfl⟩)
        | ok s => exact .inl ⟨s, rfl⟩
      · exact .inr (.inl ⟨type, rfl⟩)

/-- **What comes of a frame.** It gives a status exactly if it is a status envelope around one, and
an unknown type exactly if it is an envelope of another type, whatever is in it. Every other text,
among them the envelopes without a message, gives an error of decoding.

The frame is read in two steps, first the envelope and then what is in it. The two kinds of texts
that are no error are told by the grammar (`IsEnvelope`), and any other outcome is an error of
decoding. -/
theorem ofFrame_classifies (text : String) :
    (∀ s, ofFrame text = .ok s ↔ ∃ m, IsEnvelope text "status" m ∧ ofValue m = .ok s) ∧
      (∀ type, ofFrame text = .error (.unknownMessageType type) ↔
        type ≠ "status" ∧ ∃ m, IsEnvelope text type m) ∧
      ((∃ cause, ofFrame text = .error (.decode cause)) ↔
        (¬∃ m s, IsEnvelope text "status" m ∧ ofValue m = .ok s) ∧
          ¬∃ type m, type ≠ "status" ∧ IsEnvelope text type m) ∧
      ∀ type, IsEmptyEnvelope text type →
        ofFrame text = .error (.decode (.missingField "message")) := by
  refine ⟨fun s => ofFrame_eq_ok_iff, fun type => ofFrame_eq_unknown_iff, ⟨?_, ?_⟩, ?_⟩
  · rintro ⟨cause, hcause⟩
    constructor
    · rintro ⟨m, s, hm, hs⟩
      simp [ofFrame_eq_ok_iff.2 ⟨m, hm, hs⟩] at hcause
    · rintro ⟨type, m, htype, hm⟩
      simp [ofFrame_eq_unknown_iff.2 ⟨htype, m, hm⟩] at hcause
  · rintro ⟨hstatus, hunknown⟩
    rcases exists_cause_of_ofFrame text with ⟨s, hs⟩ | ⟨type, htype⟩ | hcause
    · obtain ⟨m, hm, hs⟩ := ofFrame_eq_ok_iff.1 hs
      exact absurd ⟨m, s, hm, hs⟩ hstatus
    · obtain ⟨htype, m, hm⟩ := ofFrame_eq_unknown_iff.1 htype
      exact absurd ⟨type, m, htype, hm⟩ hunknown
    · exact hcause
  · intro type h
    rw [ofFrame, decodeText_eq_none_iff.2 h]

/-- A message of `null` is noticed before the type is looked at. -/
theorem ofFrame_of_null :
    IsEmptyEnvelope "[\"x\",null]" "x" ∧
      ofFrame "[\"x\",null]" = .error (.decode (.missingField "message")) := by
  have htext : "[\"x\",null]".toList = ['[', '"', 'x', '"', ',', 'n', 'u', 'l', 'l', ']'] := by
    decide +kernel
  have hread : Json.read "[\"x\",null]" = ⟨.array [.string "x", .null] true, true⟩ := by
    rw [Json.read, htext]
    rfl
  have hempty : IsEmptyEnvelope "[\"x\",null]" "x" :=
    ⟨_, .inr (.array .null), Json.read_eq_iff.1 hread⟩
  exact ⟨hempty, (ofFrame_classifies _).2.2.2 "x" hempty⟩

end Status

end DebugBridge
