/-
What a debuggee may report.

A status comes as an object or as the bare list of its two parts, and so does each entry of its
stack; a run-state comes as its name or as an object with nothing but this name. `Status.Shape` says
which values these are, with no word of how they are read. A debuggee that is stopped has to give
its stack. One that is not may leave it out, but not from a list.

The shapes are matched to the readers from the leaves upwards, by `Proofs/Json/Form.lean`. What they
leave open is as much a part of them as what they ask for: other members may stand in an object, in
any order, and a list may not be longer than its parts.
-/
import DebugBridge.Failure
import DebugBridge.Status
import DebugBridge.Proofs.Json.Form

namespace DebugBridge

open Json (DecodeError Document Fields Gathered Reads Value Wire)
open Json.Value (Holds Lacks)

/-! ### The shapes

A name counts as held if it stands there once. So an object that gives its stack twice has no shape,
and one that gives something nobody asks for has.
-/

/-- The name of a run-state, alone or as the only key of an object. -/
inductive RunState.Shape (s : RunState) : Value → Prop
  | name : Shape s (.string s.name)
  | only : Shape s (.object [(s.name, .null)])

/-- File, line and function of an entry, by name or in this order. -/
inductive StackEntry.Shape (e : StackEntry) : Value → Prop
  | named {members : List (String × Value)} (hfile : Holds members "file" (.string e.file))
      (hline : Holds members "line" (.natural e.line.toNat))
      (hfunction : Holds members "function" (.string e.function)) : Shape e (.object members)
  | ordered : Shape e (.array [.string e.file, .natural e.line.toNat, .string e.function])

namespace Status

/-- A stack as it is given: `null` gives none. -/
inductive StackShape : Option (List StackEntry) → Value → Prop
  | null : StackShape none .null
  | entries {stack : List StackEntry} {items : List Value}
      (h : List.Forall₂ StackEntry.Shape stack items) : StackShape (some stack) (.array items)

/-- Run-state and stack, by name or in this order. -/
inductive PartsShape (state : RunState) : Option (List StackEntry) → Value → Prop
  | bare {members : List (String × Value)} {v : Value} (hstate : Holds members "runstate" v)
      (hshape : state.Shape v) (hstack : Lacks members "stack") :
      PartsShape state none (.object members)
  | named {members : List (String × Value)} {v w : Value} {given : Option (List StackEntry)}
      (hstate : Holds members "runstate" v) (hshape : state.Shape v)
      (hstack : Holds members "stack" w) (hgiven : StackShape given w) :
      PartsShape state given (.object members)
  | ordered {v w : Value} {given : Option (List StackEntry)} (hshape : state.Shape v)
      (hgiven : StackShape given w) : PartsShape state given (.array [v, w])

/-- The value has the parts of the status. No stack is an empty one, unless the status is stopped.
-/
def Shape (s : Status) (v : Value) : Prop :=
  ∃ given, PartsShape s.runState given v ∧ s.stack = given.getD [] ∧
    (s.runState.isStopped = true → given ≠ none)

end Status

/-! ### The readers take them -/

theorem RunState.lookup_name {name : String} {s : RunState} :
    (all.map fun s => (s.name, s)).lookup name = some s ↔ name = s.name := by
  constructor
  · intro h
    obtain ⟨before, after, hsplit, -⟩ := List.lookup_eq_some_iff.1 h
    have hmem : (name, s) ∈ all.map fun s => (s.name, s) := by simp [hsplit]
    obtain ⟨t, -, ht⟩ := List.mem_map.1 hmem
    obtain ⟨rfl, rfl⟩ := Prod.mk.inj ht
    rfl
  · rintro rfl
    cases s <;> rfl

theorem RunState.reads : Reads decode Shape := by
  refine (Reads.variant _ Reads.unit).congr fun s v => ?_
  simp only [lookup_name]
  constructor
  · rintro ⟨_, rfl, rfl | ⟨_, rfl, rfl⟩⟩
    · exact .name
    · exact .only
  · rintro (_ | _)
    · exact ⟨_, rfl, .inl rfl⟩
    · exact ⟨_, rfl, .inr ⟨_, rfl, rfl⟩⟩

theorem StackEntry.reads : Reads (Wire.decode (α := StackEntry)) Shape := by
  refine Reads.record (fun _ => nofun) ?named ?ordered ?shape ?tells
  case named =>
    intro members e
    simp only [Gathered.seq_eq_all_iff, Gathered.map_eq_all_iff, Fields.field_named_iff .string,
      Fields.field_named_iff .uint32, exists_eq_right]
    constructor
    · rintro ⟨_, function, ⟨_, line, ⟨file, hfile, rfl⟩, hline, rfl⟩, hfunction, rfl⟩
      exact .named hfile hline hfunction
    · rintro ⟨hfile, hline, hfunction⟩
      exact ⟨_, _, ⟨_, _, ⟨_, hfile, rfl⟩, hline, rfl⟩, hfunction, rfl⟩
  case ordered =>
    intro items e
    simp only [Gathered.seq_eq_all_iff, Gathered.map_eq_all_iff, Fields.field_ordered_iff .string,
      Fields.field_ordered_iff .uint32, exists_eq_right]
    constructor
    · rintro ⟨hfits, _, function, ⟨_, line, ⟨file, hfile, rfl⟩, hline, rfl⟩, hfunction, rfl⟩
      match items with
      | [] | [_] | [_, _] => simp at hfunction
      | [_, _, _] =>
          cases hfile
          cases hline
          cases hfunction
          exact .ordered
      | _ :: _ :: _ :: _ :: _ => simp only [List.length_cons] at hfits; omega
    · rintro ⟨⟩
      exact ⟨by simp, _, _, ⟨_, _, ⟨_, rfl, rfl⟩, rfl, rfl⟩, rfl, rfl⟩
  case shape =>
    rintro e v (_ | _)
    · exact .inl ⟨_, rfl⟩
    · exact .inr ⟨_, rfl⟩
  case tells =>
    intro fields hwhole
    exact (((Fields.fieldOr_tells .string hwhole).map _).seq
      (Fields.fieldOr_tells .uint32 hwhole)).seq (Fields.fieldOr_tells .string hwhole)

namespace Status

theorem stackShape_iff {given : Option (List StackEntry)} {v : Value} :
    (v = .null ∧ given = none ∨ v ≠ .null ∧
        ∃ stack, given = some stack ∧ ∃ items, v = .array items ∧
          List.Forall₂ StackEntry.Shape stack items) ↔
      StackShape given v := by
  constructor
  · rintro (⟨rfl, rfl⟩ | ⟨-, stack, rfl, items, rfl, h⟩)
    · exact .null
    · exact .entries h
  · rintro (_ | ⟨h⟩)
    · exact .inl ⟨rfl, rfl⟩
    · exact .inr ⟨nofun, _, rfl, _, rfl, h⟩

theorem stack_reads :
    Reads (Document.asOption (Document.asList (Wire.decode (α := StackEntry)))) StackShape :=
  (Reads.option (.list StackEntry.reads)).congr fun _ _ => stackShape_iff

/-- Reads the parts, without a look at whether they go together. -/
def decodeParts : Json.Decoder (RunState × Option (List StackEntry)) :=
  Document.asRecord { name := "WireStatus", arity := 2 } fun fields =>
    Prod.mk <$> fields.field 0 "runstate" RunState.decode
      <*> fields.fieldOption 1 "stack" (Document.asList (Wire.decode (α := StackEntry)))

theorem parts_read : Reads decodeParts fun parts v => PartsShape parts.1 parts.2 v := by
  refine Reads.record (fun _ => nofun) ?named ?ordered ?shape ?tells
  case named =>
    intro members parts
    simp only [Gathered.seq_eq_all_iff, Gathered.map_eq_all_iff, Fields.fieldOption,
      Fields.field_named_iff RunState.reads, Fields.fieldOr_named_iff stack_reads]
    constructor
    · rintro ⟨_, given, ⟨state, ⟨v, hstate, hshape⟩, rfl⟩, hstack, rfl⟩
      obtain ⟨hlacks, hnone⟩ | ⟨w, hholds, hgiven⟩ := hstack
      · obtain rfl := Option.some.inj hnone
        exact .bare hstate hshape hlacks
      · exact .named hstate hshape hholds hgiven
    · intro h
      obtain ⟨state, given⟩ := parts
      cases h with
      | bare hstate hshape hstack =>
          exact ⟨_, _, ⟨_, ⟨_, hstate, hshape⟩, rfl⟩, .inl ⟨hstack, rfl⟩, rfl⟩
      | named hstate hshape hstack hgiven =>
          exact ⟨_, _, ⟨_, ⟨_, hstate, hshape⟩, rfl⟩, .inr ⟨_, hstack, hgiven⟩, rfl⟩
  case ordered =>
    intro items parts
    simp only [Gathered.seq_eq_all_iff, Gathered.map_eq_all_iff, Fields.fieldOption,
      Fields.field_ordered_iff RunState.reads, Fields.fieldOr_ordered_iff stack_reads]
    constructor
    · rintro ⟨hfits, _, given, ⟨state, ⟨v, hv, hshape⟩, rfl⟩, ⟨w, hw, hgiven⟩, rfl⟩
      match items with
      | [] | [_] => simp at hw
      | [_, _] =>
          cases hv
          cases hw
          exact .ordered hshape hgiven
      | _ :: _ :: _ :: _ => simp only [List.length_cons] at hfits; omega
    · intro h
      obtain ⟨state, given⟩ := parts
      cases h with
      | ordered hshape hgiven =>
          exact ⟨by simp, _, _, ⟨_, ⟨_, rfl, hshape⟩, rfl⟩, ⟨_, rfl, hgiven⟩, rfl⟩
  case shape =>
    rintro ⟨state, given⟩ v h
    cases h with
    | bare | named => exact .inl ⟨_, rfl⟩
    | ordered => exact .inr ⟨_, rfl⟩
  case tells =>
    intro fields hwhole
    exact ((Fields.fieldOr_tells RunState.reads hwhole).map _).seq
      (Fields.fieldOr_tells stack_reads hwhole)

/-- The parts as a status. -/
def assemble (parts : RunState × Option (List StackEntry)) : Except DecodeError Status :=
  match parts with
  | (state, some stack) => .ok ⟨state, stack⟩
  | (state, none) =>
    if state.isStopped then .error (.missingFieldFor "stack" s!"runstate `{state.name}`")
    else .ok ⟨state, []⟩

theorem decodeReport_eq (d : Document) : decodeReport d = (decodeParts d).bind assemble := by
  show (decodeParts d).bind _ = _
  refine congrArg _ (funext fun parts => ?_)
  obtain ⟨state, _ | stack⟩ := parts <;> rfl

theorem assemble_ok_iff {parts : RunState × Option (List StackEntry)} {s : Status} :
    assemble parts = .ok s ↔
      parts.1 = s.runState ∧ parts.2.getD [] = s.stack ∧
        (s.runState.isStopped = true → parts.2 ≠ none) := by
  obtain ⟨state, stack⟩ := s
  obtain ⟨state', _ | given⟩ := parts
  · rw [assemble]
    split <;> grind
  · simp [assemble]

theorem assemble_tells {parts : RunState × Option (List StackEntry)} {e : DecodeError}
    (h : assemble parts = .error e) : e ≠ .malformed := by
  obtain ⟨state, _ | given⟩ := parts
  · rw [assemble] at h
    split at h
    · exact Except.error.inj h ▸ nofun
    · exact nomatch h
  · exact nomatch h

theorem reads : Reads decodeReport Shape := by
  rw [funext decodeReport_eq]
  refine (parts_read.bind assemble_tells).congr fun s v => ?_
  constructor
  · rintro ⟨⟨state, given⟩, hparts, hmade⟩
    obtain ⟨rfl, hstack, hstopped⟩ := assemble_ok_iff.1 hmade
    exact ⟨given, hparts, hstack.symm, hstopped⟩
  · rintro ⟨given, hparts, hstack, hstopped⟩
    exact ⟨(s.runState, given), hparts, assemble_ok_iff.2 ⟨rfl, hstack.symm, hstopped⟩⟩

/-- **What counts as a report.** A value is taken as a status exactly if it has its shape. Every
other value is refused with a decode error that says what is wrong.

The shape is put together like the reader, from shapes of the parts, and each reader is known to
take just what has its shape (`Reads`). Nothing has to be known of the order in which faults are
looked for, except that each has words. -/
theorem reports_are_the_shapes (v : Value) :
    (∀ s, ofValue v = .ok s ↔ s.Shape v) ∧
      ((∀ s : Status, ¬ s.Shape v) → ∃ cause words, ofValue v = .error cause ∧
        cause.message? = some words ∧ (Failure.decode cause).report = .decode words) := by
  refine ⟨fun s => reads.ok_iff, fun hnone => ?_⟩
  cases hread : ofValue v with
  | ok s => exact absurd (reads.ok_iff.1 hread) (hnone s)
  | error cause =>
      obtain ⟨words, hwords⟩ := DecodeError.exists_message (reads.tells hread)
      exact ⟨cause, words, rfl, hwords, by simp [Failure.report, hwords]⟩

end Status

end DebugBridge
