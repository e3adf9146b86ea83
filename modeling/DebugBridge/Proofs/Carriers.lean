/-
A status means the same whichever way it comes.

The text of a status travels in a frame of the push channel or in the answer to a command. Both ways
it is first read as any value, which puts the keys of its entries in ascending order
(`Status.form`), and what is read from that value is the status again. From there on there is only
one way, so that a session ends up with the same bridge, and announces the same event.

The two ways differ in what may be around the text: a frame has to name its type, an answer has a
code, and it counts only with a status code of success. What the log notes before the event differs
as well, and nothing depends on that.
-/
import DebugBridge.Proofs.Codec
import DebugBridge.Proofs.Course

namespace DebugBridge

open Json (Document Fields Gathered Value Wire insertAbsent nestingLimit)

/-! ### The value that a status is read as

A value forgets the order in which the keys of an object were written. So the form in which a status
is read is not the one in which it is written, and that both lead back to the status has to be shown
of each.
-/

/-- An entry as a value that was read: its keys ascend. -/
def StackEntry.form (e : StackEntry) : Value := .object
  [("file", .string e.file), ("function", .string e.function), ("line", .natural e.line.toNat)]

/-- A status as a value that was read. -/
def Status.form (s : Status) : Value := .object
  [("runstate", .string s.runState.name), ("stack", .list StackEntry.form s.stack)]

theorem StackEntry.value?_encode (e : StackEntry) :
    (Document.ofValue (Wire.encode e)).value? = some e.form := by
  have hline : ∀ v w : Value, insertAbsent "line" v [("function", w)] =
      [("function", w), ("line", v)] := by
    intro v w
    rw [insertAbsent, if_neg (by decide), if_neg (by decide)]
    rfl
  have hfile : ∀ u v w : Value, insertAbsent "file" u [("function", v), ("line", w)] =
      [("file", u), ("function", v), ("line", w)] := by
    intro u v w
    rw [insertAbsent, if_pos (by decide)]
  show some (Value.object (insertAbsent "file" _ (insertAbsent "line" _ [("function", _)]))) = _
  rw [hline, hfile]
  rfl

theorem Status.value?_encode (s : Status) :
    (Document.ofValue (Wire.encode s)).value? = some s.form := by
  have hentries : Document.values? (Document.ofValues (s.stack.map Wire.encode)) =
      some (s.stack.map StackEntry.form) := Document.values?_ofValues fun e _ => e.value?_encode
  have hstack : (Document.ofValue (.list Wire.encode s.stack)).value? =
      some (.list StackEntry.form s.stack) := congrArg (Option.map Value.array) hentries
  have hmembers : Document.members? (Document.ofMembers
      [("runstate", .string s.runState.name), ("stack", .list Wire.encode s.stack)]) =
        some (insertAbsent "runstate" (.string s.runState.name)
          [("stack", .list StackEntry.form s.stack)]) := by
    simp only [Document.ofMembers, Document.members?, hstack]
    rfl
  rw [insertAbsent, if_pos (by decide)] at hmembers
  exact congrArg (Option.map Value.object) hmembers

theorem Status.asValue_encode (s : Status) :
    Document.asValue (.ofValue (Wire.encode s)) = .ok s.form := by
  rw [Document.asValue, s.value?_encode]

theorem StackEntry.decode_form (e : StackEntry) : Wire.decode (.ofValue e.form) = .ok e :=
  e.decode_members (by simp) rfl rfl rfl

/-- A status that was written always has a stack, so it is never refused. -/
theorem Status.ofValue_form (s : Status) : ofValue s.form = .ok s := by
  obtain ⟨runState, stack⟩ := s
  have hrecord : Document.asRecord { name := "WireStatus", arity := 2 }
      (fun fields => Prod.mk <$> fields.field 0 "runstate" RunState.decode
        <*> fields.fieldOption 1 "stack" (Document.asList (Wire.decode (α := StackEntry))))
      (.ofValue (form ⟨runState, stack⟩)) = .ok (runState, some stack) := by
    refine Document.asRecord_ofValue (Gathered.seq_eq_all (Gathered.map_eq_all ?runState) ?stack)
    case runState => exact Fields.field_of (by simp) rfl runState.decode_name
    case stack =>
      refine Fields.fieldOr_of (by simp) rfl (Document.asOption_ofValue nofun ?_)
      exact Document.asList_ofValue fun e _ => e.decode_form
  simp only [ofValue, Wire.ofValue, decodeReport, hrecord]
  rfl

/-! ### The two ways

Both texts are compact texts of a value that has the status in it, and a compact text reads back as
its value. What is left is to follow the reader of an envelope, and the one of an answer, to the
place where the status stands.
-/

namespace Status

/-- The frame that pushes a status. -/
def pushText (s : Status) : String :=
  "\x7b\"type\":\"status\",\"message\":" ++ Wire.toText s ++ "\x7d"

/-- The body of an answer that has a status for its data. -/
def answerText (s : Status) : String :=
  "\x7b\"code\":0,\"data\":" ++ Wire.toText s ++ "\x7d"

theorem pushText_eq (s : Status) : s.pushText =
    (Value.object [("type", .string "status"), ("message", Wire.encode s)]).compact := by
  unfold pushText
  rw [← String.toList_inj]
  simp only [Wire.toText, Value.compact, Json.writeValue, Json.writeMembers, String.toList_append,
    String.toList_ofList]
  simp [Json.writeString, Json.writeChar]

theorem answerText_eq (s : Status) : s.answerText =
    (Value.object [("code", .integer 0), ("data", Wire.encode s)]).compact := by
  have hcode : Json.writeValue (.integer 0) = ['0'] := rfl
  unfold answerText
  rw [← String.toList_inj]
  simp only [Wire.toText, Value.compact, Json.writeValue, Json.writeMembers, String.toList_append,
    String.toList_ofList]
  simp [Json.writeString, Json.writeChar, hcode]

theorem ofFrame_pushText (s : Status) : ofFrame s.pushText = .ok s := by
  have henvelope : Wire.decodeText Envelope.decode s.pushText = .ok ⟨"status", some s.form⟩ := by
    rw [pushText_eq]
    refine Wire.decodeText_compact ?_ (Document.asRecord_ofValue
      (Gathered.seq_eq_all (Gathered.map_eq_all ?type) ?message))
    · exact .object (by simp [s.fits_encode 123])
    case type => exact Fields.field_of (by simp) rfl rfl
    case message =>
      exact Fields.fieldOr_of (by simp) rfl (Document.asOption_ofValue nofun s.asValue_encode)
  rw [ofFrame, henvelope]
  simp only [if_true, s.ofValue_form]
  rfl

/-- The data of an answer with a body, whatever success its status code tells. -/
theorem data_of_decodeText {code : Nat} {text : String} {r : CommandResponse} (command : Command)
    (hcode : HttpStatus.isSuccess code = true) (hblank : text.toList.all Text.isBlank = false)
    (hresponse : Wire.decodeText (Wire.decode (α := CommandResponse)) text = .ok r) :
    (Outcome.replied code text).data command = .ok (r.data.getD .null) := by
  have hbody : (Outcome.replied code text).body command.name = .ok text := if_pos hcode
  simp only [Outcome.data, hbody, bind, Except.bind, hblank, Bool.false_eq_true,
    if_false, hresponse]
  rfl

/-- The answer to a command brings the status that stands in its text, if the status code is one of
success. -/
theorem status?_answerText (s : Status) {code : Nat} (hcode : HttpStatus.isSuccess code = true) :
    (Outcome.replied code s.answerText).status? = some s := by
  have hresponse : Wire.decodeText (Wire.decode (α := CommandResponse)) s.answerText =
      .ok ⟨some 0, some s.form⟩ := by
    rw [answerText_eq]
    refine Wire.decodeText_compact ?_ (Document.asRecord_ofValue
      (Gathered.seq_eq_all (Gathered.map_eq_all ?code) ?data))
    · have hzero : (Value.integer 0).Fits 126 := .int32 0
      exact .object (by simp [hzero, s.fits_encode 123])
    case code =>
      exact Fields.fieldDefault_of (by simp) rfl
        (Document.asOption_ofValue nofun (Document.asInt32_ofValue 0))
    case data =>
      exact Fields.fieldDefault_of (by simp) rfl (Document.asOption_ofValue nofun s.asValue_encode)
  have hblank : s.answerText.toList.all Text.isBlank = false := by
    have hbrace : Text.isBlank '\x7b' = false := by decide
    rw [answerText_eq, Value.compact, String.toList_ofList, Json.writeValue, List.all_cons, hbrace,
      Bool.false_and]
  rw [Outcome.status?, data_of_decodeText .sendStatus hcode hblank hresponse]
  simp only [Option.getD_some, s.ofValue_form]
  rfl

end Status

namespace Session

theorem deliver_of_ofFrame {t : Session} {frame : String} {s : Status}
    (hopen : t.debuggee.connected = true) (hframe : Status.ofFrame frame = .ok s) :
    t.deliver (.push frame) = (t.note (.heard frame)).applyStatus s := by
  rw [deliver, if_pos hopen]
  show t.receive frame = _
  rw [receive, hframe]

theorem askStatus_of_status? {t : Session} {s : Status}
    (hanswer : (t.call (.put .sendStatus)).1.status? = some s) :
    t.askStatus = (t.call (.put .sendStatus)).2.applyStatus s := by
  unfold askStatus
  dsimp only
  rw [hanswer]
  rfl

/-- What is heard has no part in what a status does to the bridge. -/
theorem bridge_applyStatus_note (t : Session) (e : Effect) (s : Status) :
    ((t.note e).applyStatus s).bridge = (t.applyStatus s).bridge := rfl

/-- **A status means the same whichever way it comes.** Whether its text stands in a frame or in the
answer to a request, it is read as the status itself. If it comes when all else is the same, the
bridge is left the same, holding this status, and the same event is announced.

Before the status is looked at, the two sessions differ in one entry of the log. Applying a status
does not look at the log, so the difference stays what it is. -/
theorem status_means_the_same_either_way (s : Status) :
    Status.ofFrame s.pushText = .ok s ∧
      ∀ code, HttpStatus.isSuccess code = true →
        (Outcome.replied code s.answerText).status? = some s ∧
        ∀ t : Session, (t.call (.put .sendStatus)).1 = .replied code s.answerText →
          let before := (t.call (.put .sendStatus)).2
          let answered := t.askStatus
          let pushed := before.deliver (.push s.pushText)
          before.debuggee.connected = true →
            answered.bridge = pushed.bridge ∧ answered.bridge.status = s ∧
              answered.bridge.frames = s.frames ∧
              ∃ event, answered.log = before.log ++ [.emitted event] ∧
                pushed.log = before.log ++ [.heard s.pushText, .emitted event] ∧
                (before.bridge.entryPending = false → event = .ofRunState s.runState) := by
  refine ⟨s.ofFrame_pushText, fun code hcode => ⟨s.status?_answerText hcode, fun t hanswer => ?_⟩⟩
  intro before answered pushed hopen
  have hanswered : answered = before.applyStatus s :=
    askStatus_of_status? (hanswer ▸ s.status?_answerText hcode)
  have hpushed : pushed = (before.note (.heard s.pushText)).applyStatus s :=
    deliver_of_ofFrame hopen s.ofFrame_pushText
  have hstatus : answered.bridge.status = s := by
    rw [hanswered]
    exact before.bridge.status_apply s
  refine ⟨?_, hstatus, congrArg Status.frames hstatus,
    .telling before.bridge.entryPending s.runState, ?_, ?_, ?_⟩
  · rw [hanswered, hpushed, bridge_applyStatus_note]
  · rw [hanswered, log_applyStatus]
  · rw [hpushed, log_applyStatus, log_note, List.append_assoc]
    rfl
  · intro hpending
    rw [hpending]
    cases s.runState <;> rfl

/-- A stop with a large line number, and with a quote and a control character in its names. -/
theorem stop_means_the_same_either_way :
    let s : Status := ⟨.stepping, [⟨"a\"b.nut", 4294967295, "f\x01é"⟩]⟩
    let t : Session := ⟨.new .initial, ⟨"localhost", 8000, false, .accepted,
      [("SendStatus", [⟨[], .replied 200 s.answerText⟩])], true⟩, .named [], [], []⟩
    (t.call (.put .sendStatus)).1 = .replied 200 s.answerText ∧
      (t.call (.put .sendStatus)).2.debuggee.connected = true ∧
      t.askStatus.bridge = ((t.call (.put .sendStatus)).2.deliver (.push s.pushText)).bridge ∧
      t.askStatus.bridge.frames = [⟨0, "f\x01é", "a\"b.nut", 4294967294⟩] := by
  intro s t
  have hanswer : (t.call (.put .sendStatus)).1 = .replied 200 s.answerText := by decide +kernel
  have hopen : (t.call (.put .sendStatus)).2.debuggee.connected = true := by decide +kernel
  obtain ⟨hsame, -, hframes, -⟩ :=
    ((status_means_the_same_either_way s).2 200 (by decide)).2 t hanswer hopen
  exact ⟨hanswer, hopen, hsame, hframes.trans (by decide +kernel)⟩

end Session

end DebugBridge
