/-
Line numbers on the console.

Lines are typed and printed as they count from one, and held as they count from zero. What is held
is what was typed, less one, or what the debuggee has said, less one, so the number for the line
behind the last is never reached from below, and adding one again gives back what was typed or said.

All that takes is where lines come from: a breakpoint that is printed was set by a command, since
whatever is in the registry or was announced was added (`Recorded`), and what was added was added by
a command (`Program.set_of_mem_addedAt`).

The command that sets a breakpoint prints it as well. That this is the breakpoint of this very
command, and not an earlier one, is a matter of numbers: a number is given out again only after all
of them (`Program.place_of_set`).
-/
import DebugBridge.Proofs.Console.Running
import DebugBridge.Proofs.Console.Typing

namespace DebugBridge

/-- What is there was added. -/
theorem Recorded.mem_addedAt {d : Desk} {places : List (String × UInt32)} (h : Recorded d places)
    {b : Breakpoint} (hb : b ∈ d.registry.breakpoints) : b.atFirst ∈ addedAt places := by
  refine h.once.subset ?_
  by_cases hverified : b.verified = true
  · exact List.mem_append_left _ (List.mem_map_of_mem (h.told b hb hverified))
  · have hsame : b.atFirst = b := by
      cases b
      simpa [Breakpoint.atFirst] using hverified
    rw [hsame]
    exact List.mem_append_right _ (List.mem_filter.2 ⟨hb, by simpa using hverified⟩)

theorem Recorded.mem_addedAt_of_told {d : Desk} {places : List (String × UInt32)}
    (h : Recorded d places) {b : Breakpoint} (hb : b ∈ d.told) : b.atFirst ∈ addedAt places :=
  h.once.subset (List.mem_append_left _ (List.mem_map_of_mem hb))

theorem Session.mem_told {s : Session} {b : Breakpoint}
    (h : .emitted (.breakpointVerified b) ∈ s.log) : b ∈ s.desk.told :=
  List.mem_filterMap.2 ⟨_, h, rfl⟩

/-- The lines with which an operation is called. -/
def Operation.lines : Operation → List UInt32
  | .setBreakpoint _ line | .clearBreakpoint _ line | .breakColumns _ line => [line]
  | .setBreakpoints _ lines => lines
  | _ => []

namespace Console

/-- The lines that an output shows, as they are held. -/
def Output.lines : Output → List UInt32
  | .event (.breakpointVerified b) | .breakpointSet b => [b.line]
  | .noBreakpoint _ line => [line]
  | .frames fs => fs.map (·.line)
  | _ => []

/-- A line of input that tells the console to do what `verb` stands for at line `n` of a file. -/
def Input.Says (input : Input) (verb path : String) (n : Nat) : Prop :=
  ∃ bytes text, input = .line bytes ∧ String.fromUTF8? ⟨bytes.toArray⟩ = some text ∧
    Console.Says text verb path n

/-- The lines for the stack of a status, with the line numbers that the status has. -/
def stackLines (status : Status) : List String :=
  if status.runState.isStopped then
    status.stack.mapIdx fun i entry =>
      s!"#{(UInt64.ofNat i).toNat} {entry.function} at {entry.file}:{max entry.line.toNat 1}"
  else []

/-- What is printed for the stack of a status. -/
def stackText (status : Status) : String :=
  match stackLines status with
  | [] => "No stack (not stopped)"
  | lines => "\n".intercalate lines

theorem map_frameLine (status : Status) : status.frames.map frameLine = stackLines status := by
  unfold Status.frames stackLines
  split
  · refine List.ext_getElem (by simp) fun i _ _ => ?_
    rw [List.getElem_map, List.getElem_mapIdx, List.getElem_mapIdx, frameLine, StackFrame.ofEntry,
      oneBased_zeroBased]
  · rfl

theorem text_frames (status : Status) (now : Moment) :
    (Output.frames status.frames).text now = stackText status := by
  rw [stackText, ← map_frameLine]
  cases status.frames with
  | nil => rfl
  | cons frame rest => rfl

theorem line_lt_of_mem_frames {status : Status} {frame : StackFrame} (h : frame ∈ status.frames) :
    frame.line.toNat + 1 < UInt32.size := by
  unfold Status.frames at h
  split at h
  · obtain ⟨i, hi, rfl⟩ := List.mem_mapIdx.1 h
    exact zeroBased_lt _
  · simp at h

theorem describe_breakpointVerified {b : Breakpoint} (h : b.line.toNat + 1 < UInt32.size) :
    describe (.breakpointVerified b) =
      s!"Breakpoint {b.id.toNat} verified at {b.path}:{b.line.toNat + 1}" := by
  show s!"Breakpoint {b.id.toNat} verified at {b.path}:{oneBased b.line}" = _
  rw [oneBased_of_lt h]

namespace Program

theorem says_of_order? {p : Program} {input : Input} {order : Order} {verb path : String}
    {line : UInt32} (h : p.order? input = some order)
    (hplace : order.place? = some (verb, path, line)) :
    p.exit = none ∧ input.Says verb path (line.toNat + 1) ∧ line.toNat + 1 < UInt32.size := by
  unfold order? at h
  split at h
  · rename_i bytes hexit
    obtain ⟨text, htext, hparse⟩ := Option.bind_eq_some_iff.1 h
    have hparsed : Order.parse text = .ok (some order) := by
      cases hresult : Order.parse text with
      | error fault => simp [hresult, Except.toOption] at hparse
      | ok found => simpa [hresult, Except.toOption] using hparse
    obtain ⟨hgiven, hlt⟩ := says_of_parse hparsed hplace
    exact ⟨hexit, ⟨bytes, text, rfl, htext, hgiven⟩, hlt⟩
  · simp at h

/-- No command is about the line behind the last one that can be typed. -/
theorem line_lt_of_parse {text : String} {order : Order} {operation : Operation}
    (h : Order.parse text = .ok (some order)) (hoperation : order.operation? = some operation) :
    ∀ line ∈ operation.lines, line.toNat + 1 < UInt32.size := by
  intro line hline
  cases order with
  | setBreakpoint path other | clearBreakpoint path other | breakColumns path other =>
      cases hoperation
      obtain rfl : line = other := by simpa [Operation.lines] using hline
      exact (says_of_parse h rfl).2
  | help | quit => simp [Order.operation?] at hoperation
  | _ =>
      cases hoperation
      simp [Operation.lines] at hline

/-- The breakpoint was set by a command at line `n`, which one of these inputs was. -/
def SetAt (p : Program) (inputs : List Input) (b : Breakpoint) (n : Nat) : Prop :=
  ∃ earlier input later, inputs = earlier ++ input :: later ∧ (p.after earlier).exit = none ∧
    input.Says "b" b.path n ∧ b.id = (p.after earlier).session.bridge.registry.nextId

theorem setAt_of_mem_addedAt {p : Program} (hp : Recorded p.session.desk []) {inputs : List Input}
    {b : Breakpoint} (h : b.atFirst ∈ addedAt (p.setBy inputs)) :
    p.SetAt inputs b (b.line.toNat + 1) ∧ b.line.toNat + 1 < UInt32.size := by
  obtain ⟨earlier, input, later, hinputs, horder, hid⟩ := set_of_mem_addedAt inputs p h
  obtain ⟨hexit, hgiven, hlt⟩ := says_of_order? horder rfl
  have hnext := (recorded_after earlier hp).nextId
  rw [List.nil_append] at hnext
  exact ⟨⟨earlier, input, later, hinputs, hexit, hgiven, hid.trans hnext.symm⟩, hlt⟩

/-- The breakpoint that a command gives back is one that was added, and has the number that was
next.

It need not be the one that the command adds. When the numbers have started over, an older
breakpoint may have the same number, and be found first. -/
theorem mem_addedAt_of_set {p : Program} (hp : Recorded p.session.desk []) {earlier : List Input}
    {input : Input} {path : String} {line : UInt32}
    (horder : (p.after earlier).order? input = some (.setBreakpoint path line))
    (hafter : (p.after (earlier ++ [input])).session =
      ((p.after earlier).session.setBreakpoint path line).2) :
    let b := ((p.after earlier).session.setBreakpoint path line).1
    b.atFirst ∈ addedAt (p.setBy (earlier ++ [input])) ∧
      b.id = UInt64.ofNat ((p.setBy earlier).length + 1) := by
  have hbefore := recorded_after earlier hp
  have hlater := recorded_after (earlier ++ [input]) hp
  rw [List.nil_append] at hbefore hlater
  rw [hafter] at hlater
  rw [← hbefore.nextId]
  unfold Session.setBreakpoint
  dsimp only
  cases hfound : Registry.get? _ path _ with
  | some b =>
      have hlisted := List.mem_of_find?_eq_some hfound
      have hid := List.find?_some hfound
      exact ⟨hlater.mem_addedAt (List.mem_filter.1 hlisted).1, of_decide_eq_true hid⟩
  | none =>
      have hset : (p.after earlier).set? input = some (path, line) := by rw [set?, horder]
      rw [setBy_concat, hset, Option.toList_some, addedAt_concat, ← hbefore.nextId]
      exact ⟨List.mem_append_right _ (List.mem_singleton.2 rfl), rfl⟩

/-- As long as the numbers last, it is the one that the command adds. -/
theorem place_of_set {p : Program} {earlier : List Input} {input : Input} {path : String}
    {line : UInt32} {b : Breakpoint}
    (horder : (p.after earlier).order? input = some (.setBreakpoint path line))
    (hadded : b.atFirst ∈ addedAt (p.setBy (earlier ++ [input])))
    (hid : b.id = UInt64.ofNat ((p.setBy earlier).length + 1))
    (hfew : (p.setBy (earlier ++ [input])).length ≤ UInt64.size) :
    b.path = path ∧ b.line = line := by
  have hset : (p.after earlier).set? input = some (path, line) := by rw [set?, horder]
  have hdistinct := nodup_ids_addedAt_iff.2 hfew
  rw [setBy_concat, hset, Option.toList_some, addedAt_concat] at hadded hdistinct
  rw [List.map_append] at hdistinct
  rcases List.mem_append.1 hadded with hold | hnew
  · have hapart := (List.nodup_append.1 hdistinct).2.2
    have hlisted : b.id ∈ (addedAt (p.setBy earlier)).map (·.id) :=
      List.mem_map.2 ⟨b.atFirst, hold, rfl⟩
    exact absurd hid (hapart b.id hlisted _ (List.mem_singleton.2 rfl))
  · have hsame := List.mem_singleton.1 hnew
    exact ⟨congrArg Breakpoint.path hsame, congrArg Breakpoint.line hsame⟩

/-! ### What is shown

For each output that shows a line it is said which input or which status the line comes from. There
is one lemma for each source of outputs, the events, the breakpoint that was set, the stack, and the
complaint about a breakpoint that is not there, and they meet in the one about an input
(`exact_of_feed`).
-/

/-- The lines that an output tells, in text, are those that were typed for them, or for the stack
those of the status that came in last. A breakpoint that has just been set is the one of this very
input, unless the numbers have started over. -/
def Faithful (p : Program) (earlier : List Input) (input : Input) (o : Output) : Prop :=
  match o with
  | .breakpointSet b =>
    let state := if b.verified then "verified" else "pending"
    ∃ n, p.SetAt (earlier ++ [input]) b n ∧
      ((p.setBy (earlier ++ [input])).length ≤ UInt64.size → input.Says "b" b.path n) ∧
      ∀ now, o.text now = s!"Breakpoint {b.id.toNat} at {b.path}:{n} ({state})"
  | .event (.breakpointVerified b) =>
    ∃ n, p.SetAt (earlier ++ [input]) b n ∧
      let words := s!"Breakpoint {b.id.toNat} verified at {b.path}:{n}"
      ∀ now, o.text now = s!"[{clockText now}] {words}"
  | .noBreakpoint path _ =>
    ∃ n, input.Says "d" path n ∧ ∀ now, o.text now = s!"No breakpoint at {path}:{n}"
  | .frames _ =>
    ∀ now, o.text now = stackText ((statusesOf (p.after earlier).session.log).getLastD .initial)
  | _ => True

/-- An output is exact about lines. It takes both fields: the first says that no sum of words starts
over, and the second that the right line is shown. -/
structure Exact (p : Program) (earlier : List Input) (input : Input) (o : Output) : Prop where
  /-- None of the lines is the last number there is, to which one cannot be added. -/
  unwrapped : ∀ line ∈ o.lines, (line + 1).toNat = line.toNat + 1
  faithful : p.Faithful earlier input o

/-- What has to hold when the commands begin: nothing was added, and the status held is the one that
came in last. -/
structure Ready (p : Program) : Prop where
  recorded : Recorded p.session.desk []
  telling : Session.Telling p.session

theorem exact_of_emitted {p : Program} (hp : Ready p) {earlier : List Input} {input : Input}
    {event : Event} (h : .emitted event ∈ (p.after (earlier ++ [input])).session.log) :
    p.Exact earlier input (.event event) := by
  cases event with
  | breakpointVerified b =>
      have hrecorded := recorded_after (earlier ++ [input]) hp.recorded
      have hadded := hrecorded.mem_addedAt_of_told (Session.mem_told h)
      obtain ⟨hset, hlt⟩ := setAt_of_mem_addedAt hp.recorded hadded
      refine ⟨List.forall_mem_singleton.2 (oneBased_of_lt hlt), b.line.toNat + 1, hset, ?_⟩
      intro words now
      show s!"[{clockText now}] {describe (.breakpointVerified b)}" = _
      rw [describe_breakpointVerified hlt]
  | _ => exact ⟨by simp [Output.lines], trivial⟩

theorem exact_of_set {p : Program} (hp : Ready p) {earlier : List Input} {input : Input}
    {path : String} {line : UInt32}
    (horder : (p.after earlier).order? input = some (.setBreakpoint path line))
    (hafter : (p.after (earlier ++ [input])).session =
      ((p.after earlier).session.setBreakpoint path line).2) :
    p.Exact earlier input
      (.breakpointSet ((p.after earlier).session.setBreakpoint path line).1) := by
  obtain ⟨hadded, hid⟩ := mem_addedAt_of_set hp.recorded horder hafter
  revert hadded hid
  generalize ((p.after earlier).session.setBreakpoint path line).1 = b
  intro hadded hid
  obtain ⟨hset, hlt⟩ := setAt_of_mem_addedAt hp.recorded hadded
  refine ⟨List.forall_mem_singleton.2 (oneBased_of_lt hlt), b.line.toNat + 1, hset, ?_, ?_⟩
  · intro hfew
    obtain ⟨hpath, hline⟩ := place_of_set horder hadded hid hfew
    rw [hpath, hline]
    exact (says_of_order? horder rfl).2.1
  · have htext : ∀ state : String,
        s!"Breakpoint {b.id.toNat} at {b.path}:{oneBased b.line} ({state})" =
          s!"Breakpoint {b.id.toNat} at {b.path}:{b.line.toNat + 1} ({state})" := by
      intro state
      rw [oneBased_of_lt hlt]
    exact fun now => htext _

theorem exact_of_stack {p : Program} (hp : Ready p) (earlier : List Input) (input : Input) :
    p.Exact earlier input (.frames (p.after earlier).session.bridge.frames) := by
  have htelling := (path_after earlier p).preserves Session.Stage.telling hp.telling
  refine ⟨?_, ?_⟩
  · intro line hline
    obtain ⟨frame, hframe, rfl⟩ := List.mem_map.1 hline
    exact oneBased_of_lt (line_lt_of_mem_frames hframe)
  · intro now
    rw [← htelling.held]
    exact text_frames _ now

theorem exact_of_report {p : Program} (hp : Ready p) {earlier : List Input} {input : Input}
    {order : Order} {answer : Answer} {o : Output}
    (horder : (p.after earlier).order? input = some order)
    (ho : o ∈ order.report (p.after earlier).session answer)
    (hanswer : ∀ operation, order.operation? = some operation →
      (p.after earlier).session.operate operation =
        (answer, (p.after (earlier ++ [input])).session)) :
    p.Exact earlier input o := by
  have hplain : o.lines = [] → p.Faithful earlier input o → p.Exact earlier input o := by
    intro hnone hfaithful
    exact ⟨by simp [hnone], hfaithful⟩
  unfold Order.report at ho
  split at ho
  all_goals simp only [List.mem_singleton, List.not_mem_nil] at ho
  all_goals subst ho
  case h_1 path line b =>
    have hset := hanswer _ rfl
    simp only [Session.operate, Prod.map, Prod.mk.injEq, Answer.breakpoint.injEq] at hset
    obtain ⟨rfl, hafter⟩ := hset
    exact exact_of_set hp horder hafter.symm
  case h_3 path line =>
    obtain ⟨-, hgiven, hlt⟩ := says_of_order? horder rfl
    refine ⟨List.forall_mem_singleton.2 (oneBased_of_lt hlt), line.toNat + 1, hgiven, ?_⟩
    intro now
    show s!"No breakpoint at {path}:{oneBased line}" = _
    rw [oneBased_of_lt hlt]
  case h_7 fs =>
    have hstack := hanswer _ rfl
    simp only [Session.operate, Prod.mk.injEq, Answer.frames.injEq] at hstack
    obtain ⟨rfl, -⟩ := hstack
    exact exact_of_stack hp earlier input
  -- The other reports show no lines.
  all_goals exact hplain rfl trivial

theorem exact_of_feed {p : Program} (hp : Ready p) (earlier : List Input) (input : Input) :
    ∀ o ∈ ((p.after earlier).feed input).1, p.Exact earlier input o := by
  intro o ho
  have htaken := (p.after earlier).taken_feed input
  rw [← after_concat] at htaken
  obtain ⟨event, rfl, hevent⟩ | ⟨error, rfl⟩ | ⟨order, answer, horder, hreport, hanswer⟩ :=
    htaken.mem ho
  · exact exact_of_emitted hp hevent
  · exact ⟨by simp [Output.lines], trivial⟩
  · exact exact_of_report hp horder hreport hanswer

theorem held_lt {p : Program} (hp : Ready p) (earlier : List Input) :
    (∀ b ∈ (p.after earlier).session.bridge.registry.breakpoints,
      b.line.toNat + 1 < UInt32.size) ∧
      ∀ frame ∈ (p.after earlier).session.bridge.frames, frame.line.toNat + 1 < UInt32.size := by
  have hrecorded := recorded_after earlier hp.recorded
  rw [List.nil_append] at hrecorded
  refine ⟨?_, fun frame hframe => line_lt_of_mem_frames hframe⟩
  intro b hb
  exact (setAt_of_mem_addedAt hp.recorded (hrecorded.mem_addedAt hb)).2

/-! ### The start

Before the first input there is the start. It prints events and perhaps a failure, but as nothing
was added yet, no event is about a breakpoint.
-/

theorem session_start (s : Session) : (start s).2.session = (s.operate .startConfigured).2 := by
  unfold start
  dsimp only
  split <;> rfl

theorem mem_start {s : Session} {o : Output} (h : o ∈ (start s).1) :
    (∃ event, o = .event event ∧ .emitted event ∈ (start s).2.session.log) ∨
      ∃ failure, o = .failed failure := by
  rw [session_start]
  unfold start at h
  dsimp only at h
  split at h
  · exact Or.inl (mem_eventsOf h)
  · rename_i failure _
    rcases List.mem_append.1 h with hevent | hfailed
    · exact Or.inl (mem_eventsOf hevent)
    · exact Or.inr ⟨failure, List.mem_singleton.1 hfailed⟩

theorem mem_run {s : Session} {inputs : List Input} {entry : Entry}
    (h : entry ∈ (run s inputs).1) :
    entry.outputs = (start s).1 ∨ entry ∈ ((start s).2.entries inputs).1 := by
  rcases List.mem_cons.1 h with rfl | hlater
  · exact Or.inl rfl
  · exact Or.inr hlater

/-- A session in which nothing has happened, and what the debuggee will do while it is waited for.
-/
def newSession (config : Config) (debuggee : Debuggee) (files : Files)
    (asides : List (List Happening)) : Session :=
  { Session.new config debuggee files with asides }

theorem desk_start (s : Session) :
    ∃ noDebug, (start s).2.session.desk = { s.desk with noDebug } := by
  rw [session_start]
  exact ⟨_, Session.desk_operate_of_start? rfl⟩

theorem ready_start (config : Config) (debuggee : Debuggee) (files : Files)
    (asides : List (List Happening)) :
    Ready (start (newSession config debuggee files asides)).2 where
  recorded := by
    obtain ⟨noDebug, hdesk⟩ := desk_start (newSession config debuggee files asides)
    rw [hdesk]
    exact (Session.recorded_new config debuggee files).mode noDebug
  telling := by
    rw [session_start]
    have hnew : Session.Telling (newSession config debuggee files asides) :=
      ⟨Labelled.empty, rfl⟩
    exact (Session.path_operate _ _).preserves Session.Stage.telling hnew

/-- A start prints no lines, since there are no breakpoints yet. -/
theorem lines_start (config : Config) (debuggee : Debuggee) (files : Files)
    (asides : List (List Happening)) :
    ∀ o ∈ (start (newSession config debuggee files asides)).1, o.lines = [] := by
  intro o ho
  obtain ⟨event, rfl, hevent⟩ | ⟨failure, rfl⟩ := mem_start ho
  · cases event with
    | breakpointVerified b =>
        have htold := Session.mem_told hevent
        obtain ⟨noDebug, hdesk⟩ := desk_start (newSession config debuggee files asides)
        rw [hdesk] at htold
        exact absurd htold List.not_mem_nil
    | _ => rfl
  · rfl

/-- **Lines come back as they were given.** In every run of the console, whatever is typed and
whatever the debuggee sends, one can be added to every line that is shown. What is shown for a
breakpoint is the number typed in the command that set or named it, and what is shown for a frame is
the line its entry has, with the first for line zero. No breakpoint or frame is ever held that has
the last line there is, and no command calls the bridge with it.

Whatever is printed belongs to one input, so it is enough to speak of a single input after any
others (`exact_of_feed`). For a breakpoint, one has to go back to the input that set it, which may
be any of the earlier ones. -/
theorem console_lines_are_exact (config : Config) (debuggee : Debuggee) (files : Files)
    (asides : List (List Happening)) (inputs : List Input) :
    let s := newSession config debuggee files asides
    let p := (start s).2
    (∀ entry ∈ (run s inputs).1,
      entry.outputs = (start s).1 ∧ (∀ o ∈ entry.outputs, o.lines = []) ∨
        ∃ earlier input later, inputs ++ [.endOfInput] = earlier ++ input :: later ∧
          entry.outputs = ((p.after earlier).feed input).1 ∧
          ∀ o ∈ entry.outputs, p.Exact earlier input o) ∧
      (∀ earlier,
        (∀ b ∈ (p.after earlier).session.bridge.registry.breakpoints,
          b.line.toNat < UInt32.size - 1) ∧
        ∀ frame ∈ (p.after earlier).session.bridge.frames, frame.line.toNat < UInt32.size - 1) ∧
      ∀ text order operation, Order.parse text = .ok (some order) →
        order.operation? = some operation →
          ∀ line ∈ operation.lines, line.toNat < UInt32.size - 1 := by
  intro s p
  have hready : Ready p := ready_start config debuggee files asides
  refine ⟨?_, ?_, ?_⟩
  · intro entry hentry
    rcases mem_run hentry with hstart | hlater
    · rw [hstart]
      exact Or.inl ⟨rfl, lines_start config debuggee files asides⟩
    · obtain ⟨earlier, input, later, hinputs, -, houtputs⟩ := mem_entries inputs hlater
      rw [houtputs]
      exact Or.inr ⟨earlier, input, later, hinputs, rfl, exact_of_feed hready earlier input⟩
  · intro earlier
    obtain ⟨hbreakpoints, hframes⟩ := held_lt hready earlier
    exact ⟨fun b hb => Nat.lt_sub_of_add_lt (hbreakpoints b hb),
      fun frame hframe => Nat.lt_sub_of_add_lt (hframes frame hframe)⟩
  · intro text order operation hparse hoperation line hline
    exact Nat.lt_sub_of_add_lt (line_lt_of_parse hparse hoperation line hline)

end Program

end Console

end DebugBridge
