/-
What a script comes down to.

Most of a script is commands, and they are all that counts (`acts`). A blank line, or one that
nothing can be made of, is passed over with a complaint at most; `quit`, the end of input and a line
that is no text are one and the same; and nobody reads what stands behind them. So a run is told by
its acts alone (`Program.follow`), and two scripts with the same acts cannot be told apart.

However it comes to its end, the program disconnects on the way out, and the session is announced to
have ended once. That this is printed once is a matter of events in general: a run prints those that
are announced, in order (`Program.events_run`).

Complaints about lines are left out when two runs are compared, since a line that makes no sense is
complained about and a missing one is not. Other complaints answer commands, and are compared like
everything else.
-/
import DebugBridge.Proofs.Connection
import DebugBridge.Proofs.Console.Lines

namespace DebugBridge.Console

/-- Something to do: a command, or what the debuggee does on its own. -/
inductive Act where
  | order (order : Order)
  | happening (happening : Happening)
  deriving DecidableEq, Repr

/-- What an input is to the program. -/
inductive Role where
  /-- A line that is blank, or that nothing can be made of. -/
  | idle
  | act (act : Act)
  /-- The end: a line that says `quit`, the end of input, or a line that is no text. -/
  | last
  deriving DecidableEq, Repr

def Input.role : Input → Role
  | .endOfInput => .last
  | .happening doing => .act (.happening doing)
  | .line bytes =>
    match String.fromUTF8? ⟨bytes.toArray⟩ with
    | none => .last
    | some text =>
      match Order.parse text with
      | .error _ | .ok none => .idle
      | .ok (some .quit) => .last
      | .ok (some order) => .act (.order order)

/-- A line that is typed, by its bytes. -/
def Input.typed (text : String) : Input := .line text.toUTF8.data.toList

/-- What there is to do before the first end. -/
def acts : List Input → List Act
  | [] => []
  | input :: rest =>
    match input.role with
    | .idle => acts rest
    | .act act => act :: acts rest
    | .last => []

/-- The event, if it is one that this tells. -/
def Output.event? : Output → Option Event
  | .event e => some e
  | _ => none

/-- Whether this is a complaint about a line that nothing could be made of. -/
def Output.isPuzzled : Output → Bool
  | .notUnderstood _ => true
  | _ => false

namespace Program

open Session (Path)

def Entry.unpuzzled (e : Entry) : Entry :=
  { e with outputs := e.outputs.filter fun o => !o.isPuzzled }

/-- What is printed and asked, apart from complaints about lines that nothing could be made of;
entries of which nothing is left do not show. -/
def told (entries : List Entry) : List Entry :=
  (entries.map Entry.unpuzzled).filter fun e => e ≠ ⟨[], []⟩

/-- The program at the end of a run. -/
def final (s : Session) (inputs : List Input) : Program := ((start s).2.entries inputs).2

/-! ### One act after the other

Following the acts is a second way to run the program, and the only one that the comparison needs.
The two ways agree by an induction on the inputs, in which an idle one adds nothing, an act adds the
same entry on both sides, and the last one ends both.
-/

/-- Does what there is to do. -/
def perform (p : Program) : Act → List Output × Program
  | .order order =>
    ((execute p.session order).1, { p with session := (execute p.session order).2 })
  | .happening happening => p.undergo happening

/-- The entry for what has come of an input. -/
def entry (p : Program) (taken : List Output × Program) : Entry :=
  ⟨taken.1, requestsSince p.session taken.2.session⟩

/-- Does one thing after the other, and leaves. -/
def follow (p : Program) : List Act → List Entry × Program
  | [] => if p.exit.isSome then ([], p) else ([p.entry p.leave], p.leave.2)
  | act :: rest =>
    if p.exit.isSome then ([], p)
    else
      let (later, final) := (p.perform act).2.follow rest
      (p.entry (p.perform act) :: later, final)

theorem entries_of_exit {p : Program} {code : Nat} (h : p.exit = some code) (inputs : List Input) :
    p.entries inputs = ([], p) := by
  cases inputs <;> simp [entries, h]

theorem follow_of_exit {p : Program} {code : Nat} (h : p.exit = some code) (acts : List Act) :
    p.follow acts = ([], p) := by
  cases acts <;> simp [follow, h]

theorem entries_cons {p : Program} (h : p.exit = none) (input : Input) (rest : List Input) :
    p.entries (input :: rest) =
      (p.entry (p.feed input) :: ((p.feed input).2.entries rest).1,
        ((p.feed input).2.entries rest).2) := by
  simp [entries, h, entry]

theorem entries_nil {p : Program} (h : p.exit = none) :
    p.entries [] = ([p.entry p.leave], p.leave.2) := by
  simp [entries, feed, h, entry]

theorem follow_cons {p : Program} (h : p.exit = none) (act : Act) (rest : List Act) :
    p.follow (act :: rest) =
      (p.entry (p.perform act) :: ((p.perform act).2.follow rest).1,
        ((p.perform act).2.follow rest).2) := by
  simp [follow, h]

theorem follow_nil {p : Program} (h : p.exit = none) :
    p.follow [] = ([p.entry p.leave], p.leave.2) := by
  simp [follow, h]

/-- What holds where the program has ended, and is carried back over every input that is taken,
holds of whole runs. -/
theorem entries_induction {motive : Program → List Entry × Program → Prop}
    (ended : ∀ (p : Program) (code : Nat), p.exit = some code → motive p ([], p))
    (takes : ∀ (p : Program) (input : Input) (later : List Entry × Program), p.exit = none →
      motive (p.feed input).2 later → motive p (p.entry (p.feed input) :: later.1, later.2))
    (inputs : List Input) : ∀ p : Program, motive p (p.entries inputs) := by
  induction inputs with
  | nil =>
      intro p
      cases hexit : p.exit with
      | some code =>
          rw [entries_of_exit hexit]
          exact ended p code hexit
      | none =>
          have hfeed : p.feed .endOfInput = p.leave := by simp [feed, hexit]
          rw [entries_nil hexit, ← hfeed]
          exact takes p .endOfInput ([], _) hexit (ended _ 0 (by rw [hfeed]; rfl))
  | cons input rest ih =>
      intro p
      cases hexit : p.exit with
      | some code =>
          rw [entries_of_exit hexit]
          exact ended p code hexit
      | none =>
          rw [entries_cons hexit]
          exact takes p input _ hexit (ih _)

/-- What an input does to a program that runs is decided by its role. An idle one may be complained
about, and that is all that comes of it. -/
theorem feed_of_role {p : Program} (hexit : p.exit = none) (input : Input) :
    match input.role with
    | .idle => ∃ outputs, p.feed input = (outputs, p) ∧ ∀ o ∈ outputs, o.isPuzzled = true
    | .act act => p.feed input = p.perform act
    | .last => p.feed input = p.leave := by
  cases input with
  | endOfInput => simp [Input.role, feed, hexit]
  | happening doing => simp [Input.role, feed, hexit, perform]
  | line bytes =>
      cases htext : String.fromUTF8? ⟨bytes.toArray⟩ with
      | none => simp [Input.role, feed, hexit, htext]
      | some text =>
          have hfeed : p.feed (.line bytes) = p.obey text := by simp [feed, hexit, htext]
          rw [hfeed, obey]
          simp only [Input.role, htext]
          cases Order.parse text with
          | error error => exact ⟨_, rfl, by simp [Output.isPuzzled]⟩
          | ok found =>
              cases found with
              | none => exact ⟨_, rfl, by simp⟩
              | some order => cases order <;> rfl

theorem told_cons (e : Entry) (rest : List Entry) : told (e :: rest) = told [e] ++ told rest := by
  rw [told, told, told, ← List.filter_append, ← List.map_append, List.singleton_append]

theorem told_of_idle {p : Program} {outputs : List Output} (h : ∀ o ∈ outputs, o.isPuzzled = true) :
    told [p.entry (outputs, p)] = [] := by
  have hnothing : outputs.filter (fun o => !o.isPuzzled) = [] := by
    simpa [List.filter_eq_nil_iff] using h
  simp [told, Entry.unpuzzled, entry, hnothing, requestsSince, Session.effectsSince]

/-- A run is told by its acts. Only complaints about lines can make a difference, and `told` leaves
them out, along with the entries that have nothing else in them. -/
theorem entries_eq_follow (inputs : List Input) :
    ∀ p : Program, told (p.entries inputs).1 = told (p.follow (acts inputs)).1 ∧
      (p.entries inputs).2 = (p.follow (acts inputs)).2 := by
  induction inputs with
  | nil =>
      intro p
      cases hexit : p.exit with
      | some code =>
          rw [entries_of_exit hexit, follow_of_exit hexit]
          exact ⟨rfl, rfl⟩
      | none =>
          rw [entries_nil hexit, acts, follow_nil hexit]
          exact ⟨rfl, rfl⟩
  | cons input rest ih =>
      intro p
      cases hexit : p.exit with
      | some code =>
          rw [entries_of_exit hexit, follow_of_exit hexit]
          exact ⟨rfl, rfl⟩
      | none =>
          have hfeed := p.feed_of_role hexit input
          rw [entries_cons hexit, told_cons, acts]
          split at hfeed
          · obtain ⟨outputs, hsame, hpuzzled⟩ := hfeed
            rw [hsame, told_of_idle hpuzzled]
            exact ih p
          · rw [hfeed, follow_cons hexit, (ih _).1]
            exact ⟨(told_cons _ _).symm, (ih _).2⟩
          · have hleft : p.leave.2.exit = some 0 := rfl
            rw [hfeed, entries_of_exit hleft, follow_nil hexit]
            exact ⟨List.append_nil _, rfl⟩

/-! ### The events

What is printed for an input are the events that its log has more than the one before. Put one
behind the other, these are the events of the whole log, whatever else is printed in between.
-/

/-- The events among outputs, in order. -/
def eventsPrinted (outputs : List Output) : List Event := outputs.filterMap Output.event?

theorem eventsPrinted_append (outputs more : List Output) :
    eventsPrinted (outputs ++ more) = eventsPrinted outputs ++ eventsPrinted more :=
  List.filterMap_append

theorem eventsPrinted_eventsOf (effects : List Effect) :
    eventsPrinted (eventsOf effects) = eventsIn effects := by
  rw [eventsPrinted, eventsOf, List.filterMap_map]
  exact List.filterMap_some

theorem eventsPrinted_since {s t : Session} (h : s.log <+: t.log) :
    eventsIn s.log ++ eventsPrinted (eventsOf (t.effectsSince s.log)) = eventsIn t.log := by
  obtain ⟨more, hlog⟩ := h
  rw [eventsPrinted_eventsOf, Session.effectsSince, ← hlog, List.drop_left, eventsIn_append]

theorem eventsPrinted_report (s : Session) (order : Order) (answer : Answer) :
    eventsPrinted (order.report s answer) = [] := by
  unfold Order.report
  split <;> rfl

theorem events_leave (p : Program) :
    eventsIn p.session.log ++ eventsPrinted p.leave.1 = eventsIn p.leave.2.session.log :=
  eventsPrinted_since (Session.path_disconnect p.session).log_grows

/-- Whatever comes of an input, the events that are printed are those that are announced meanwhile.
-/
theorem Taken.events {p q : Program} {input : Input} {outputs : List Output}
    (h : Taken p input outputs q) :
    eventsIn p.session.log ++ eventsPrinted outputs = eventsIn q.session.log := by
  cases h with
  | nothing | puzzled => exact List.append_nil _
  | left => exact events_leave p
  | @obeyed order horder =>
      unfold execute
      cases order.operation? with
      | none =>
          dsimp only
          rw [eventsPrinted_report, List.append_nil]
      | some operation =>
          dsimp only
          rw [eventsPrinted_append, eventsPrinted_report, List.append_nil]
          exact eventsPrinted_since (Session.path_operate p.session operation).log_grows
  | happened horder doing =>
      have hdeliver := eventsPrinted_since (Session.drift_deliver p.session doing).path.log_grows
      unfold undergo
      dsimp only
      split
      · rw [eventsPrinted_append, ← List.append_assoc]
        exact (congrArg (· ++ _) hdeliver).trans
          (events_leave { p with session := p.session.deliver doing })
      · exact hdeliver

theorem events_entries (inputs : List Input) (p : Program) :
    eventsIn p.session.log ++ eventsPrinted ((p.entries inputs).1.flatMap (·.outputs)) =
      eventsIn (p.entries inputs).2.session.log := by
  refine entries_induction (motive := fun p run => eventsIn p.session.log ++
    eventsPrinted (run.1.flatMap (·.outputs)) = eventsIn run.2.session.log) ?_ ?_ inputs p
  · exact fun _ _ _ => List.append_nil _
  · intro p input later _ ih
    rw [List.flatMap_cons, eventsPrinted_append, ← List.append_assoc, ← ih,
      ← (p.taken_feed input).events]
    rfl

theorem events_start (s : Session) :
    eventsIn s.log ++ eventsPrinted (start s).1 = eventsIn (start s).2.session.log := by
  have hevents := eventsPrinted_since (Session.path_operate s .startConfigured).log_grows
  rw [session_start, ← hevents]
  unfold start
  dsimp only
  split
  · rfl
  · rw [eventsPrinted_append]
    exact congrArg _ (List.append_nil _)

/-- A run prints every event, once and in order. -/
theorem events_run (s : Session) (inputs : List Input) :
    eventsIn s.log ++ eventsPrinted ((run s inputs).1.flatMap (·.outputs)) =
      eventsIn (final s inputs).session.log := by
  have hrun : (run s inputs).1.flatMap (·.outputs) =
      (start s).1 ++ ((start s).2.entries inputs).1.flatMap (·.outputs) := List.flatMap_cons
  rw [hrun, eventsPrinted_append, ← List.append_assoc, events_start, events_entries, final]

/-! ### The end

There is no way out of the program but `leave`, and it disconnects. So where there is an exit code
there is a session that has ended, unless it could not be started; and a session that is not started
yet is ended by the failure to start it.
-/

/-- How often the end of the session is printed. -/
def endsPrinted (outputs : List Output) : Nat := outputs.count (.event .ended)

theorem endsPrinted_eq (outputs : List Output) :
    endsPrinted outputs = (eventsPrinted outputs).count .ended := by
  rw [endsPrinted, eventsPrinted, List.count_filterMap]
  refine List.countP_congr fun o _ => ?_
  cases o <;> simp [Output.event?]

theorem ended_leave (p : Program) : p.leave.2.session.bridge.ended = true := by
  have hcourse := Session.course_finish (if p.session.bridge.hasSession then p.session.wait.hangUp
    else p.session)
  exact congrArg Course.ended hcourse

/-- An input ends the program only together with the session. -/
theorem Taken.exit {p q : Program} {input : Input} {outputs : List Output}
    (h : Taken p input outputs q) :
    q.exit = p.exit ∨ q.exit = some 0 ∧ q.session.bridge.ended = true := by
  cases h with
  | nothing | puzzled | obeyed => exact .inl rfl
  | left => exact .inr ⟨rfl, ended_leave p⟩
  | happened horder doing =>
      unfold undergo
      dsimp only
      split
      · exact .inr ⟨rfl, ended_leave _⟩
      · exact .inl rfl

theorem path_entries (inputs : List Input) (p : Program) :
    Path p.session (p.entries inputs).2.session := by
  refine entries_induction (motive := fun p run => Path p.session run.2.session) ?_ ?_ inputs p
  · exact fun _ _ _ => .refl
  · exact fun p input _ _ ih => (p.taken_feed input).path.trans ih

/-- The program runs, or has ended well and its session with it. -/
def EndsWell (p : Program) : Prop :=
  p.exit = none ∨ p.exit = some 0 ∧ p.session.bridge.ended = true

theorem exit_entries (inputs : List Input) {p : Program} (hexit : p.exit = none) :
    (p.entries inputs).2.exit = some 0 ∧ (p.entries inputs).2.session.bridge.ended = true := by
  refine entries_induction (motive := fun p run => p.EndsWell →
    run.2.exit = some 0 ∧ run.2.session.bridge.ended = true) ?_ ?_ inputs p (.inl hexit)
  · rintro p code hover (hgoing | hended)
    · cases hover.symm.trans hgoing
    · exact hended
  · intro p input later hgoing ih _
    refine ih ?_
    rcases (p.taken_feed input).exit with hsame | hended
    · exact .inl (hsame.trans hgoing)
    · exact .inr hended

/-! ### The whole run

A run is a start and what follows from there. The start does not look at the inputs, so two runs
with the same acts begin with the same entry and go on from the same program.
-/

/-- A start gives a program that runs, or a session that is over. -/
theorem start_cases (s : Session) :
    s.startConfigured.1 = .ok () ∧ (start s).2.exit = none ∨
      (∃ failure, s.startConfigured.1 = .error failure) ∧ (start s).2.exit = some 1 := by
  unfold start
  dsimp only
  split
  · next hstarted => exact .inl ⟨hstarted, rfl⟩
  · next failure hfailed => exact .inr ⟨⟨failure, hfailed⟩, rfl⟩

/-- A session that is not started yet has ended when its start has failed. -/
theorem ended_of_failed_start {s : Session} (hfresh : s.bridge.started = false)
    {failure : Failure} (h : s.startConfigured.1 = .error failure) :
    s.startConfigured.2.bridge.ended = true := by
  have hstart : s.startConfigured =
      s.start s.bridge.config.endpoint s.bridge.config.stopOnEntry s.bridge.config.noDebug := rfl
  rw [hstart] at h ⊢
  cases hopened : s.opened? s.bridge.config.endpoint s.bridge.config.noDebug with
  | some t => exact nomatch (congrArg Prod.fst (Session.start_of_opened _ hopened)).symm.trans h
  | none =>
      obtain ⟨_, -, ⟨hstarted, -⟩ | ⟨-, hafter⟩⟩ :=
        Session.start_of_not_opened s.bridge.config.stopOnEntry hopened
      · exact nomatch hfresh.symm.trans hstarted
      · rw [hafter]
        exact congrArg Course.ended (Session.course_finish _)

/-- What there is to see of a run. -/
def seen (s : Session) (inputs : List Input) : List Entry × Nat × Session :=
  (told (run s inputs).1, (run s inputs).2, (final s inputs).session)

theorem seen_eq (s : Session) (inputs : List Input) :
    seen s inputs =
      let done := (start s).2.follow (acts inputs)
      (told [⟨(start s).1, requestsSince s (start s).2.session⟩] ++ told done.1,
        done.2.exit.getD 0, done.2.session) := by
  obtain ⟨htold, hfinal⟩ := entries_eq_follow inputs (start s).2
  dsimp only
  rw [← htold, ← hfinal, ← told_cons]
  rfl

theorem seen_of_acts (s : Session) {inputs others : List Input} (h : acts others = acts inputs) :
    seen s others = seen s inputs := by
  rw [seen_eq, seen_eq, h]

end Program

theorem acts_append_idle {idle : Input} (h : idle.role = .idle) (before after : List Input) :
    acts (before ++ idle :: after) = acts (before ++ after) := by
  induction before with
  | nil => simp [acts, h]
  | cons input rest ih => simp only [List.cons_append, acts, ih]

theorem acts_append_last {last : Input} (h : last.role = .last) (before after : List Input) :
    acts (before ++ last :: after) = acts before := by
  induction before with
  | nil => simp [acts, h]
  | cons input rest ih => simp only [List.cons_append, acts, ih]

namespace Program

open Session (Path)

/-- A run comes to its end, and so does its session. -/
theorem over_at_last {s : Session} (hfresh : s.bridge.started = false) (inputs : List Input) :
    (final s inputs).session.bridge.ended = true ∧
      (run s inputs).2 = match s.startConfigured.1 with | .ok () => 0 | .error _ => 1 := by
  have hrun : (run s inputs).2 = (final s inputs).exit.getD 0 := rfl
  rcases start_cases s with ⟨hstarted, hexit⟩ | ⟨⟨failure, hfailed⟩, hexit⟩
  · obtain ⟨hcode, hended⟩ := exit_entries inputs hexit
    rw [hrun, hstarted, final, hcode]
    exact ⟨hended, rfl⟩
  · rw [hrun, hfailed, final, entries_of_exit hexit, hexit, session_start]
    exact ⟨ended_of_failed_start hfresh hfailed, rfl⟩

theorem path_final (s : Session) (inputs : List Input) : Path s (final s inputs).session := by
  have hstart : Path s (start s).2.session := by
    rw [session_start]
    exact Session.path_operate s .startConfigured
  exact hstart.trans (path_entries inputs _)

/-- Of a session that has nothing to account for yet, the end is printed once. -/
theorem ends_once {s : Session} (hfresh : s.bridge.started = false)
    (haccounted : Accounted s.course (newsOf s.log)) (hnone : endsIn (newsOf s.log) = 0)
    (inputs : List Input) : endsPrinted ((run s inputs).1.flatMap (·.outputs)) = 1 := by
  have hends := ((path_final s inputs).accounted haccounted).ends
  have hended : (final s inputs).session.course.ended = true := (over_at_last hfresh inputs).1
  rw [hended, endsIn_newsOf, ← events_run, List.count_append, ← endsIn_newsOf, hnone,
    Nat.zero_add] at hends
  rw [endsPrinted_eq, hends]
  rfl

/-- **Only the commands count.** Scripts that come down to the same acts cannot be told apart by
what is printed, what the debuggee is asked, the exit code and the state in the end. So lines that
are blank or make no sense can be deleted, what comes after an end can be anything, and every end is
as good as the end of input. Each run prints the end of the session once, leaves the bridge
disconnected, and ends well if the session could be started.

Both scripts lead to the same acts, and a run is told by these (`entries_eq_follow`). The last three
parts hold of every script, and use what is known of the connection in any run of a session. -/
theorem only_commands_count (config : Config) (debuggee : Debuggee) (files : Files)
    (asides : List (List Happening)) (inputs : List Input) :
    let s := newSession config debuggee files asides
    (∀ others, acts others = acts inputs → seen s others = seen s inputs) ∧
      (∀ before idle after, idle.role = .idle →
        seen s (before ++ idle :: after) = seen s (before ++ after)) ∧
      (∀ before last after, last.role = .last → ∀ rest,
        seen s (before ++ last :: after) = seen s (before ++ .endOfInput :: rest) ∧
          seen s (before ++ last :: after) = seen s before) ∧
      endsPrinted ((run s inputs).1.flatMap (·.outputs)) = 1 ∧
      (final s inputs).session.bridge.isConnected = false ∧
      (run s inputs).2 = match s.startConfigured.1 with | .ok () => 0 | .error _ => 1 := by
  intro s
  have hfresh : s.bridge.started = false := rfl
  have haccounted : Accounted s.course (newsOf s.log) :=
    Session.accounted_new config debuggee files
  obtain ⟨hended, hcode⟩ := over_at_last hfresh inputs
  refine ⟨?_, ?_, ?_, ends_once hfresh haccounted rfl inputs, ?_, hcode⟩
  · exact fun others => seen_of_acts s
  · exact fun before idle after hidle => seen_of_acts s (acts_append_idle hidle before after)
  · intro before last after hlast rest
    refine ⟨seen_of_acts s ?_, seen_of_acts s (acts_append_last hlast before after)⟩
    rw [acts_append_last hlast, acts_append_last rfl]
  · rw [Bridge.isConnected, hended, Bool.not_true, Bool.and_false]

end Program

end DebugBridge.Console
