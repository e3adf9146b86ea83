/-
The course of a session.

Whether a connection is open, whether the end has been announced and what the debuggee last said of
itself turn on a few fields of a session, its `Course`. What the client learns of them is in the
log: the news that it was handed, and among what the debuggee sent the statuses that can be read.

Most operations leave all that alone. They let the session `Drift`, which means that whatever
happens on the push connection happens, and that this and that is noted besides. Only starting and
disconnecting do more, and `Proofs/Step.lean` takes these apart.

So what has to be shown of every run is shown of the four ways to drift and of a handful of stages,
and no proof about the connection goes through all operations again. What makes that work is `Idle`:
a reading, a request, a breakpoint verified or a frame without a status may be noted anywhere, since
neither the news nor the statuses of a log have anything of it.
-/
import DebugBridge.Session.Run

namespace DebugBridge

/-! ### Reading the log

The log holds all that is noticed outside, in order. What the client learns of the debuggee is one
part of it and what the debuggee said is another, and the properties of a run compare these two.
Announcements of verified breakpoints are no news in this sense, since they come of reading sources
and not of anything that the debuggee says.
-/

/-- The event that tells a run-state. On entry, a stop is told as that. -/
def Event.telling (onEntry : Bool) : RunState → Event
  | .running | .pausing => continued theThread
  | .paused => stopped (if onEntry then .entry else .breakpoint) theThread
  | .stepping => stopped (if onEntry then .entry else .step) theThread

/-- Whether an event tells a run-state. -/
def Event.tellsState : Event → Bool
  | stopped _ _ | continued _ => true
  | started _ | ended | breakpointVerified _ => false

@[simp] theorem Event.tellsState_telling (onEntry : Bool) (state : RunState) :
    (telling onEntry state).tellsState = true := by
  cases state <;> rfl

@[simp] theorem Event.isStopped_telling (onEntry : Bool) (state : RunState) :
    (telling onEntry state).isStopped = state.isStopped := by
  cases state <;> rfl

namespace Effect

/-- The event that was handed to the client, unless it is about a breakpoint. -/
def news? : Effect → Option Event
  | emitted (.breakpointVerified _) => none
  | emitted event => some event
  | _ => none

/-- The status that came in, from the push connection or in the reply to the question for it. -/
def status? : Effect → Option Status
  | heard frame => (Status.ofFrame frame).toOption
  | answered (.put .sendStatus) outcome => outcome.status?
  | _ => none

/-- Nothing that the course of a session turns on: no news for the client, no status, and no arming
of the stop on entry. What is idle can be noted anywhere without being looked at. -/
structure Idle (e : Effect) : Prop where
  news : e.news? = none
  status : e.status? = none
  notArmed : e ≠ armed

theorem idle_requested (request : Request) : (requested request).Idle := ⟨rfl, rfl, nofun⟩

theorem idle_read (path : String) : (read path).Idle := ⟨rfl, rfl, nofun⟩

theorem idle_breakpointVerified (b : Breakpoint) : (emitted (.breakpointVerified b)).Idle :=
  ⟨rfl, rfl, nofun⟩

theorem idle_heard {frame : String} {failure : Failure}
    (h : Status.ofFrame frame = .error failure) : (heard frame).Idle :=
  ⟨rfl, by simp [status?, h, Except.toOption], nofun⟩

theorem idle_answered {request : Request} {outcome : Outcome}
    (h : (answered request outcome).status? = none) : (answered request outcome).Idle :=
  ⟨rfl, h, nofun⟩

theorem status?_heard {frame : String} {status : Status} (h : Status.ofFrame frame = .ok status) :
    (heard frame).status? = some status := by
  simp [status?, h, Except.toOption]

@[simp] theorem status?_emitted (event : Event) : (emitted event).status? = none := rfl

theorem news?_emitted_telling (onEntry : Bool) (state : RunState) :
    (emitted (.telling onEntry state)).news? = some (.telling onEntry state) := by
  cases state <;> rfl

end Effect

/-- The events in a log, in order. -/
def eventsIn (log : List Effect) : List Event := log.filterMap Effect.event?

@[simp] theorem eventsIn_append (log more : List Effect) :
    eventsIn (log ++ more) = eventsIn log ++ eventsIn more :=
  List.filterMap_append

/-- The news in a log, in order. -/
def newsOf (log : List Effect) : List Event := log.filterMap Effect.news?

/-- The statuses that came in, in order. -/
def statusesOf (log : List Effect) : List Status := log.filterMap Effect.status?

@[simp] theorem newsOf_append (log more : List Effect) :
    newsOf (log ++ more) = newsOf log ++ newsOf more :=
  List.filterMap_append

@[simp] theorem statusesOf_append (log more : List Effect) :
    statusesOf (log ++ more) = statusesOf log ++ statusesOf more :=
  List.filterMap_append

theorem statusesOf_emitted (event : Event) : statusesOf [.emitted event] = [] := rfl

theorem newsOf_eq_nil {effects : List Effect} (h : ∀ e ∈ effects, e.Idle) : newsOf effects = [] :=
  List.filterMap_eq_nil_iff.2 fun e he => (h e he).news

theorem statusesOf_eq_nil {effects : List Effect} (h : ∀ e ∈ effects, e.Idle) :
    statusesOf effects = [] :=
  List.filterMap_eq_nil_iff.2 fun e he => (h e he).status

/-! ### The course and what changes it

Every function that touches the connection or the status has a lemma here that says what becomes of
the course, and one that says what is added to the log. Both are for the simplifier, so that later
proofs go by fields of a course and never open the functions.
-/

/-- What the connection and the status of a session turn on. -/
structure Course where
  config : Config
  status : Status
  entryPending : Bool
  started : Bool
  ended : Bool
  hasSession : Bool
  connected : Bool

/-- The course after a status has been taken. A stop uses up what was pending. -/
def Course.take (c : Course) (status : Status) : Course :=
  { c with status, entryPending := c.entryPending && !status.runState.isStopped }

/-- Taking a status in one line: the run-state is told, with the flag for the stop on entry as it
was, and a stop takes the flag down. -/
theorem Bridge.apply_eq (b : Bridge) (status : Status) :
    b.apply status = (.telling b.entryPending status.runState,
      { b with status, entryPending := b.entryPending && !status.runState.isStopped }) := by
  obtain ⟨state, stack⟩ := status
  cases state <;> cases h : b.entryPending <;>
    simp [apply, Event.ofRunState, Event.telling, RunState.isStopped, h]

/-- Whether a happening takes the push connection away. -/
def Happening.hangsUp : Happening → Bool
  | .close | .drop => true
  | .push _ | .pushBinary _ | .ping => false

namespace Session

/-- What the connection and the status of this session turn on, as it is now. -/
def course (s : Session) : Course :=
  ⟨s.bridge.config, s.bridge.status, s.bridge.entryPending, s.bridge.started, s.bridge.ended,
    s.bridge.hasSession, s.debuggee.connected⟩

@[simp] theorem course_note (s : Session) (e : Effect) : (s.note e).course = s.course := rfl

@[simp] theorem log_note (s : Session) (e : Effect) : (s.note e).log = s.log ++ [e] := rfl

@[simp] theorem course_applyStatus (s : Session) (status : Status) :
    (s.applyStatus status).course = s.course.take status := by
  simp [applyStatus, Bridge.apply_eq, course, Course.take, note]

@[simp] theorem log_applyStatus (s : Session) (status : Status) :
    (s.applyStatus status).log =
      s.log ++ [.emitted (.telling s.bridge.entryPending status.runState)] := by
  simp [applyStatus, Bridge.apply_eq, note]

@[simp] theorem course_finish (s : Session) :
    s.finish.course = { s.course with ended := true } := by
  unfold finish
  split
  · rename_i h
    simp [course, h]
  · rfl

@[simp] theorem log_finish (s : Session) :
    s.finish.log = s.log ++ if s.bridge.ended then [] else [.emitted .ended] := by
  unfold finish
  split
  · simp
  · rfl

@[simp] theorem course_lose (s : Session) :
    s.lose.course = { s.course with ended := true, connected := false } :=
  course_finish _

@[simp] theorem log_lose (s : Session) :
    s.lose.log = s.log ++ if s.bridge.ended then [] else [.emitted .ended] :=
  log_finish _

/-! ### Deliveries

The statuses of a run are read off its log, so the log has to be tied to what the debuggee sends. A
text that comes in on an open connection is entered as heard before anything is made of it, and the
event that tells its status follows at once. What a delivery adds to the statuses in the log is
therefore the status in its text, if one comes in and has one.
-/

/-- The text that comes in with a happening. That takes a frame with a text and an open connection.
-/
def incoming? (s : Session) (happening : Happening) : Option String :=
  if s.debuggee.connected then happening.text? else none

theorem incoming?_eq_some_iff {s : Session} {happening : Happening} {text : String} :
    s.incoming? happening = some text ↔
      s.debuggee.connected = true ∧ happening.text? = some text := by
  simp [incoming?]

theorem deliver_of_incoming {s : Session} {happening : Happening} {text : String}
    (h : s.incoming? happening = some text) : s.deliver happening = s.receive text := by
  obtain ⟨hopen, htext⟩ := incoming?_eq_some_iff.1 h
  rw [deliver, if_pos hopen]
  cases happening with
  | close | drop => cases htext
  | _ => simp only [undergo, htext, Option.elim]

/-- Where no text comes in, the connection is lost if it is open and the debuggee hangs up, and else
nothing happens. -/
theorem deliver_of_not_incoming {s : Session} {happening : Happening}
    (h : s.incoming? happening = none) :
    s.deliver happening = if s.debuggee.connected && happening.hangsUp then s.lose else s := by
  cases hopen : s.debuggee.connected with
  | false => simp [deliver, hopen]
  | true =>
      rw [incoming?, if_pos hopen] at h
      rw [deliver, if_pos hopen]
      cases happening with
      | close | drop => rfl
      | _ =>
          simp only [undergo, h, Option.elim]
          rfl

/-- What holds of a session holds after a delivery too, if a loss of the open connection and a text
that comes in on it preserve it. All that a delivery can do is in these two cases, and neither
arises while no connection is open. -/
theorem deliver_preserves {P : Session → Prop} {s : Session} (hs : P s)
    (hlose : s.debuggee.connected = true → P s.lose)
    (hreceive : s.debuggee.connected = true → ∀ text, P (s.receive text)) (happening : Happening) :
    P (s.deliver happening) := by
  cases h : s.incoming? happening with
  | some text =>
      rw [deliver_of_incoming h]
      exact hreceive (incoming?_eq_some_iff.1 h).1 text
  | none =>
      rw [deliver_of_not_incoming h]
      split
      · next hlost => exact hlose (Bool.and_eq_true_iff.1 hlost).1
      · exact hs

/-- **A text that comes in is entered as heard, and what it tells right behind it.** That goes for
every text, also for one in which no status can be read: it is heard, and there is nothing to tell.
-/
theorem log_deliver_of_incoming {s : Session} {happening : Happening} {text : String}
    (h : s.incoming? happening = some text) :
    (s.deliver happening).log = s.log ++ .heard text ::
      ((Status.ofFrame text).toOption.map fun status =>
        .emitted (.telling s.bridge.entryPending status.runState)).toList := by
  rw [deliver_of_incoming h, receive]
  cases Status.ofFrame text with
  | error failure => rfl
  | ok status =>
      show ((s.note (.heard text)).applyStatus status).log = _
      rw [log_applyStatus, log_note, List.append_assoc]
      rfl

/-- **What a delivery adds to the statuses in the log** is the one in the text that comes in. A text
without one adds nothing, and neither does a delivery that brings no text or finds no connection
open. -/
theorem statusesOf_deliver (s : Session) (happening : Happening) :
    statusesOf (s.deliver happening).log = statusesOf s.log ++
      ((s.incoming? happening).bind fun text => (Status.ofFrame text).toOption).toList := by
  cases h : s.incoming? happening with
  | none =>
      rw [deliver_of_not_incoming h]
      split
      · rw [log_lose, statusesOf_append]
        cases s.bridge.ended <;> rfl
      · exact (List.append_nil _).symm
  | some text =>
      -- What is heard brings a status in. What is told of it does not bring it in again.
      rw [log_deliver_of_incoming h, statusesOf_append]
      cases hframe : Status.ofFrame text <;>
        simp [statusesOf, Effect.status?, hframe, Except.toOption]

/-! ### Drifting

Most of what a session does leaves its course alone, and all of it that takes time may be
interrupted by what the debuggee pushes. A drift is any such stretch: what the course does not turn
on may change, and texts may come in, or the connection be lost, as long as it is open. What an
arbitrary operation keeps is then shown for the four ways to drift, and not for every operation.
-/

/-- What may happen to a session while it is neither started nor given up. -/
inductive Drift : Session → Session → Prop
  | refl (s : Session) : Drift s s
  /-- Something is noted, and what the course does not turn on may change. -/
  | idle {s t u : Session} {effects : List Effect} (h : Drift s t) (hcourse : u.course = t.course)
      (hlog : u.log = t.log ++ effects) (hidle : ∀ e ∈ effects, e.Idle) : Drift s u
  /-- A status is pushed. -/
  | hear {s t : Session} {frame : String} {status : Status} (h : Drift s t)
      (hopen : t.debuggee.connected = true) (hframe : Status.ofFrame frame = .ok status) :
      Drift s ((t.note (.heard frame)).applyStatus status)
  | lose {s t : Session} (h : Drift s t) (hopen : t.debuggee.connected = true) : Drift s t.lose

namespace Drift

theorem trans {s t u : Session} (h : Drift s t) (h' : Drift t u) : Drift s u := by
  induction h' with
  | refl => exact h
  | idle _ hcourse hlog hidle ih => exact ih.idle hcourse hlog hidle
  | hear _ hopen hframe ih => exact ih.hear hopen hframe
  | lose _ hopen ih => exact ih.lose hopen

/-- Nothing of the course changes, and nothing is noted. -/
theorem of_eq {s t : Session} (hcourse : t.course = s.course) (hlog : t.log = s.log) :
    Drift s t :=
  (refl s).idle hcourse (hlog.trans (List.append_nil s.log).symm) (by simp)

theorem note (s : Session) {e : Effect} (he : e.Idle) : Drift s (s.note e) :=
  (refl s).idle (course_note s e) (log_note s e) (by simpa using he)

/-- The log only grows. -/
theorem log_grows {s t : Session} (h : Drift s t) : s.log <+: t.log := by
  induction h with
  | refl => exact List.prefix_rfl
  | idle _ _ hlog _ ih => exact hlog ▸ ih.trans (List.prefix_append _ _)
  | hear _ _ _ ih =>
      refine ih.trans ?_
      rw [log_applyStatus, log_note, List.append_assoc]
      exact List.prefix_append _ _
  | lose _ _ ih =>
      refine ih.trans ?_
      rw [log_lose]
      exact List.prefix_append _ _

/-- Neither the session is given up nor is a start attempted. -/
theorem keeps {s t : Session} (h : Drift s t) :
    t.bridge.config = s.bridge.config ∧ t.bridge.started = s.bridge.started ∧
      t.bridge.hasSession = s.bridge.hasSession := by
  have key : t.course.config = s.course.config ∧ t.course.started = s.course.started ∧
      t.course.hasSession = s.course.hasSession := by
    induction h with
    | refl => exact ⟨rfl, rfl, rfl⟩
    | idle _ hcourse _ _ ih => rwa [hcourse]
    | hear _ _ _ ih => simpa [Course.take] using ih
    | lose _ _ ih => simpa using ih
  exact key

/-- While the connection stays open, the session does not end. What would end it during a drift is
the loss of the connection, and a connection that is lost is not opened again before the next start.
-/
theorem ended_of_open {s t : Session} (h : Drift s t) (hopen : t.debuggee.connected = true) :
    s.debuggee.connected = true ∧ t.bridge.ended = s.bridge.ended := by
  have key : t.course.connected = true →
      s.course.connected = true ∧ t.course.ended = s.course.ended := by
    clear hopen
    induction h with
    | refl => exact fun h => ⟨h, rfl⟩
    | idle _ hcourse _ _ ih => rwa [hcourse]
    | hear _ _ _ ih => simpa [Course.take] using ih
    | lose => intro h; simp at h
  exact key hopen

/-- Where no connection is open, nothing happens on it. -/
theorem of_not_open {s t : Session} (h : Drift s t) (hclosed : s.debuggee.connected = false) :
    t.course = s.course ∧ newsOf t.log = newsOf s.log := by
  induction h with
  | refl => exact ⟨rfl, rfl⟩
  | idle _ hcourse hlog hidle ih =>
      exact ⟨hcourse.trans ih.1, by rw [hlog, newsOf_append, newsOf_eq_nil hidle]; simp [ih.2]⟩
  | @hear t frame status _ hopen _ ih =>
      have : t.course.connected = s.course.connected := congrArg Course.connected ih.1
      simp [course, hopen, hclosed] at this
  | @lose t _ hopen ih =>
      have : t.course.connected = s.course.connected := congrArg Course.connected ih.1
      simp [course, hopen, hclosed] at this

end Drift

end Session

end DebugBridge
