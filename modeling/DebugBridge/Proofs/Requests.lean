/-
What a debuggee is asked.

There are three occasions for a request: a start that connects, a command, and a look at the members
of a local value (`Session.asks`). All of them go through one call, which makes its request once and
whatever comes of it. Nothing that happens on the push connection asks for anything, and neither
does anything done to breakpoints or sources, so the requests of a run are those of its steps, one
step after the other (`Session.asksIn`).

What a step asks for is said without its own log and without running it, except for a start, which
decides about the pause after the exchange about the status. There `startAsks` speaks of the session
as it is at that moment, and says of it what the decision is about: the run-state, and that the end
has not been announced.
-/
import DebugBridge.Proofs.Connection
import DebugBridge.Proofs.Expansion

namespace DebugBridge

@[simp] theorem requestsOf_append (log more : List Effect) :
    requestsOf (log ++ more) = requestsOf log ++ requestsOf more :=
  List.filterMap_append

namespace Session

/-! ### What is to be asked

This is the expectation that the log is compared with. It is given step by step, since what is to be
asked depends on whether the bridge is connected and, for a reference, on what has been listed so
far.
-/

/-- What a start asks for. If it connects, that is the status, and then a pause if the debuggee is
to stop on entry, has not stopped, and the session has not come to its end meanwhile. -/
def startAsks (s : Session) (address : String) (stopOnEntry noDebug : Bool) : List Request :=
  (s.opened? address noDebug).elim [] fun opened =>
    .put .sendStatus ::
      if stopOnEntry = true ∧ noDebug = false ∧
          opened.greeted.bridge.runState.isStopped = false ∧
          .emitted .ended ∉ opened.greeted.log then
        [.put (.control .pause)]
      else []

/-- What a step asks the debuggee for. -/
def asks (s : Session) : Step → List Request
  | .operation (.start address stopOnEntry noDebug) asides =>
    { s with asides }.startAsks address stopOnEntry noDebug
  | .operation .startConfigured asides =>
    let c := s.bridge.config
    { s with asides }.startAsks c.endpoint c.stopOnEntry c.noDebug
  | .operation (.execute control) _ =>
    if s.bridge.isConnected then [.put (.control control)] else []
  | x => ((s.asked? x).bind s.sent?).toList.map .get

/-- What the steps of a run ask for, one after the other. -/
def asksIn (s : Session) : List Step → List Request
  | [] => []
  | x :: rest => s.asks x ++ (s.step x).2.asksIn rest

/-! ### The push channel

Requests are one of the things in a log that the push channel has nothing to do with, and that is
all it takes here.
-/

/-- What `f` reads off a log has nothing to do with the push channel. -/
structure Deaf {α : Type} (f : Effect → Option α) : Prop where
  heard : ∀ frame, f (.heard frame) = none
  told : ∀ onEntry state, f (.emitted (.telling onEntry state)) = none
  ended : f (.emitted .ended) = none

theorem deaf_request? : Deaf Effect.request? := ⟨fun _ => rfl, fun _ _ => rfl, rfl⟩

theorem filterMap_note {α : Type} {f : Effect → Option α} (s : Session) {e : Effect}
    (he : f e = none) : (s.note e).log.filterMap f = s.log.filterMap f := by
  rw [log_note, List.filterMap_append]
  simp [he]

namespace Deaf

variable {α : Type} {f : Effect → Option α}

theorem finish (hf : Deaf f) (s : Session) : s.finish.log.filterMap f = s.log.filterMap f := by
  rw [log_finish, List.filterMap_append]
  split <;> simp [hf.ended]

theorem applyStatus (hf : Deaf f) (s : Session) (status : Status) :
    (s.applyStatus status).log.filterMap f = s.log.filterMap f := by
  rw [log_applyStatus, List.filterMap_append]
  simp [hf.told]

theorem receive (hf : Deaf f) (s : Session) (frame : String) :
    (s.receive frame).log.filterMap f = s.log.filterMap f := by
  have hheard := filterMap_note s (hf.heard frame)
  unfold Session.receive
  cases Status.ofFrame frame with
  | ok status => exact (hf.applyStatus _ status).trans hheard
  | error failure => exact hheard

theorem deliver (hf : Deaf f) (s : Session) (happening : Happening) :
    (s.deliver happening).log.filterMap f = s.log.filterMap f :=
  deliver_preserves (P := fun t => t.log.filterMap f = s.log.filterMap f) rfl
    (fun _ => hf.finish _) (fun _ => hf.receive s) happening

theorem deliverAll (hf : Deaf f) (happenings : List Happening) :
    ∀ s : Session, (happenings.foldl Session.deliver s).log.filterMap f = s.log.filterMap f := by
  induction happenings with
  | nil => exact fun s => rfl
  | cons happening rest ih => exact fun s => (ih _).trans (hf.deliver s happening)

theorem wait (hf : Deaf f) (s : Session) : s.wait.log.filterMap f = s.log.filterMap f := by
  unfold Session.wait
  split
  · rfl
  · exact hf.deliverAll _ _

end Deaf

theorem requestsOf_note (s : Session) {e : Effect} (he : e.request? = none) :
    requestsOf (s.note e).log = requestsOf s.log :=
  filterMap_note s he

theorem requestsOf_finish (s : Session) : requestsOf s.finish.log = requestsOf s.log :=
  deaf_request?.finish s

theorem requestsOf_wait (s : Session) : requestsOf s.wait.log = requestsOf s.log :=
  deaf_request?.wait s

/-! ### Calls

Requests enter the log in a call and nowhere else. A call enters one, before it waits, so neither
what is pushed meanwhile nor the outcome makes a difference to the requests.
-/

/-- A call makes its request, once and whatever is replied. -/
theorem requestsOf_call (s : Session) (request : Request) :
    requestsOf (s.call request).2.log = requestsOf s.log ++ [request] := by
  unfold call
  dsimp only
  rw [requestsOf_note _ rfl]
  refine (deaf_request?.deliverAll _ _).trans ((requestsOf_wait _).trans ?_)
  rw [log_note, requestsOf_append]
  rfl

theorem requestsOf_dispatch (s : Session) (control : Control) :
    requestsOf (s.dispatch control).log =
      requestsOf s.log ++ if s.bridge.isConnected then [.put (.control control)] else [] := by
  unfold dispatch
  split
  · exact requestsOf_call s _
  · exact (List.append_nil _).symm

theorem requestsOf_askStatus (s : Session) :
    requestsOf s.askStatus.log = requestsOf s.log ++ [.put .sendStatus] := by
  have hcall := requestsOf_call s (.put .sendStatus)
  unfold askStatus
  dsimp only
  cases (s.call (.put .sendStatus)).1.status? with
  | none => exact hcall
  | some status => exact (deaf_request?.applyStatus _ status).trans hcall

theorem requestsOf_expandHandle (s : Session) (h : VariableHandle) :
    requestsOf (s.expandHandle h).2.log = requestsOf s.log ++ (s.sent? h).toList.map .get := by
  cases hquery : h.query with
  | error failure => simp [expandHandle, sent?, hquery, Except.toOption]
  | ok query =>
      cases hconnected : s.bridge.isConnected with
      | false => simp [expandHandle, sent?, hquery, hconnected]
      | true =>
          have hsent : s.sent? h = some query := by
            simp [sent?, hconnected, hquery, Except.toOption]
          have hcall := requestsOf_call s (.get query)
          rw [hsent]
          simp only [expandHandle, hquery, hconnected, if_true]
          cases (s.call (.get query)).1.listing query with
          | error failure => exact hcall
          | ok listing => exact hcall

theorem requestsOf_expandReference (s : Session) (reference : Int64) :
    requestsOf (s.expandReference reference).2.log =
      requestsOf s.log ++ ((s.bridge.handles.get? reference).bind s.sent?).toList.map .get := by
  unfold expandReference
  cases s.bridge.handles.get? reference with
  | none => exact (List.append_nil _).symm
  | some h => exact requestsOf_expandHandle s h

/-! ### Beginning and end

A start asks for the status and perhaps for a pause. That it asks for no pause once the end has been
announced needs the invariant of `Proofs/Connection.lean`: the operation looks at the connection,
the expectation at the log, and a session that was started is connected until its end is announced.
-/

theorem requestsOf_greeted (s : Session) :
    requestsOf s.greeted.log = requestsOf s.log ++ [.put .sendStatus] := by
  rw [greeted, requestsOf_wait, requestsOf_askStatus, requestsOf_wait]

theorem requestsOf_pauseOnEntry (s : Session) :
    requestsOf s.pauseOnEntry.log = requestsOf s.log ++
      if s.bridge.runState.isStopped = false ∧ s.bridge.isConnected = true then
        [.put (.control .pause)]
      else [] := by
  cases hstopped : s.bridge.runState.isStopped with
  | true => simp [pauseOnEntry_of_stopped hstopped]
  | false =>
      have harm : requestsOf s.arm.log = requestsOf s.log := by
        rw [log_arm, requestsOf_append]
        exact List.append_nil _
      have hconnected : s.arm.bridge.isConnected = s.bridge.isConnected := rfl
      rw [pauseOnEntry_of_not_stopped hstopped, requestsOf_dispatch, harm, hconnected]
      simp

theorem Opened.requestsOf {s t : Session} (h : Opened s t) :
    requestsOf t.log = requestsOf s.log := by
  obtain ⟨address, hlog⟩ := h.log
  rw [hlog, requestsOf_append]
  exact List.append_nil _

theorem emitted_ended_mem_iff {log : List Effect} :
    .emitted .ended ∈ log ↔ .ended ∈ newsOf log := by
  rw [newsOf, List.mem_filterMap]
  constructor
  · exact fun h => ⟨_, h, rfl⟩
  · rintro ⟨e, he, hnews⟩
    unfold Effect.news? at hnews
    split at hnews
    · simp at hnews
    · rwa [Option.some.inj hnews] at he
    · simp at hnews

/-- A session that was started is connected until the end is announced. -/
theorem isConnected_iff_of_started {s : Session} (h : Accounted s.course (newsOf s.log))
    (hstarted : 0 < startsIn (newsOf s.log)) :
    s.bridge.isConnected = true ↔ .emitted .ended ∉ s.log := by
  have hends : s.bridge.ended = true ↔ .ended ∈ newsOf s.log := by
    rw [← List.count_pos_iff]
    show _ ↔ 0 < endsIn (newsOf s.log)
    rw [h.ends]
    show s.bridge.ended = true ↔ 0 < s.bridge.ended.toNat
    cases s.bridge.ended <;> simp
  rw [emitted_ended_mem_iff, ← hends, Bridge.isConnected, Bool.and_eq_true, Bool.not_eq_true',
    Bool.not_eq_true]
  refine ⟨And.right, fun halive => ⟨(h.kept hstarted).resolve_right ?_, halive⟩⟩
  simp [course, halive]

theorem isConnected_greeted_iff {s t : Session} (hs : Accounted s.course (newsOf s.log))
    (h : Opened s t) :
    t.greeted.bridge.isConnected = true ↔ .emitted .ended ∉ t.greeted.log := by
  have hpath : Path s t.greeted := .head (.opened h) (path_greeted h.hasSession)
  refine isConnected_iff_of_started (hpath.accounted hs) ?_
  obtain ⟨address, hnews⟩ := h.newsOf
  obtain ⟨more, hlog⟩ := (path_greeted h.hasSession).log_grows
  rw [← hlog, newsOf_append, hnews, startsIn_append, startsIn_append, startsIn_started]
  omega

/-- A start that connects asks for the status, and then for a pause if one is wanted and the
connection has lasted. One that fails asks for nothing. -/
theorem requestsOf_start {s : Session} (hs : Accounted s.course (newsOf s.log))
    (address : String) (stopOnEntry noDebug : Bool) :
    requestsOf (s.start address stopOnEntry noDebug).2.log =
      requestsOf s.log ++ s.startAsks address stopOnEntry noDebug := by
  unfold startAsks
  cases hopened : s.opened? address noDebug with
  | none =>
      rw [Option.elim_none, List.append_nil]
      obtain ⟨_, -, h | h⟩ := start_of_not_opened stopOnEntry hopened
      · rw [h.2]
      · rw [h.2]
        exact requestsOf_finish _
  | some t =>
      have ht := opened_of_opened? hopened
      have hgreeted : requestsOf t.greeted.log = requestsOf s.log ++ [.put .sendStatus] := by
        rw [requestsOf_greeted, ht.requestsOf]
      have hconnected := isConnected_greeted_iff hs ht
      rw [start_of_opened stopOnEntry hopened, Option.elim_some]
      dsimp only
      -- A pause that is wanted goes out over the same connection as any command, so it takes that
      -- the end has not been announced.
      cases hwanted : stopOnEntry && !noDebug with
      | true =>
          obtain ⟨hentry, hmode⟩ : stopOnEntry = true ∧ noDebug = false := by simpa using hwanted
          rw [if_pos rfl, requestsOf_pauseOnEntry, hgreeted, List.append_assoc]
          simp only [hentry, hmode, hconnected, true_and]
          rfl
      | false =>
          have hnot : ¬ (stopOnEntry = true ∧ noDebug = false) := by simpa using hwanted
          rw [if_neg nofun, hgreeted, if_neg fun h => hnot ⟨h.1, h.2.1⟩]

theorem asks_of_start? {s : Session} {operation : Operation} {address : String}
    {stopOnEntry noDebug : Bool}
    (h : operation.start? s.bridge.config = some (address, stopOnEntry, noDebug))
    (asides : List (List Happening)) :
    s.asks (.operation operation asides) =
      { s with asides }.startAsks address stopOnEntry noDebug := by
  cases operation <;> simp_all [Operation.start?, asks]

/-- A start that fails asks for nothing. -/
theorem asks_eq_nil_of_failed {s : Session} {operation : Operation}
    {asides : List (List Happening)} {failure : Failure}
    (hstart : (operation.start? s.bridge.config).isSome)
    (hfailed : (s.step (.operation operation asides)).1 = .failed failure) :
    s.asks (.operation operation asides) = [] := by
  obtain ⟨⟨address, stopOnEntry, noDebug⟩, hstart⟩ := Option.isSome_iff_exists.1 hstart
  rw [asks_of_start? hstart, startAsks]
  cases hopened : ({ s with asides } : Session).opened? address noDebug with
  | none => rfl
  | some t =>
      have hoperate := operate_of_start? (s := { s with asides }) hstart
      rw [start_of_opened stopOnEntry hopened] at hoperate
      have hdone : (s.step (.operation operation asides)).1 = .done := congrArg Prod.fst hoperate
      rw [hdone] at hfailed
      cases hfailed

theorem requestsOf_disconnect (s : Session) :
    requestsOf s.disconnect.log = requestsOf s.log := by
  unfold disconnect
  rw [requestsOf_finish]
  split
  · exact requestsOf_wait s
  · rfl

/-! ### Breakpoints -/

theorem coversDesk_requestsOf : CoversDesk fun s t => requestsOf t.log = requestsOf s.log :=
  .same (fun _ _ => rfl) (fun _ _ => rfl) (fun s _ => requestsOf_note s rfl)
    (fun s _ => requestsOf_note s rfl)

/-! ### Every step -/

theorem requestsOf_step {s : Session} (hs : Accounted s.course (newsOf s.log)) (x : Step) :
    requestsOf (s.step x).2.log = requestsOf s.log ++ s.asks x := by
  have hsame : ∀ t : Session, requestsOf t.log = requestsOf s.log →
      requestsOf t.log = requestsOf s.log ++ [] := fun t ht => by rw [ht, List.append_nil]
  cases x with
  | happening happening => exact hsame _ (deaf_request?.deliver s happening)
  | edit => exact hsame _ rfl
  | operation operation asides =>
      have hset : Accounted ({ s with asides } : Session).course (newsOf s.log) := hs
      have hdesk : operation.onBreakpoints = true →
          requestsOf (s.step (.operation operation asides)).2.log = requestsOf s.log :=
        coversDesk_requestsOf.operate { s with asides }
      cases operation with
      | start address stopOnEntry noDebug => exact requestsOf_start hset address stopOnEntry noDebug
      | startConfigured => exact requestsOf_start hset _ _ _
      | disconnect => exact hsame _ (requestsOf_disconnect _)
      | execute control => exact requestsOf_dispatch { s with asides } control
      | setBreakpoint | setBreakpoints | clearBreakpoint | clearBreakpoints | breakpoints
      | breakColumns => exact hsame _ (hdesk rfl)
      | runState | stack | stackPage | threads | scopes => exact hsame _ rfl
      | expandReference reference => exact requestsOf_expandReference { s with asides } reference
      | expandHandle h => exact requestsOf_expandHandle { s with asides } h

theorem requestsOf_run (steps : List Step) :
    ∀ s : Session, Accounted s.course (newsOf s.log) →
      requestsOf (s.run steps).log = requestsOf s.log ++ s.asksIn steps := by
  induction steps with
  | nil => exact fun s _ => (List.append_nil _).symm
  | cons x rest ih =>
      intro s hs
      rw [run_cons, ih _ ((path_step s x).accounted hs), requestsOf_step hs, List.append_assoc]
      rfl

/-- **A debuggee is asked for what the steps ask for and for nothing else,** each time once and in
the order of the steps, whatever it replies. A start that fails asks for nothing, and no step asks
again because a reply was an error.

A request is made by a call, and each step makes at most the calls that are told from its operation
and the state before it. What the debuggee pushes makes no requests, and that is why it does not
matter when it does so (`Deaf`). -/
theorem requests_are_those_of_the_steps (config : Config) (debuggee : Debuggee) (files : Files)
    (steps : List Step) :
    let s₀ := new config debuggee files
    requestsOf (s₀.run steps).log = s₀.asksIn steps ∧
      (∀ x, requestsOf (((s₀.run steps).step x).2.effectsSince (s₀.run steps).log) =
        (s₀.run steps).asks x) ∧
      ∀ operation asides failure, (operation.start? (s₀.run steps).bridge.config).isSome →
        ((s₀.run steps).step (.operation operation asides)).1 = .failed failure →
          (s₀.run steps).asks (.operation operation asides) = [] := by
  intro s₀
  refine ⟨requestsOf_run steps s₀ (accounted_new config debuggee files), fun x => ?_,
    fun _ _ _ => asks_eq_nil_of_failed⟩
  have hstep := requestsOf_step (accounted_run config debuggee files steps) x
  rw [log_step, requestsOf_append] at hstep
  exact List.append_cancel_left hstep

end Session

end DebugBridge
