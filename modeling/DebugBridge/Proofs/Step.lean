/-
What each step does to the course of a session.

All that happens between two of the debuggee's replies is a drift, and so is every operation that
neither starts nor gives up the session (`drift_operate`). A start that connects is cut where its
parts meet: at the session just opened (`opened?`), and at the one with the exchange about the
status behind it (`greeted`), which then decides about the pause on entry.

Every step is a succession of such parts (`path_step`). What each `Stage` keeps is therefore kept in
every run (`run_preserves`), and this is how the invariants of the connection, of the telling and of
the stop on entry are carried: each is shown of the seven stages, the drift among them by its own
four cases.
-/
import DebugBridge.Proofs.Course
import DebugBridge.Proofs.Covering
import Mathlib.Logic.Relation

namespace DebugBridge

/-- With what an operation starts the session, if it does. -/
def Operation.start? (config : Config) : Operation → Option (String × Bool × Bool)
  | .start address stopOnEntry noDebug => some (address, stopOnEntry, noDebug)
  | .startConfigured => some (config.endpoint, config.stopOnEntry, config.noDebug)
  | _ => none

@[simp] theorem Debuggee.connected_answer (d : Debuggee) (request : Request) :
    (d.answer request).2.connected = d.connected := by
  unfold answer
  split <;> rfl

/-- With what a step starts the session, if it does. -/
def Step.start? (config : Config) : Step → Option (String × Bool × Bool)
  | .operation asked _ => asked.start? config
  | .happening _ | .edit _ _ => none

namespace Session

/-! ### The push channel

A delivery is the smallest part of a drift. What the debuggee does during a wait is a list of
deliveries, so waiting is a drift as well, and nothing has to be known of what it chooses to send.
-/

theorem drift_receive {s : Session} (hopen : s.debuggee.connected = true) (frame : String) :
    Drift s (s.receive frame) := by
  unfold receive
  cases hframe : Status.ofFrame frame with
  | ok status => exact (Drift.refl s).hear hopen hframe
  | error failure => exact Drift.note s (Effect.idle_heard hframe)

theorem drift_deliver (s : Session) (happening : Happening) : Drift s (s.deliver happening) :=
  deliver_preserves (Drift.refl s) (Drift.refl s).lose (fun hopen => drift_receive hopen) happening

theorem drift_deliverAll (happenings : List Happening) :
    ∀ s : Session, Drift s (happenings.foldl deliver s) := by
  induction happenings with
  | nil => exact Drift.refl
  | cons happening rest ih => exact fun s => (drift_deliver s happening).trans (ih _)

theorem drift_wait (s : Session) : Drift s s.wait := by
  unfold wait
  split
  · exact Drift.refl s
  · refine Drift.trans ?_ (drift_deliverAll _ _)
    exact Drift.of_eq rfl rfl

/-! ### The command channel

A call is made of a request that is noted, of what happens until the reply is there, and of the
outcome that is noted. Of all replies just the one to the question for the status says something
about the debuggee, so every other call drifts from beginning to end.
-/

/-- A call is a drift, at the end of which the outcome is noted. -/
theorem call_cases (s : Session) (request : Request) :
    ∃ t, Drift s t ∧ (s.call request).2 = t.note (.answered request (s.call request).1) := by
  refine ⟨_, ?_, rfl⟩
  have hasked : Drift s
      ({ s with debuggee := (s.debuggee.answer request).2 }.note (.requested request)) :=
    Drift.trans (t := { s with debuggee := (s.debuggee.answer request).2 })
      (Drift.of_eq (by simp [course]) rfl) (Drift.note _ (Effect.idle_requested request))
  exact (hasked.trans (drift_wait _)).trans (drift_deliverAll _ _)

/-- The reply to anything but the question for the status tells nothing. -/
theorem drift_call (s : Session) {request : Request} (h : request ≠ .put .sendStatus) :
    Drift s (s.call request).2 := by
  obtain ⟨t, ht, hcall⟩ := s.call_cases request
  rw [hcall]
  refine ht.trans (Drift.note t (Effect.idle_answered ?_))
  unfold Effect.status?
  split
  · simp_all
  · simp_all
  · rfl

theorem drift_dispatch (s : Session) (control : Control) : Drift s (s.dispatch control) := by
  unfold dispatch
  split
  · exact drift_call s (by simp)
  · exact Drift.refl s

theorem drift_expandHandle (s : Session) (handle : VariableHandle) :
    Drift s (s.expandHandle handle).2 := by
  unfold expandHandle
  split
  · exact Drift.refl s
  · rename_i query _
    split
    · have hcall : Drift s (s.call (.get query)).2 := drift_call s (by simp)
      dsimp only
      split
      · exact hcall
      · exact hcall.trans (Drift.of_eq rfl rfl)
    · exact Drift.refl s

theorem drift_expandReference (s : Session) (reference : Int64) :
    Drift s (s.expandReference reference).2 := by
  unfold expandReference
  split
  · exact Drift.refl s
  · exact drift_expandHandle s _

/-! ### Breakpoints -/

theorem coversDesk_drift : CoversDesk Drift where
  refl := Drift.refl
  trans := Drift.trans
  sources _ _ := Drift.of_eq rfl rfl
  read s path := Drift.note s (Effect.idle_read path)
  registry _ _ := Drift.of_eq rfl rfl
  verified s b := Drift.note s (Effect.idle_breakpointVerified b)

/-! ### Starting

A start is the one operation that opens a connection. It fails before anything was announced, or it
announces the start and goes on to ask for the status, and the debuggee may push something at every
wait in between. Therefore it is given in the two forms that proofs need, `start_of_opened` for one
that connects and `start_of_not_opened` for one that does not.
-/

/-- The session right after a start has connected and announced it, before anything is asked of the
debuggee. There is none if the start fails, or if it is not the first. -/
def opened? (s : Session) (address : String) (noDebug : Bool) : Option Session :=
  if s.bridge.started then none
  else
    match { s with bridge := { s.bridge with started := true, noDebug } }.connect address with
    | .error _ => none
    | .ok (endpoint, t) => some (t.note (.emitted (.started endpoint.address)))

/-- The session after the exchange about the status, when the pause on entry is decided. -/
def greeted (opened : Session) : Session := opened.wait.askStatus.wait

theorem start_of_opened {s t : Session} {address : String} {noDebug : Bool} (stopOnEntry : Bool)
    (h : s.opened? address noDebug = some t) :
    s.start address stopOnEntry noDebug =
      (.ok (), if stopOnEntry && !noDebug then t.greeted.pauseOnEntry else t.greeted) := by
  unfold opened? at h
  unfold start
  split at h
  · simp at h
  · rename_i hfresh
    rw [if_neg hfresh]
    dsimp only
    split at h
    · simp at h
    · rename_i hconnect
      rw [hconnect]
      simp only [Option.some.injEq] at h
      subst h
      rfl

/-- A start that does not connect is either not the first, and does nothing, or ends the session. -/
theorem start_of_not_opened {s : Session} {address : String} {noDebug : Bool} (stopOnEntry : Bool)
    (h : s.opened? address noDebug = none) :
    ∃ failure, (s.start address stopOnEntry noDebug).1 = .error failure ∧
      (s.bridge.started = true ∧ (s.start address stopOnEntry noDebug).2 = s ∨
        s.bridge.started = false ∧ (s.start address stopOnEntry noDebug).2 =
          { s with bridge := { s.bridge with started := true, noDebug } }.finish) := by
  unfold opened? at h
  unfold start
  split at h
  · rename_i hstarted
    rw [if_pos hstarted]
    exact ⟨_, rfl, Or.inl ⟨hstarted, rfl⟩⟩
  · rename_i hfresh
    rw [if_neg hfresh]
    dsimp only
    split at h
    · rename_i failure hconnect
      rw [hconnect]
      exact ⟨failure, rfl, Or.inr ⟨by simpa using hfresh, rfl⟩⟩
    · simp at h

/-- What holds of a session that has just been opened: nothing was started before, the three flags
of a connection are up, and all that has been added to the log is the announcement. -/
structure Opened (s t : Session) : Prop where
  fresh : s.bridge.started = false
  course : t.course = { s.course with started := true, hasSession := true, connected := true }
  log : ∃ address, t.log = s.log ++ [.emitted (.started address)]

theorem connected_of_accept {d d' : Debuggee} {e : Endpoint}
    (h : d.accept e = .ok d') : d'.connected = true := by
  unfold Debuggee.accept at h
  dsimp only at h
  split at h
  · split at h
    · simp only [Except.ok.injEq] at h
      subst h
      rfl
    · simp at h
    · simp at h
  · simp at h

theorem connect_eq_ok {s t : Session} {address : String} {endpoint : Endpoint}
    (h : s.connect address = .ok (endpoint, t)) :
    t.course = { s.course with hasSession := true, connected := true } ∧ t.log = s.log := by
  unfold connect at h
  split at h
  · simp at h
  · rename_i endpoint' _
    cases haccept : s.debuggee.accept endpoint' with
    | error failure => simp [haccept, Except.map] at h
    | ok debuggee =>
        simp only [haccept, Except.map, Except.ok.injEq, Prod.mk.injEq] at h
        obtain ⟨-, rfl⟩ := h
        exact ⟨by simp [course, connected_of_accept haccept], rfl⟩

theorem Opened.hasSession {s t : Session} (h : Opened s t) : t.bridge.hasSession = true :=
  congrArg Course.hasSession h.course

theorem opened_of_opened? {s t : Session} {address : String} {noDebug : Bool}
    (h : s.opened? address noDebug = some t) : Opened s t := by
  unfold opened? at h
  split at h
  · simp at h
  · rename_i hfresh
    split at h
    · simp at h
    · rename_i endpoint u hconnect
      obtain ⟨hcourse, hlog⟩ := connect_eq_ok hconnect
      simp only [Option.some.injEq] at h
      subst h
      exact ⟨by simpa using hfresh, hcourse, endpoint.address, by simp [hlog]⟩

/-- The status that was asked for is taken when the call is over. -/
theorem askStatus_cases (s : Session) :
    ∃ t, Drift s t ∧ (s.call (.put .sendStatus)).2 =
        t.note (.answered (.put .sendStatus) (s.call (.put .sendStatus)).1) ∧
      s.askStatus = (s.call (.put .sendStatus)).1.status?.elim (s.call (.put .sendStatus)).2
        (s.call (.put .sendStatus)).2.applyStatus := by
  obtain ⟨t, ht, hcall⟩ := s.call_cases (.put .sendStatus)
  exact ⟨t, ht, hcall, rfl⟩

/-- The session with the entry stop awaited. -/
def arm (s : Session) : Session :=
  { s with bridge := { s.bridge with entryPending := true } }.note .armed

@[simp] theorem course_arm (s : Session) :
    s.arm.course = { s.course with entryPending := true } := rfl

@[simp] theorem log_arm (s : Session) : s.arm.log = s.log ++ [.armed] := rfl

theorem pauseOnEntry_of_stopped {s : Session} (h : s.bridge.runState.isStopped = true) :
    s.pauseOnEntry = s := by
  rw [pauseOnEntry, if_pos h]

theorem pauseOnEntry_of_not_stopped {s : Session} (h : s.bridge.runState.isStopped = false) :
    s.pauseOnEntry = s.arm.dispatch .pause := by
  rw [pauseOnEntry, if_neg (by simp [h])]
  rfl

/-! ### Every step

The stages are what is left of the operations once drifts are taken out of them. They are stated
with what holds when they are taken, that a session is there when a reply comes, or that nothing was
started when a start fails, because an invariant usually needs just this to survive the stage.
-/

/-- An operation that is no start and does not disconnect is a drift. -/
theorem drift_operate (s : Session) (operation : Operation)
    (hstart : operation.start? s.bridge.config = none) (hkeep : operation ≠ .disconnect) :
    Drift s (s.operate operation).2 := by
  cases operation with
  | start | startConfigured => simp [Operation.start?] at hstart
  | disconnect => exact absurd rfl hkeep
  | execute control => exact drift_dispatch s control
  | setBreakpoint | setBreakpoints | clearBreakpoint | clearBreakpoints | breakpoints
  | breakColumns => exact coversDesk_drift.operate s rfl
  | scopes => exact Drift.of_eq rfl rfl
  | runState | stack | stackPage | threads => exact Drift.refl s
  | expandReference reference => exact drift_expandReference s reference
  | expandHandle handle => exact drift_expandHandle s handle

theorem operate_of_start? {s : Session} {operation : Operation} {address : String}
    {stopOnEntry noDebug : Bool}
    (h : operation.start? s.bridge.config = some (address, stopOnEntry, noDebug)) :
    s.operate operation =
      (s.start address stopOnEntry noDebug).map (.ofResult fun _ => .done) id := by
  cases operation <;> simp_all [Operation.start?, operate, startConfigured]

/-- The parts that steps are made of. All but the first belong to starting and to disconnecting.
What has to hold in every run is shown stage by stage, and carried on along a path. -/
inductive Stage : Session → Session → Prop
  | drift {s t : Session} (h : Drift s t) : Stage s t
  | opened {s t : Session} (h : Opened s t) : Stage s t
  /-- A start has failed. -/
  | failed {s : Session} (noDebug : Bool) (hfresh : s.bridge.started = false) :
      Stage s { s with bridge := { s.bridge with started := true, noDebug } }.finish
  /-- The status that was asked for has come. -/
  | replied {s : Session} {outcome : Outcome} {status : Status}
      (hsession : s.bridge.hasSession = true) (hstatus : outcome.status? = some status) :
      Stage s ((s.note (.answered (.put .sendStatus) outcome)).applyStatus status)
  | armed (s : Session) : Stage s s.arm
  | left (s : Session) : Stage s s.hangUp.finish
  /-- There was nothing to disconnect. -/
  | finished {s : Session} (h : s.bridge.hasSession = false) : Stage s s.finish

/-- A succession of stages. -/
abbrev Path : Session → Session → Prop := Relation.ReflTransGen Stage

theorem Drift.path {s t : Session} (h : Drift s t) : Path s t := .single (.drift h)

theorem path_askStatus {s : Session} (hsession : s.bridge.hasSession = true) :
    Path s s.askStatus := by
  obtain ⟨t, ht, hcall, hask⟩ := s.askStatus_cases
  rw [hask, hcall]
  cases hstatus : (s.call (.put .sendStatus)).1.status? with
  | none => exact ht.path.tail (.drift (Drift.note t (Effect.idle_answered hstatus)))
  | some status => exact ht.path.tail (.replied (ht.keeps.2.2.trans hsession) hstatus)

theorem path_greeted {s : Session} (hsession : s.bridge.hasSession = true) :
    Path s s.greeted := by
  have hwait := drift_wait s
  exact (hwait.path.trans (path_askStatus (hwait.keeps.2.2.trans hsession))).trans
    (drift_wait _).path

theorem path_pauseOnEntry (s : Session) : Path s s.pauseOnEntry := by
  cases hstopped : s.bridge.runState.isStopped with
  | true => rw [pauseOnEntry_of_stopped hstopped]
  | false =>
      rw [pauseOnEntry_of_not_stopped hstopped]
      exact .head (.armed s) (drift_dispatch s.arm .pause).path

theorem path_start (s : Session) (address : String) (stopOnEntry noDebug : Bool) :
    Path s (s.start address stopOnEntry noDebug).2 := by
  cases hopened : s.opened? address noDebug with
  | none =>
      obtain ⟨failure, -, h | h⟩ := start_of_not_opened stopOnEntry hopened
      · rw [h.2]
      · rw [h.2]
        exact .single (.failed noDebug h.1)
  | some t =>
      have ht := opened_of_opened? hopened
      have hgreeted : Path s t.greeted := .head (.opened ht) (path_greeted ht.hasSession)
      rw [start_of_opened stopOnEntry hopened]
      dsimp only
      split
      · exact hgreeted.trans (path_pauseOnEntry _)
      · exact hgreeted

theorem path_disconnect (s : Session) : Path s s.disconnect := by
  unfold disconnect
  split
  · exact (drift_wait s).path.tail (.left _)
  · rename_i hsession
    exact .single (.finished (by simpa using hsession))

theorem path_operate (s : Session) (operation : Operation) : Path s (s.operate operation).2 := by
  cases hstart : operation.start? s.bridge.config with
  | some arguments =>
      rw [operate_of_start? hstart]
      exact path_start s arguments.1 arguments.2.1 arguments.2.2
  | none =>
      by_cases hkeep : operation = .disconnect
      · rw [hkeep]
        exact path_disconnect s
      · exact (drift_operate s operation hstart hkeep).path

theorem path_step (s : Session) (x : Step) : Path s (s.step x).2 := by
  cases x with
  | operation operation asides =>
      have hset : Drift s { s with asides } := Drift.of_eq rfl rfl
      refine (hset.path.trans (path_operate _ operation)).trans ?_
      exact Drift.path (Drift.of_eq rfl rfl)
  | happening happening => exact (drift_deliver s happening).path
  | edit path contents => exact Drift.path (Drift.of_eq rfl rfl)

theorem path_run (steps : List Step) : ∀ s : Session, Path s (s.run steps) := by
  induction steps with
  | nil => exact fun s => .refl
  | cons x rest ih => exact fun s => (path_step s x).trans (ih _)

theorem Path.preserves {P : Session → Prop} (hstage : ∀ {s t}, Stage s t → P s → P t)
    {s t : Session} (hpath : Path s t) (hs : P s) : P t := by
  induction hpath with
  | refl => exact hs
  | tail _ hst ih => exact hstage hst ih

/-- **What every stage keeps is kept in every run.** An invariant is shown of one stage at a time,
and the rest is the induction over the path that a run takes. -/
theorem run_preserves {P : Session → Prop} (hstage : ∀ {s t}, Stage s t → P s → P t)
    {s : Session} (hs : P s) (steps : List Step) : P (s.run steps) :=
  (path_run steps s).preserves hstage hs

theorem Stage.config {s t : Session} (h : Stage s t) : t.bridge.config = s.bridge.config := by
  cases h with
  | drift h => exact h.keeps.1
  | opened h => exact congrArg Course.config h.course
  | failed => exact congrArg Course.config (course_finish _)
  | replied => exact congrArg Course.config (course_applyStatus _ _)
  | armed => rfl
  | left => exact congrArg Course.config (course_finish _)
  | finished => exact congrArg Course.config (course_finish _)

/-- The configuration stays. -/
theorem config_run (s : Session) (steps : List Step) :
    (s.run steps).bridge.config = s.bridge.config :=
  run_preserves (P := fun t => t.bridge.config = s.bridge.config)
    (fun h hs => h.config.trans hs) rfl steps

/-- A start cannot be undone. -/
theorem Stage.started {s t : Session} (h : Stage s t) (hs : s.bridge.started = true) :
    t.bridge.started = true := by
  cases h with
  | drift h => exact h.keeps.2.1.trans hs
  | opened h => exact congrArg Course.started h.course
  | failed => exact congrArg Course.started (course_finish _)
  | replied => exact (congrArg Course.started (course_applyStatus _ _)).trans hs
  | armed => exact hs
  | left => exact (congrArg Course.started (course_finish _)).trans hs
  | finished => exact (congrArg Course.started (course_finish _)).trans hs

theorem Path.started {s t : Session} (h : Path s t) (hs : s.bridge.started = true) :
    t.bridge.started = true :=
  h.preserves Stage.started hs

theorem Path.fresh {s t : Session} (h : Path s t) (ht : t.bridge.started = false) :
    s.bridge.started = false := by
  refine Bool.eq_false_iff.2 fun hs => ?_
  rw [h.started hs] at ht
  exact absurd ht nofun

/-- However a start turns out, it was attempted. -/
theorem started_start (s : Session) (address : String) (stopOnEntry noDebug : Bool) :
    (s.start address stopOnEntry noDebug).2.bridge.started = true := by
  cases hopened : s.opened? address noDebug with
  | none =>
      obtain ⟨_, -, h | h⟩ := start_of_not_opened stopOnEntry hopened
      · rw [h.2]
        exact h.1
      · rw [h.2]
        exact congrArg Course.started (course_finish _)
  | some t =>
      have hopen := opened_of_opened? hopened
      have ht : t.bridge.started = true := congrArg Course.started hopen.course
      have hgreeted : t.greeted.bridge.started = true := (path_greeted hopen.hasSession).started ht
      rw [start_of_opened stopOnEntry hopened]
      dsimp only
      split
      · exact (path_pauseOnEntry _).started hgreeted
      · exact hgreeted

theorem started_disconnect (s : Session) : s.disconnect.bridge.started = s.bridge.started := by
  unfold disconnect
  refine (congrArg Course.started (course_finish _)).trans ?_
  show (if s.bridge.hasSession then s.wait.hangUp else s).bridge.started = s.bridge.started
  split
  · exact (drift_wait s).keeps.2.1
  · rfl

/-- A session counts as started from the first start on, whether or not that start connects. Nothing
else sets the flag, and nothing takes it back. -/
theorem started_step (s : Session) (x : Step) :
    (s.step x).2.bridge.started = (s.bridge.started || (x.start? s.bridge.config).isSome) := by
  cases x with
  | happening happening =>
      exact (drift_deliver s happening).keeps.2.1.trans (Bool.or_false _).symm
  | edit => exact (Bool.or_false _).symm
  | operation operation asides =>
      show ({ s with asides }.operate operation).2.bridge.started =
        (s.bridge.started || (operation.start? s.bridge.config).isSome)
      cases hstart : operation.start? s.bridge.config with
      | some arguments =>
          rw [operate_of_start? (s := { s with asides }) hstart, Option.isSome_some, Bool.or_true]
          exact started_start _ _ _ _
      | none =>
          rw [Option.isSome_none, Bool.or_false]
          by_cases hkeep : operation = .disconnect
          · rw [hkeep]
            exact started_disconnect { s with asides }
          · exact (drift_operate { s with asides } operation hstart hkeep).keeps.2.1

/-- No stage takes anything out of the log. -/
theorem Stage.log_grows {s t : Session} (h : Stage s t) : s.log <+: t.log := by
  cases h with
  | drift h => exact h.log_grows
  | opened h =>
      obtain ⟨address, hlog⟩ := h.log
      exact hlog ▸ List.prefix_append _ _
  | failed => exact log_finish _ ▸ List.prefix_append _ _
  | replied =>
      rw [log_applyStatus, log_note, List.append_assoc]
      exact List.prefix_append _ _
  | armed => exact List.prefix_append _ _
  | left => exact log_finish _ ▸ List.prefix_append _ _
  | finished => exact log_finish _ ▸ List.prefix_append _ _

theorem Path.log_grows {s t : Session} (h : Path s t) : s.log <+: t.log :=
  h.preserves (P := fun t => s.log <+: t.log) (fun h hs => hs.trans h.log_grows) List.prefix_rfl

theorem log_grows_run (s : Session) (steps : List Step) : s.log <+: (s.run steps).log :=
  (path_run steps s).log_grows

/-- What is noticed during a step comes behind what is in the log. -/
theorem log_step (s : Session) (x : Step) :
    (s.step x).2.log = s.log ++ (s.step x).2.effectsSince s.log := by
  obtain ⟨more, hlog⟩ := log_grows_run s [x]
  replace hlog : (s.step x).2.log = s.log ++ more := hlog.symm
  rw [effectsSince, hlog, List.drop_left]

end Session

end DebugBridge
