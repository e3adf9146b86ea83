/-
The order of the news.

A client expects a start, then any number of states, then the end, or the end alone where no session
came about. By the invariant of `Proofs/Connection.lean` only one thing can go wrong: something is
announced after the end. For that a start must connect. It announces itself even if the session was
given up before it began, and the status it asks for is told even if the connection was lost
meanwhile. Where neither happens the order is kept (`Settled`), and where one does it is not.

The result is an equivalence over all runs, in terms of the steps that open a session. Both
exceptions do occur, and each of them has a run that shows it.
-/
import DebugBridge.Proofs.Connection

namespace DebugBridge

/-! ### Orderly news

The order is a property of the whole list of news, and a run may be anywhere in it. So news are
orderly if they can be gone on with to a whole lifecycle. With what the invariant says about counts
and about the first state, that comes down to the end being last.
-/

/-- The news of a session from beginning to end, or of one that never came about. -/
def Lifecycle (news : List Event) : Prop :=
  news = [.ended] ∨ ∃ address between, (∀ event ∈ between, event.tellsState = true) ∧
    news = .started address :: (between ++ [.ended])

/-- News as of a session up to now. -/
def Orderly (news : List Event) : Prop := ∃ whole, Lifecycle whole ∧ news <+: whole

/-- Nothing follows the end. -/
def EndLast (news : List Event) : Prop := .ended ∉ news.dropLast

theorem EndLast.of_later {news more : List Event} (h : EndLast more) (hgrows : news <+: more) :
    EndLast news := by
  obtain ⟨rest, rfl⟩ := hgrows
  intro hmem
  refine h ?_
  cases rest with
  | nil => rwa [List.append_nil]
  | cons event rest =>
      rw [List.dropLast_append_cons]
      exact List.mem_append_left _ (List.dropLast_subset _ hmem)

theorem endLast_concat_iff {news : List Event} {event : Event} :
    EndLast (news ++ [event]) ↔ .ended ∉ news := by
  rw [EndLast, List.dropLast_concat]

theorem Orderly.endLast {news : List Event} (h : Orderly news) : EndLast news := by
  obtain ⟨whole, hwhole, hgrows⟩ := h
  refine EndLast.of_later ?_ hgrows
  rcases hwhole with rfl | ⟨address, between, htell, rfl⟩
  · simp [EndLast]
  · rw [← List.cons_append, endLast_concat_iff]
    intro hmem
    have htold := htell _ ((List.mem_cons.1 hmem).resolve_left nofun)
    simp [Event.tellsState] at htold

/-- No news is about a breakpoint. -/
theorem not_breakpointVerified_of_mem_newsOf {log : List Effect} {event : Event}
    (h : event ∈ newsOf log) (b : Breakpoint) : event ≠ .breakpointVerified b := by
  obtain ⟨e, -, he⟩ := List.mem_filterMap.1 h
  rintro rfl
  unfold Effect.news? at he
  split at he <;> simp_all

/-- After the start only states are told, and the end. -/
theorem tells_or_ends {address : String} {others : List Event}
    (hkind : ∀ event ∈ others, ∀ b, event ≠ .breakpointVerified b)
    (hstarts : startsIn (.started address :: others) ≤ 1) :
    ∀ event ∈ others, event = .ended ∨ event.tellsState = true := by
  have hnone : startsIn others = 0 := by
    have hcount := startsIn_append [.started address] others
    rw [startsIn_started] at hcount
    exact Nat.le_zero.1 (Nat.le_of_add_le_add_left (hcount ▸ hstarts))
  intro event hmem
  cases event with
  | started => exact absurd rfl (List.countP_eq_zero.1 hnone _ hmem)
  | breakpointVerified b => exact absurd rfl (hkind _ hmem b)
  | ended => exact Or.inl rfl
  | stopped | continued => exact Or.inr rfl

/-- With the invariant, it is enough that nothing follows the end. -/
theorem Accounted.orderly {c : Course} {log : List Effect} (h : Accounted c (newsOf log))
    (hlast : EndLast (newsOf log)) : Orderly (newsOf log) := by
  have hkind : ∀ event ∈ newsOf log, ∀ b, event ≠ .breakpointVerified b := fun _ =>
    not_breakpointVerified_of_mem_newsOf
  have hstarts : startsIn (newsOf log) ≤ 1 := Nat.le_trans h.starts (Bool.toNat_le _)
  have hfirst := h.startFirst
  generalize newsOf log = news at hkind hstarts hfirst hlast
  cases news with
  | nil => exact ⟨[.ended], Or.inl rfl, List.nil_prefix⟩
  | cons first others =>
      cases first with
      | breakpointVerified b => exact absurd rfl (hkind _ (by simp) b)
      | stopped | continued => exact absurd (hfirst [] _ others rfl rfl) (by simp [startsIn])
      | ended =>
          cases others with
          | nil => exact ⟨[.ended], Or.inl rfl, List.prefix_rfl⟩
          | cons second rest => simp [EndLast] at hlast
      | started address =>
          have hothers := tells_or_ends (fun event hmem => hkind event (by simp [hmem])) hstarts
          rcases List.eq_nil_or_concat others with rfl | ⟨between, last, rfl⟩
          · exact ⟨[.started address, .ended], Or.inr ⟨address, [], by simp, rfl⟩, by simp⟩
          · rw [List.concat_eq_append] at hothers hlast ⊢
            rw [← List.cons_append, endLast_concat_iff] at hlast
            have hbetween : ∀ event ∈ between, event.tellsState = true := fun event hmem =>
              (hothers event (by simp [hmem])).resolve_left
                (by rintro rfl; exact hlast (by simp [hmem]))
            rcases hothers last (by simp) with rfl | htells
            · exact ⟨_, Or.inr ⟨address, between, hbetween, rfl⟩, List.prefix_rfl⟩
            · refine ⟨.started address :: (between ++ [last] ++ [.ended]),
                Or.inr ⟨address, between ++ [last], ?_, rfl⟩, by simp⟩
              simpa [or_imp, forall_and] using ⟨hbetween, htells⟩

namespace Session

/-! ### Sessions that keep the order

Nothing can be announced behind the end as long as a session that has ended has no connection: what
is pushed needs one, and so does everything else but a start. This is the one clause that has to be
added to the invariant, and drifting keeps it.
-/

/-- So far nothing was announced after the end, and nothing will be unless a start connects. Every
step keeps it but for such a start, if it comes too late. -/
structure Settled (s : Session) : Prop where
  accounted : Accounted s.course (newsOf s.log)
  endLast : EndLast (newsOf s.log)
  /-- A session that has ended has no connection. -/
  closed : s.bridge.ended = true → s.debuggee.connected = false

namespace Settled

variable {s t : Session}

theorem alive (h : Settled s) (hopen : s.debuggee.connected = true) : s.bridge.ended = false := by
  refine Bool.eq_false_iff.2 fun hended => ?_
  rw [h.closed hended] at hopen
  exact absurd hopen nofun

theorem ended_notMem (h : Settled s) (halive : s.bridge.ended = false) : .ended ∉ newsOf s.log := by
  have hends : endsIn (newsOf s.log) = s.bridge.ended.toNat := h.accounted.ends
  rw [halive] at hends
  exact List.count_eq_zero.1 hends

/-- While the session has not ended, anything may be announced. -/
theorem announce (h : Settled s) (halive : s.bridge.ended = false) {event : Event}
    (hnews : newsOf t.log = newsOf s.log ++ [event]) : EndLast (newsOf t.log) := by
  rw [hnews, endLast_concat_iff]
  exact h.ended_notMem halive

theorem endLast_farewell (h : Settled s)
    (hnews : newsOf t.log = newsOf s.log ++ farewell s.bridge.ended) : EndLast (newsOf t.log) := by
  cases halive : s.bridge.ended with
  | true =>
      rw [hnews, halive]
      simpa [farewell] using h.endLast
  | false =>
      rw [halive] at hnews
      exact h.announce halive hnews

theorem of_eq (h : Settled s) (hcourse : t.course = s.course)
    (hnews : newsOf t.log = newsOf s.log) : Settled t where
  accounted := by
    rw [hcourse, hnews]
    exact h.accounted
  endLast := by
    rw [hnews]
    exact h.endLast
  closed := by
    have hclosed : t.course.ended = true → t.course.connected = false := by
      rw [hcourse]
      exact h.closed
    exact hclosed

/-- While the session has not ended, a status may come in. -/
theorem take (h : Settled s) (halive : s.bridge.ended = false)
    (hsession : s.bridge.hasSession = true) {e : Effect} (he : e.news? = none) (status : Status) :
    Settled ((s.note e).applyStatus status) where
  accounted := by
    rw [course_applyStatus, course_note, newsOf_take _ he]
    exact h.accounted.take hsession _ _
  endLast := h.announce halive (newsOf_take s he status)
  closed := by
    have hended : ((s.note e).applyStatus status).bridge.ended = s.bridge.ended :=
      congrArg Course.ended (course_applyStatus (s.note e) status)
    rw [hended, halive]
    nofun

/-- It may end at any time, once the connection is gone. -/
theorem finish (h : Settled s) (haccounted : Accounted t.finish.course (newsOf t.finish.log))
    (hlog : t.log = s.log) (hended : t.bridge.ended = s.bridge.ended)
    (hclosed : t.debuggee.connected = false) : Settled t.finish where
  accounted := haccounted
  endLast := h.endLast_farewell (by rw [newsOf_finish, hlog, hended])
  closed := fun _ => (congrArg Course.connected (course_finish t)).trans hclosed

theorem drift (h : Settled s) (hdrift : Drift s t) : Settled t := by
  induction hdrift with
  | refl => exact h
  | idle _ hcourse hlog hidle ih =>
      refine ih.of_eq hcourse ?_
      rw [hlog, newsOf_append, newsOf_eq_nil hidle, List.append_nil]
  | hear _ hopen _ ih => exact ih.take (ih.alive hopen) (ih.accounted.connection hopen) rfl _
  | @lose t _ hopen ih =>
      have hlost : Stage t t.lose := .drift ((Drift.refl t).lose hopen)
      exact ih.finish (hlost.accounted ih.accounted) rfl rfl rfl

theorem arm (h : Settled s) : Settled s.arm where
  accounted := (Stage.armed s).accounted h.accounted
  endLast := by
    have hnews : newsOf s.arm.log = newsOf s.log := by simp [newsOf, Effect.news?]
    rw [hnews]
    exact h.endLast
  closed := h.closed

theorem pauseOnEntry (h : Settled s) : Settled s.pauseOnEntry := by
  cases hstopped : s.bridge.runState.isStopped with
  | true => rwa [pauseOnEntry_of_stopped hstopped]
  | false =>
      rw [pauseOnEntry_of_not_stopped hstopped]
      exact h.arm.drift (drift_dispatch _ _)

theorem disconnect (h : Settled s) : Settled s.disconnect := by
  unfold Session.disconnect
  split
  · have hwait := h.drift (drift_wait s)
    exact hwait.finish ((Stage.left _).accounted hwait.accounted) rfl rfl rfl
  · rename_i hsession
    have hnone : s.bridge.hasSession = false := by simpa using hsession
    exact h.finish ((Stage.finished hnone).accounted h.accounted) rfl rfl
      (h.accounted.not_connected hnone)

end Settled

/-! ### What breaks the order

A start that connects announces itself first and asks for the status then. The first is too late if
the session had ended before, and the second if it ends while the reply is awaited. In either case
the announcement stands behind the end, and what is behind it does not matter.
-/

/-- The session that a step opens, if it is a start that connects. -/
def opening? (s : Session) : Step → Option Session
  | .operation operation asides =>
    (operation.start? s.bridge.config).bind fun (address, _, noDebug) =>
      { s with asides }.opened? address noDebug
  | _ => none

/-- The status that is asked for at the start comes when the session has ended. -/
def RepliesLate (opened : Session) : Prop :=
  let reply := opened.wait.call (.put .sendStatus)
  reply.1.status? ≠ none ∧ reply.2.bridge.ended = true

theorem Settled.greeted {t : Session} (h : Settled t) (hsession : t.bridge.hasSession = true)
    (htimely : ¬ t.RepliesLate) : Settled t.greeted := by
  have hwait := h.drift (drift_wait t)
  obtain ⟨u, hu, hcall, hask⟩ := t.wait.askStatus_cases
  refine Settled.drift ?_ (drift_wait _)
  -- What is pushed during the call needs an open connection. Only the reply does not.
  have hasked : Settled u := hwait.drift hu
  cases hstatus : (t.wait.call (.put .sendStatus)).1.status? with
  | none =>
      rw [hask, hstatus, hcall]
      exact hasked.drift (Drift.note u (Effect.idle_answered hstatus))
  | some status =>
      have halive : u.bridge.ended = false := by
        have hnot : ¬ (t.wait.call (.put .sendStatus)).2.bridge.ended = true := fun hended =>
          htimely ⟨by simp [hstatus], hended⟩
        rw [hcall] at hnot
        exact Bool.eq_false_iff.2 hnot
      have hkept : u.bridge.hasSession = true :=
        (hu.keeps.2.2.trans (drift_wait t).keeps.2.2).trans hsession
      rw [hask, hstatus, hcall]
      exact hasked.take halive hkept rfl status

theorem Settled.start_of_opened {s t : Session} (h : Settled s) {address : String}
    {noDebug : Bool} (stopOnEntry : Bool) (hopened : s.opened? address noDebug = some t)
    (halive : s.bridge.ended = false) (htimely : ¬ t.RepliesLate) :
    Settled (s.start address stopOnEntry noDebug).2 := by
  have hopen := opened_of_opened? hopened
  obtain ⟨endpoint, hnews⟩ := hopen.newsOf
  have ht : Settled t :=
    { accounted := (Stage.opened hopen).accounted h.accounted
      endLast := h.announce halive hnews
      closed := by
        have hended : t.bridge.ended = s.bridge.ended := congrArg Course.ended hopen.course
        rw [hended, halive]
        nofun }
  have hgreeted : Settled t.greeted := ht.greeted hopen.hasSession htimely
  rw [Session.start_of_opened stopOnEntry hopened]
  dsimp only
  split
  · exact hgreeted.pauseOnEntry
  · exact hgreeted

theorem Settled.start_of_not_opened {s : Session} (h : Settled s) {address : String}
    {noDebug : Bool} (stopOnEntry : Bool) (hopened : s.opened? address noDebug = none) :
    Settled (s.start address stopOnEntry noDebug).2 := by
  obtain ⟨_, -, hsame | hfailed⟩ := Session.start_of_not_opened stopOnEntry hopened
  · rw [hsame.2]
    exact h
  · rw [hfailed.2]
    have hclosed : s.debuggee.connected = false := (h.accounted.fresh hfailed.1).2
    exact h.finish ((Stage.failed noDebug hfailed.1).accounted h.accounted) rfl rfl hclosed

/-- A step keeps the order, unless it is a start that comes too late or whose status does. -/
theorem Settled.step {s : Session} (h : Settled s) {x : Step}
    (hok : ∀ t, s.opening? x = some t → s.bridge.ended = false ∧ ¬ t.RepliesLate) :
    Settled (s.step x).2 := by
  cases x with
  | happening happening => exact h.drift (drift_deliver s happening)
  | edit => exact h.of_eq rfl rfl
  | operation operation asides =>
      have hset : Settled ({ s with asides } : Session) := h.of_eq rfl rfl
      refine Settled.of_eq (s := ({ s with asides } : Session).operate operation |>.2) ?_ rfl rfl
      cases hstart : operation.start? s.bridge.config with
      | none =>
          by_cases hkeep : operation = .disconnect
          · rw [hkeep]
            exact hset.disconnect
          · exact hset.drift (drift_operate _ operation hstart hkeep)
      | some arguments =>
          obtain ⟨address, stopOnEntry, noDebug⟩ := arguments
          rw [operate_of_start? (s := { s with asides }) hstart]
          cases hopened : ({ s with asides } : Session).opened? address noDebug with
          | none => exact hset.start_of_not_opened stopOnEntry hopened
          | some t =>
              obtain ⟨halive, htimely⟩ := hok t (by simp [opening?, hstart, hopened])
              exact hset.start_of_opened stopOnEntry hopened halive htimely

/-- What a step does that opens a session. -/
theorem step_of_opening {s t : Session} {x : Step} (h : s.opening? x = some t) :
    Opened s t ∧ (s.step x).1 = .done ∧ ((s.step x).2 = { t.greeted with asides := [] } ∨
      (s.step x).2 = { t.greeted.pauseOnEntry with asides := [] }) := by
  cases x with
  | happening | edit => simp [opening?] at h
  | operation operation asides =>
      obtain ⟨⟨address, stopOnEntry, noDebug⟩, hstart, hopened⟩ := Option.bind_eq_some_iff.1 h
      have hopen := opened_of_opened? hopened
      have hoperate := operate_of_start? (s := { s with asides }) hstart
      rw [start_of_opened stopOnEntry hopened] at hoperate
      have hstep : s.step (.operation operation asides) =
          (({ s with asides }.operate operation).1,
            { ({ s with asides }.operate operation).2 with asides := [] }) := rfl
      rw [hstep, hoperate]
      refine ⟨⟨hopen.fresh, hopen.course, hopen.log⟩, rfl, ?_⟩
      cases stopOnEntry && !noDebug
      · exact Or.inl rfl
      · exact Or.inr rfl

theorem log_grows_of_opening {s t : Session} {x : Step} (h : s.opening? x = some t) :
    t.greeted.log <+: (s.step x).2.log := by
  obtain ⟨-, -, hstep | hstep⟩ := step_of_opening h
  · simp [hstep]
  · rw [hstep]
    exact (path_pauseOnEntry t.greeted).log_grows

/-- A start that comes too late breaks the order, and so does one whose status does. -/
theorem not_endLast_of_late {s t : Session} {x : Step}
    (hs : Accounted s.course (newsOf s.log)) (hopening : s.opening? x = some t)
    (hlate : s.bridge.ended = true ∨ t.RepliesLate) : ¬ EndLast (newsOf (s.step x).2.log) := by
  intro hlast
  obtain ⟨hopen, -⟩ := step_of_opening hopening
  have hgreeted : EndLast (newsOf t.greeted.log) :=
    hlast.of_later ((log_grows_of_opening hopening).filterMap _)
  rcases hlate with hended | hlate
  -- The start itself is announced after the end.
  · obtain ⟨address, hnews⟩ := hopen.newsOf
    have hgrows := (path_greeted hopen.hasSession).log_grows.filterMap Effect.news?
    have ht := hgreeted.of_later hgrows
    change EndLast (newsOf t.log) at ht
    rw [hnews, endLast_concat_iff] at ht
    exact ht (hs.ended_mem hended)
  -- The end was announced during the call, and what the reply brings is told after it.
  · obtain ⟨u, hu, hcall, hask⟩ := t.wait.askStatus_cases
    obtain ⟨hreplied, hended⟩ := hlate
    obtain ⟨status, hstatus⟩ := Option.ne_none_iff_exists'.1 hreplied
    have hopened := (Stage.opened hopen).accounted hs
    have haccounted := hu.accounted ((drift_wait t).accounted hopened)
    rw [hcall] at hended
    rw [hstatus, hcall] at hask
    have hgrows := (drift_wait t.wait.askStatus).log_grows.filterMap Effect.news?
    have hasked := hgreeted.of_later hgrows
    change EndLast (newsOf t.wait.askStatus.log) at hasked
    rw [hask] at hasked
    change EndLast (newsOf ((u.note _).applyStatus status).log) at hasked
    rw [newsOf_take u rfl, endLast_concat_iff] at hasked
    exact hasked (haccounted.ended_mem hended)

/-! ### Giving up before the start

The first exception can be said in terms of the steps alone. Before a start was attempted no
connection can be lost, so the session has ended exactly if the client has disconnected.
-/

theorem ended_disconnect (s : Session) : s.disconnect.bridge.ended = true :=
  congrArg Course.ended (course_finish _)

/-- As long as no start was attempted, only the client can end the session. -/
theorem ended_step_of_fresh {s : Session} (hs : Accounted s.course (newsOf s.log)) {x : Step}
    (hfresh : (s.step x).2.bridge.started = false) :
    (s.step x).2.bridge.ended = true ↔
      s.bridge.ended = true ∨ ∃ asides, x = .operation .disconnect asides := by
  have hclosed : s.debuggee.connected = false := (hs.fresh ((path_step s x).fresh hfresh)).2
  cases x with
  | happening happening =>
      have hsame := ((drift_deliver s happening).of_not_open hclosed).1
      have hended : (s.deliver happening).bridge.ended = s.bridge.ended :=
        congrArg Course.ended hsame
      simp [step, hended]
  | edit => simp [step]
  | operation operation asides =>
      cases hstart : operation.start? s.bridge.config with
      | some arguments =>
          rw [started_step] at hfresh
          simp [Step.start?, hstart] at hfresh
      | none =>
          by_cases hkeep : operation = .disconnect
          · subst hkeep
            have hended : (s.step (.operation .disconnect asides)).2.bridge.ended = true :=
              ended_disconnect { s with asides }
            simp [hended]
          · have hdrift := drift_operate { s with asides } operation hstart hkeep
            have hended : (s.step (.operation operation asides)).2.bridge.ended = s.bridge.ended :=
              congrArg Course.ended (hdrift.of_not_open hclosed).1
            simp [hended, hkeep]

theorem ended_run_of_fresh (steps : List Step) :
    ∀ s : Session, Accounted s.course (newsOf s.log) → (s.run steps).bridge.started = false →
      ((s.run steps).bridge.ended = true ↔
        s.bridge.ended = true ∨ ∃ asides, .operation .disconnect asides ∈ steps) := by
  induction steps with
  | nil => simp
  | cons x rest ih =>
      intro s hs hfresh
      rw [run_cons] at hfresh ⊢
      have hstep : (s.step x).2.bridge.started = false := (path_run rest _).fresh hfresh
      rw [ih _ ((path_step s x).accounted hs) hfresh, ended_step_of_fresh hs hstep]
      simp only [List.mem_cons, exists_or, or_assoc, eq_comm]

/-- A start that connects finds the session ended where it was given up before, and only there. -/
theorem ended_of_opening {config : Config} {debuggee : Debuggee} {files : Files}
    {steps : List Step} {x : Step} {t : Session}
    (h : ((new config debuggee files).run steps).opening? x = some t) :
    ((new config debuggee files).run steps).bridge.ended = true ↔
      ∃ asides, .operation .disconnect asides ∈ steps := by
  have hfresh := (step_of_opening h).1.fresh
  rw [ended_run_of_fresh steps _ (accounted_new config debuggee files) hfresh]
  simp [new, Bridge.new]

/-! ### The connection after a start

Whether the bridge is connected behind a start is asked about in its own right. If the connection is
open at the end of the step, it was open throughout, and then nothing has ended the session in
between.
-/

/-- If the connection is still open, it has been all the time, and the session has not ended
meanwhile. -/
def Steady (s t : Session) : Prop :=
  t.debuggee.connected = true → s.debuggee.connected = true ∧ t.bridge.ended = s.bridge.ended

theorem Steady.trans {s t u : Session} (h : Steady s t) (h' : Steady t u) : Steady s u := by
  intro hopen
  obtain ⟨hbetween, hended⟩ := h' hopen
  exact ⟨(h hbetween).1, hended.trans (h hbetween).2⟩

theorem Drift.steady {s t : Session} (h : Drift s t) : Steady s t := h.ended_of_open

theorem steady_askStatus (s : Session) : Steady s s.askStatus := by
  obtain ⟨t, ht, hcall, hask⟩ := s.askStatus_cases
  have hcalled : Steady s (s.call (.put .sendStatus)).2 := by
    rw [hcall]
    exact ht.steady
  rw [hask]
  cases (s.call (.put .sendStatus)).1.status? with
  | none => exact hcalled
  | some status =>
      intro hopen
      have hcourse := course_applyStatus (s.call (.put .sendStatus)).2 status
      have hconnected := congrArg Course.connected hcourse
      have hended := congrArg Course.ended hcourse
      obtain ⟨hbefore, hkept⟩ := hcalled (hconnected.symm.trans hopen)
      exact ⟨hbefore, hended.trans hkept⟩

theorem steady_greeted (s : Session) : Steady s s.greeted :=
  ((drift_wait s).steady.trans (steady_askStatus _)).trans (drift_wait _).steady

theorem steady_pauseOnEntry (s : Session) : Steady s s.pauseOnEntry := by
  cases hstopped : s.bridge.runState.isStopped with
  | true =>
      rw [pauseOnEntry_of_stopped hstopped]
      exact (Drift.refl s).steady
  | false =>
      rw [pauseOnEntry_of_not_stopped hstopped]
      exact (drift_dispatch s.arm .pause).steady

theorem steady_of_opening {s t : Session} {x : Step} (h : s.opening? x = some t) :
    Steady t (s.step x).2 := by
  obtain ⟨-, -, hstep | hstep⟩ := step_of_opening h
  · rw [hstep]
    exact steady_greeted t
  · rw [hstep]
    exact (steady_greeted t).trans (steady_pauseOnEntry _)

/-- A start that connects and is not cut off leaves the bridge connected, unless the session had
ended before. -/
theorem isConnected_of_opening {s t : Session} {x : Step}
    (hs : Accounted s.course (newsOf s.log)) (h : s.opening? x = some t)
    (hopen : (s.step x).2.debuggee.connected = true) :
    (s.step x).2.bridge.isConnected = !s.bridge.ended := by
  have hstart : t.bridge.ended = s.bridge.ended :=
    congrArg Course.ended (step_of_opening h).1.course
  have hended : (s.step x).2.bridge.ended = s.bridge.ended :=
    (steady_of_opening h hopen).2.trans hstart
  have hsession : (s.step x).2.bridge.hasSession = true :=
    ((path_step s x).accounted hs).connection hopen
  rw [Bridge.isConnected, hsession, hended, Bool.true_and]

/-- A start that succeeds has opened a session. -/
theorem opening_of_done {s : Session} {operation : Operation} {asides : List (List Happening)}
    (hstart : (operation.start? s.bridge.config).isSome)
    (hdone : (s.step (.operation operation asides)).1 = .done) :
    ∃ t, s.opening? (.operation operation asides) = some t := by
  obtain ⟨⟨address, stopOnEntry, noDebug⟩, hstart⟩ := Option.isSome_iff_exists.1 hstart
  cases hopened : ({ s with asides } : Session).opened? address noDebug with
  | some t => exact ⟨t, by simp [opening?, hstart, hopened]⟩
  | none =>
      obtain ⟨failure, hfailed, -⟩ := start_of_not_opened stopOnEntry hopened
      have hoperate := operate_of_start? (s := { s with asides }) hstart
      have hanswer : (s.step (.operation operation asides)).1 = .failed failure := by
        show (({ s with asides } : Session).operate operation).1 = .failed failure
        rw [hoperate, Prod.map_fst, hfailed]
        rfl
      rw [hanswer] at hdone
      simp at hdone

/-! ### Every run

Until the first start that is too late, every step keeps the session settled. Behind it the end is
not last any more, and it stays so, as the news only grow.
-/

theorem settled_new (config : Config) (debuggee : Debuggee) (files : Files) :
    Settled (new config debuggee files) where
  accounted := accounted_new config debuggee files
  endLast := by simp [EndLast, new, newsOf]
  closed := nofun

theorem settled_run (steps : List Step) :
    ∀ s : Session, Settled s →
      (∀ before x after t, steps = before ++ x :: after → (s.run before).opening? x = some t →
        (s.run before).bridge.ended = false ∧ ¬ t.RepliesLate) →
      Settled (s.run steps) := by
  induction steps with
  | nil => exact fun s hs _ => hs
  | cons x rest ih =>
      intro s hs hok
      have hstep := hs.step fun t hopening => hok [] x rest t rfl hopening
      exact ih _ hstep fun before y after t hrest => hok (x :: before) y after t (by simp [hrest])

/-- **The news are orderly exactly when no start connects too late.** It must find the session not
given up before, and get the status it asks for, if any, while the session lasts. A start that
succeeds on a connection that stays open leaves the bridge connected exactly in the first case.

An end that is announced is never taken back, so a step that breaks the order breaks it for good,
and it is enough to look at the steps that open a session. Those that come in time keep the order
(`Settled.step`), and the others break it there and then (`not_endLast_of_late`). -/
theorem orderly_iff_started_in_time (config : Config) (debuggee : Debuggee) (files : Files)
    (steps : List Step) :
    let s := (new config debuggee files).run steps
    (Orderly (newsOf s.log) ↔
      ∀ before x after t, steps = before ++ x :: after →
        ((new config debuggee files).run before).opening? x = some t →
          (∀ asides, .operation .disconnect asides ∉ before) ∧ ¬ t.RepliesLate) ∧
      ∀ operation asides,
        let after := s.step (.operation operation asides)
        (operation.start? s.bridge.config).isSome → after.1 = .done →
          after.2.debuggee.connected = true →
            (after.2.bridge.isConnected = true ↔
              ∀ asides, .operation .disconnect asides ∉ steps) := by
  intro s
  have haccounted := accounted_run config debuggee files steps
  constructor
  · constructor
    · rintro horderly before x after t rfl hopening
      have hgrows := log_grows_run (((new config debuggee files).run before).step x).2 after
      rw [← run_cons, ← run_append] at hgrows
      have hstep := horderly.endLast.of_later (hgrows.filterMap Effect.news?)
      have htimely := fun hlate =>
        not_endLast_of_late (accounted_run config debuggee files before) hopening hlate hstep
      refine ⟨fun asides hmem => htimely (Or.inl ?_), fun hlate => htimely (Or.inr hlate)⟩
      exact (ended_of_opening hopening).2 ⟨asides, hmem⟩
    · intro hok
      have hsettled : Settled s := by
        refine settled_run steps _ (settled_new config debuggee files)
          fun before x after t hsteps hopening => ?_
        obtain ⟨hkept, htimely⟩ := hok before x after t hsteps hopening
        refine ⟨Bool.eq_false_iff.2 fun hended => ?_, htimely⟩
        obtain ⟨asides, hmem⟩ := (ended_of_opening hopening).1 hended
        exact hkept asides hmem
      exact haccounted.orderly hsettled.endLast
  · intro operation asides after hstart hdone hopen
    obtain ⟨t, hopening⟩ := opening_of_done hstart hdone
    have hgiven := ended_of_opening hopening
    rw [isConnected_of_opening haccounted hopening hopen, Bool.not_eq_true', ← Bool.not_eq_true,
      hgiven, not_exists]

/-- Both ways to break the order occur: a session that is given up before it starts, and one that
loses its connection while the debuggee replies with its status. -/
theorem order_breaks :
    (let s := (new .initial ⟨"localhost", 8000, false, .accepted, [], false⟩ (.named [])).run
        [.operation .disconnect]
      let after := s.step (.operation .startConfigured)
      after.1 = .done ∧ after.2.debuggee.connected = true ∧ after.2.bridge.isConnected = false ∧
        ¬ Orderly (newsOf after.2.log)) ∧
    (let status := "\x7b\"data\":\x7b\"runstate\":\"running\"\x7d\x7d"
      let debuggee : Debuggee :=
        ⟨"localhost", 8000, false, .accepted, [("SendStatus", [⟨[], .replied 200 status⟩])], false⟩
      let s := (new .initial debuggee (.named [])).run [.operation .startConfigured [[], [.close]]]
      ¬ Orderly (newsOf s.log)) := by
  refine ⟨⟨by decide +kernel, by decide +kernel, by decide +kernel, fun horderly => ?_⟩,
    fun horderly => ?_⟩
  · exact absurd horderly.endLast (by unfold EndLast; decide +kernel)
  · exact absurd horderly.endLast (by unfold EndLast; decide +kernel)

end Session

end DebugBridge
