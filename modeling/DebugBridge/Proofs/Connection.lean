/-
What the flags of a bridge have to do with what its client was told.

`Accounted` is the invariant: the start is announced at most once and only by the session that has
been opened, the end at most once and only by the session that has ended, and no state of the
debuggee before the start. It speaks of the course of a session and of the news in its log and of
nothing else, so a drift has to be looked at where a status is pushed or the connection is lost, and
nowhere else.

What a client can rely on is read off it at the end (`connected_between_announcements`). That a
bridge which is not connected asks nothing of the debuggee is not part of the invariant; it is a
fact about single operations, which look at the connection before they call.
-/
import DebugBridge.Proofs.Step

namespace DebugBridge

def Event.isStarted : Event → Bool
  | started _ => true
  | _ => false

@[simp] theorem Event.isStarted_telling (onEntry : Bool) (state : RunState) :
    (telling onEntry state).isStarted = false := by
  cases state <;> rfl

theorem Event.telling_ne_ended (onEntry : Bool) (state : RunState) :
    telling onEntry state ≠ ended := by
  cases state <;> simp [telling]

/-- How often the start was announced. -/
def startsIn (news : List Event) : Nat := news.countP Event.isStarted

/-- How often the end was announced. -/
def endsIn (news : List Event) : Nat := news.count .ended

@[simp] theorem startsIn_append (news more : List Event) :
    startsIn (news ++ more) = startsIn news + startsIn more :=
  List.countP_append

@[simp] theorem endsIn_append (news more : List Event) :
    endsIn (news ++ more) = endsIn news + endsIn more :=
  List.count_append

theorem startsIn_told (onEntry : Bool) (state : RunState) :
    startsIn [.telling onEntry state] = 0 := by
  simp [startsIn]

theorem endsIn_told (onEntry : Bool) (state : RunState) : endsIn [.telling onEntry state] = 0 := by
  simp [endsIn, Event.telling_ne_ended]

@[simp] theorem startsIn_started (address : String) : startsIn [.started address] = 1 := rfl

@[simp] theorem endsIn_started (address : String) : endsIn [.started address] = 0 := rfl

theorem endsIn_newsOf (log : List Effect) : endsIn (newsOf log) = (eventsIn log).count .ended := by
  rw [endsIn, newsOf, eventsIn, List.count_filterMap, List.count_filterMap]
  refine List.countP_congr fun effect _ => ?_
  cases effect with
  | emitted event => cases event <;> rfl
  | _ => rfl

/-- What `finish` announces: the end, unless it has been announced. -/
def farewell (ended : Bool) : List Event := if ended then [] else [.ended]

@[simp] theorem startsIn_farewell (ended : Bool) : startsIn (farewell ended) = 0 := by
  cases ended <;> rfl

@[simp] theorem endsIn_farewell (ended : Bool) :
    endsIn (farewell ended) = (!ended).toNat := by
  cases ended <;> rfl

/-- Every state in these news comes after a start. A client that waits for the start before it looks
at the debuggee misses nothing. -/
def StartFirst (news : List Event) : Prop :=
  ∀ before event after, news = before ++ event :: after → event.tellsState = true →
    0 < startsIn before

/-- News can be added that tell no state, or any after a start. Once the start has been announced,
then, nothing more has to be asked of what is announced. -/
theorem StartFirst.append {news more : List Event} (h : StartFirst news)
    (hmore : ∀ event ∈ more, event.tellsState = true → 0 < startsIn news) :
    StartFirst (news ++ more) := by
  intro before event after heq htells
  rcases List.append_eq_append_iff.1 heq with ⟨between, rfl, hrest⟩ | ⟨between, rfl, hrest⟩
  · have hmem : event ∈ more := by
      rw [hrest]
      simp
    rw [startsIn_append]
    exact Nat.add_pos_left (hmore event hmem htells) _
  · cases between with
    | nil =>
        have hmem : event ∈ more := by
          rw [← List.nil_append more, ← hrest]
          simp
        simpa using hmore event hmem htells
    | cons first rest =>
        simp only [List.cons_append, List.cons.injEq] at hrest
        obtain ⟨rfl, rfl⟩ := hrest
        exact h before event rest rfl htells

/-- The flags of a course agree with the news. Each clause ties one flag to how often something was
announced, and together they are strong enough to survive every stage. -/
structure Accounted (c : Course) (news : List Event) : Prop where
  /-- The start is announced once at most, and only when it was attempted. -/
  starts : startsIn news ≤ c.started.toNat
  /-- The end has been announced exactly when the session has ended. -/
  ends : endsIn news = c.ended.toNat
  /-- There is a session only after a start. -/
  session : c.hasSession = true → 0 < startsIn news
  /-- A session that was started is there as long as it has not ended. -/
  kept : 0 < startsIn news → c.hasSession = true ∨ c.ended = true
  /-- Only a session has a connection. -/
  connection : c.connected = true → c.hasSession = true
  startFirst : StartFirst news

namespace Accounted

variable {c : Course} {news : List Event}

theorem take (h : Accounted c news) (hsession : c.hasSession = true) (status : Status)
    (onEntry : Bool) :
    Accounted (c.take status) (news ++ [.telling onEntry status.runState]) where
  starts := by simpa [startsIn_told, Course.take] using h.starts
  ends := by simpa [endsIn_told, Course.take] using h.ends
  session := by simpa [startsIn_told, Course.take] using h.session
  kept := by simpa [startsIn_told, Course.take] using h.kept
  connection := by simpa [Course.take] using h.connection
  startFirst := h.startFirst.append fun _ _ _ => h.session hsession

/-- The end can be announced wherever the connection goes, and the session with it or not. -/
theorem finish (h : Accounted c news) {hasSession connected : Bool}
    (hsession : hasSession = true → c.hasSession = true)
    (hconnected : connected = true → hasSession = true) :
    Accounted { c with ended := true, hasSession, connected } (news ++ farewell c.ended) where
  starts := by simpa using h.starts
  ends := by
    have hends := h.ends
    cases hc : c.ended <;> simp_all
  session := by simpa using fun hs => h.session (hsession hs)
  kept := fun _ => Or.inr rfl
  connection := hconnected
  startFirst := by
    refine h.startFirst.append fun event hmem htells => ?_
    cases hc : c.ended <;> simp_all [farewell, Event.tellsState]

theorem opened (h : Accounted c news) (hfresh : c.started = false) (address : String) :
    Accounted { c with started := true, hasSession := true, connected := true }
      (news ++ [.started address]) where
  starts := by
    have hstarts := h.starts
    rw [hfresh] at hstarts
    simp only [Bool.toNat_false, Nat.le_zero] at hstarts
    rw [startsIn_append, hstarts]
    exact Nat.le_refl 1
  ends := by simpa using h.ends
  session := fun _ => by simp
  kept := fun _ => Or.inl rfl
  connection := fun _ => rfl
  startFirst := h.startFirst.append fun event hmem htells => by
    rw [List.mem_singleton.1 hmem] at htells
    simp [Event.tellsState] at htells

theorem ended_mem (h : Accounted c news) (hended : c.ended = true) : .ended ∈ news := by
  have hends := h.ends
  rw [hended] at hends
  exact List.count_pos_iff.1 (Nat.lt_of_lt_of_eq Nat.one_pos hends.symm)

theorem not_connected (h : Accounted c news) (hsession : c.hasSession = false) :
    c.connected = false := by
  cases hopen : c.connected with
  | false => rfl
  | true => exact absurd (h.connection hopen) (by simp [hsession])

/-- Before a start there is nothing. -/
theorem fresh (h : Accounted c news) (hfresh : c.started = false) :
    c.hasSession = false ∧ c.connected = false := by
  have hnone : startsIn news = 0 := by
    have hstarts := h.starts
    rw [hfresh] at hstarts
    exact Nat.le_zero.1 hstarts
  have hsession : c.hasSession = false := by
    cases hc : c.hasSession with
    | false => rfl
    | true => exact absurd (h.session hc) (by simp [hnone])
  exact ⟨hsession, h.not_connected hsession⟩

theorem attempted (h : Accounted c news) : Accounted { c with started := true } news :=
  { h with starts := Nat.le_trans h.starts (Bool.toNat_le c.started) }

end Accounted

theorem newsOf_told (onEntry : Bool) (state : RunState) :
    newsOf [.emitted (.telling onEntry state)] = [.telling onEntry state] := by
  simp [newsOf, Effect.news?_emitted_telling]

theorem newsOf_ended (ended : Bool) :
    newsOf (if ended then [] else [.emitted .ended]) = farewell ended := by
  cases ended <;> rfl

namespace Session

/-! ### The news of each part

The invariant is about the news and not about the log, so there is a lemma for each part of a step
that says what it adds to the news. Taking a status adds the event that tells it, finishing adds the
farewell, and opening adds the start.
-/

/-- When an effect brings a status, that is what the client gets to know. -/
theorem newsOf_take (s : Session) {e : Effect} (he : e.news? = none) (status : Status) :
    newsOf ((s.note e).applyStatus status).log =
      newsOf s.log ++ [.telling s.bridge.entryPending status.runState] := by
  have hnone : newsOf [e] = [] := by simp [newsOf, he]
  simp only [log_applyStatus, log_note, newsOf_append, newsOf_told, hnone, List.append_nil]
  rfl

theorem newsOf_finish (s : Session) :
    newsOf s.finish.log = newsOf s.log ++ farewell s.bridge.ended := by
  rw [log_finish, newsOf_append, newsOf_ended]

theorem newsOf_lose (s : Session) :
    newsOf s.lose.log = newsOf s.log ++ farewell s.bridge.ended := by
  rw [log_lose, newsOf_append, newsOf_ended]

theorem Opened.newsOf {s t : Session} (h : Opened s t) :
    ∃ address, newsOf t.log = newsOf s.log ++ [.started address] := by
  obtain ⟨address, hlog⟩ := h.log
  exact ⟨address, by rw [hlog, newsOf_append]; rfl⟩

/-! ### The invariant

A new session is accounted for, and every stage keeps that. The cases of a drift are the ones in
which the news grow; of the stages, the failed start and the two ways to disconnect are the same
case, that of finishing, with other flags left behind.
-/

theorem accounted_new (config : Config) (debuggee : Debuggee) (files : Files) :
    Accounted (new config debuggee files).course (newsOf (new config debuggee files).log) where
  starts := Nat.zero_le _
  ends := rfl
  session := nofun
  kept := nofun
  connection := nofun
  startFirst := by simp [StartFirst, new, newsOf]

theorem Drift.accounted {s t : Session} (h : Drift s t)
    (hs : Accounted s.course (newsOf s.log)) : Accounted t.course (newsOf t.log) := by
  induction h with
  | refl => exact hs
  | idle _ hcourse hlog hidle ih =>
      rwa [hcourse, hlog, newsOf_append, newsOf_eq_nil hidle, List.append_nil]
  | hear _ hopen _ ih =>
      rw [course_applyStatus, course_note, newsOf_take _ rfl]
      exact ih.take (ih.connection hopen) _ _
  | lose _ _ ih =>
      rw [course_lose, newsOf_lose]
      exact ih.finish id nofun

/-- No stage breaks the account. Whatever announces that the session starts or ends raises the flag
that goes with it in the same stage. -/
theorem Stage.accounted {s t : Session} (h : Stage s t)
    (hs : Accounted s.course (newsOf s.log)) : Accounted t.course (newsOf t.log) := by
  cases h with
  | drift h => exact h.accounted hs
  | opened h =>
      obtain ⟨address, hnews⟩ := h.newsOf
      rw [h.course, hnews]
      exact hs.opened h.fresh address
  | failed noDebug hfresh =>
      rw [course_finish, newsOf_finish]
      exact hs.attempted.finish id hs.connection
  | replied hsession _ =>
      rw [course_applyStatus, course_note, newsOf_take _ rfl]
      exact hs.take hsession _ _
  | armed =>
      have hnews : newsOf s.arm.log = newsOf s.log := by simp [newsOf, Effect.news?]
      rw [course_arm, hnews]
      exact { hs with }
  | left =>
      rw [course_finish, newsOf_finish]
      exact hs.finish nofun nofun
  | finished hsession =>
      rw [course_finish, newsOf_finish]
      exact hs.finish id hs.connection

theorem Path.accounted {s t : Session} (h : Path s t) (hs : Accounted s.course (newsOf s.log)) :
    Accounted t.course (newsOf t.log) :=
  h.preserves (P := fun s => Accounted s.course (newsOf s.log)) Stage.accounted hs

theorem accounted_run (config : Config) (debuggee : Debuggee) (files : Files)
    (steps : List Step) :
    Accounted ((new config debuggee files).run steps).course
      (newsOf ((new config debuggee files).run steps).log) :=
  (path_run steps _).accounted (accounted_new config debuggee files)

/-! ### Without a connection

Commands for the execution and looks at variables ask first whether the bridge is connected. Where
it is not they leave the session as it was, so no request goes out, whatever their arguments.
-/

theorem dispatch_of_not_connected {s : Session} (h : s.bridge.isConnected = false)
    (control : Control) : s.dispatch control = s := by
  rw [dispatch, if_neg (by simp [h])]

theorem expandHandle_of_not_connected {s : Session} (h : s.bridge.isConnected = false)
    (handle : VariableHandle) : (s.expandHandle handle).2 = s := by
  unfold expandHandle
  split
  · rfl
  · rw [if_neg (by simp [h])]

theorem expandReference_of_not_connected {s : Session} (h : s.bridge.isConnected = false)
    (reference : Int64) : (s.expandReference reference).2 = s := by
  unfold expandReference
  split
  · rfl
  · exact expandHandle_of_not_connected h _

end Session

/-- Whether an operation is a command that moves or halts execution, or a look at variables. -/
def Operation.callsDebuggee : Operation → Bool
  | .execute _ | .expandReference _ | .expandHandle _ => true
  | _ => false

/-- The requests that the debuggee received, in order. -/
def requestsOf (log : List Effect) : List Request := log.filterMap Effect.request?

namespace Session

theorem requestsOf_step_of_not_connected {s : Session} (h : s.bridge.isConnected = false)
    {operation : Operation} (hcalls : operation.callsDebuggee = true)
    (asides : List (List Happening)) :
    requestsOf (s.step (.operation operation asides)).2.log = requestsOf s.log := by
  have hset : ({ s with asides } : Session).bridge.isConnected = false := h
  have key : ({ s with asides }.operate operation).2 = { s with asides } := by
    cases operation with
    | execute control => exact dispatch_of_not_connected hset control
    | expandReference reference => exact expandReference_of_not_connected hset reference
    | expandHandle handle => exact expandHandle_of_not_connected hset handle
    | _ => simp [Operation.callsDebuggee] at hcalls
  show requestsOf ({ s with asides }.operate operation).2.log = requestsOf s.log
  rw [key]

/-- Once the end has been announced, it has been announced for good. -/
theorem endsIn_le_run (s : Session) (more : List Step) :
    endsIn (newsOf s.log) ≤ endsIn (newsOf (s.run more).log) := by
  obtain ⟨rest, hlog⟩ := log_grows_run s more
  rw [← hlog, newsOf_append, endsIn_append]
  exact Nat.le_add_right _ _

/-- **A bridge is connected exactly between the two announcements.** Each comes once at most, no
state is told before the first, and after the second no command for the execution and no look at
variables makes a request, however the run goes on. So the flag that clients ask for never says
anything but what they could tell from the events.

All of it is read off one invariant, which ties the flags of the bridge to how often each of the two
was announced (`accounted_run`). The flags are not enough by themselves: that no state is told
before the start is kept by looking at the news. -/
theorem connected_between_announcements (config : Config) (debuggee : Debuggee) (files : Files)
    (steps : List Step) :
    let s := (new config debuggee files).run steps
    startsIn (newsOf s.log) ≤ 1 ∧ endsIn (newsOf s.log) ≤ 1 ∧ StartFirst (newsOf s.log) ∧
      (s.bridge.isConnected = true ↔
        0 < startsIn (newsOf s.log) ∧ endsIn (newsOf s.log) = 0) ∧
      (0 < endsIn (newsOf s.log) → ∀ more,
        (s.run more).bridge.isConnected = false ∧
          ∀ operation asides, operation.callsDebuggee = true →
            requestsOf ((s.run more).step (.operation operation asides)).2.log =
              requestsOf (s.run more).log) := by
  intro s
  have h : Accounted s.course (newsOf s.log) := accounted_run config debuggee files steps
  refine ⟨Nat.le_trans h.starts (Bool.toNat_le _), ?_, h.startFirst, ?_, ?_⟩
  · rw [h.ends]
    exact Bool.toNat_le _
  · have hends : endsIn (newsOf s.log) = 0 ↔ s.bridge.ended = false := by
      rw [h.ends, Bool.toNat_eq_zero]
      rfl
    rw [hends, Bridge.isConnected, Bool.and_eq_true, Bool.not_eq_true']
    constructor
    · exact fun ⟨hsession, halive⟩ => ⟨h.session hsession, halive⟩
    · rintro ⟨hstarted, halive⟩
      refine ⟨(h.kept hstarted).resolve_right ?_, halive⟩
      simp [course, halive]
  · intro hended more
    have hmore : Accounted (s.run more).course (newsOf (s.run more).log) := by
      have := accounted_run config debuggee files (steps ++ more)
      rwa [run_append] at this
    have hpos : 0 < (s.run more).course.ended.toNat :=
      hmore.ends ▸ Nat.lt_of_lt_of_le hended (endsIn_le_run s more)
    have hover : (s.run more).bridge.ended = true := by
      rwa [Nat.pos_iff_ne_zero, Ne, Bool.toNat_eq_zero, Bool.not_eq_false] at hpos
    have hoff : (s.run more).bridge.isConnected = false := by simp [Bridge.isConnected, hover]
    exact ⟨hoff, fun operation asides hcalls =>
      requestsOf_step_of_not_connected hoff hcalls asides⟩

end Session

end DebugBridge
