/-
How the client learns of the statuses that come in.

`Told` says of a log that every status is told at once, by an event of its own, and that nothing
else tells a state; a stop counts as the one on entry where that is `Awaited`. It is a property of
the log alone, so it can be read without knowing the bridge. `Labelled` adds what the bridge has to
remember for this, which is a single flag, and is what every stage keeps.

That the events follow the statuses one by one (`Told.forall₂`) is then a fact about lists. What is
held is the last of the statuses (`Telling.held`), and with that the bridge has nothing of the
debuggee that the log does not have.
-/
import DebugBridge.Proofs.Step
import Mathlib.Data.List.Forall2

namespace DebugBridge

/-- The stop on entry has been armed, and no stop has come in since. -/
def Awaited (log : List Effect) : Prop :=
  ∃ before after, log = before ++ .armed :: after ∧
    ∀ e ∈ after, ∀ status, e.status? = some status → status.runState.isStopped = false

theorem not_awaited_nil : ¬ Awaited [] := by
  rintro ⟨before, after, h, -⟩
  simp at h

/-- Arming makes it awaited, and a stop ends that. -/
theorem awaited_append_iff {log : List Effect} {e : Effect} :
    Awaited (log ++ [e]) ↔ e = .armed ∨
      Awaited log ∧ ∀ status, e.status? = some status → status.runState.isStopped = false := by
  constructor
  · rintro ⟨before, after, heq, hafter⟩
    -- Either the arming itself is the last entry, or it was in the log before.
    rcases List.eq_nil_or_concat after with rfl | ⟨between, last, rfl⟩
    · exact Or.inl (List.append_inj_right' heq rfl |> List.singleton_inj.1)
    · rw [List.concat_eq_append, ← List.cons_append, ← List.append_assoc] at heq
      obtain ⟨hlog, hlast⟩ := List.append_inj' heq rfl
      rw [List.singleton_inj] at hlast
      subst hlast
      refine Or.inr ⟨⟨before, between, hlog, fun x hx => hafter x (by simp [hx])⟩, ?_⟩
      exact hafter e (by simp)
  · rintro (rfl | ⟨⟨before, after, rfl, hafter⟩, he⟩)
    · exact ⟨log, [], rfl, by simp⟩
    · refine ⟨before, after ++ [e], by simp, fun x hx => ?_⟩
      rcases List.mem_append.1 hx with hx | hx
      · exact hafter x hx
      · rwa [List.mem_singleton.1 hx]

/-- Every status in this log is told at once, and nothing else tells a state. The log is built from
its end: an entry that neither brings nor tells a status may be added, and a status together with
the event that tells it. Whether a stop is told as the one on entry is settled by the log before it.
-/
inductive Told : List Effect → Prop
  | nil : Told []
  | other {log : List Effect} {e : Effect} (h : Told log) (hstatus : e.status? = none)
      (hnews : ∀ event, e.news? = some event → event.tellsState = false) : Told (log ++ [e])
  | status {log : List Effect} {e : Effect} {status : Status} {onEntry : Bool} (h : Told log)
      (hstatus : e.status? = some status) (honEntry : onEntry = true ↔ Awaited log) :
      Told (log ++ [e] ++ [.emitted (.telling onEntry status.runState)])

/-- What brings a status is not itself told to the client. -/
theorem Effect.news?_of_status? {e : Effect} {status : Status} (h : e.status? = some status) :
    e.news? = none := by
  cases e with
  | heard | answered => rfl
  | _ => simp [status?] at h

/-- An event that tells a status of its own: it says "stopped" exactly when that status is. -/
def Tells (event : Event) (status : Status) : Prop :=
  event.tellsState = true ∧ event.isStopped = status.runState.isStopped

/-- **The events that tell a state are those of the statuses, one for each and in their order.** An
event says "stopped" exactly when its status is a stop, so a client that counts stops counts those
of the debuggee. -/
theorem Told.forall₂ {log : List Effect} (h : Told log) :
    List.Forall₂ Tells ((newsOf log).filter Event.tellsState) (statusesOf log) := by
  induction h with
  | nil => exact .nil
  | @other log e _ hstatus hnews ih =>
      have hstatuses : statusesOf [e] = [] := by simp [statusesOf, hstatus]
      have htells : (newsOf [e]).filter Event.tellsState = [] := by
        cases he : e.news? with
        | none => simp [newsOf, he]
        | some event => simp [newsOf, he, hnews event he]
      simpa [hstatuses, htells] using ih
  | @status log e status onEntry _ hstatus _ ih =>
      have hnews : newsOf (log ++ [e] ++ [.emitted (.telling onEntry status.runState)])
          = newsOf log ++ [.telling onEntry status.runState] := by
        simp [newsOf, Effect.news?_of_status? hstatus, Effect.news?_emitted_telling]
      have hstatuses : statusesOf (log ++ [e] ++ [.emitted (.telling onEntry status.runState)])
          = statusesOf log ++ [status] := by
        simp [statusesOf, hstatus]
      rw [hnews, hstatuses, List.filter_append]
      refine List.rel_append ih ?_
      simp [Tells]

/-! ### What the bridge remembers

The bridge has no log to look back at when a stop comes in. All that it keeps for this is whether
the stop on entry is pending, and that the flag is up exactly where a stop is awaited is part of the
invariant. The other part counts: an announced stop on entry has used up an arming, and a flag that
is up has one left to use.
-/

def Event.isEntryStop : Event → Bool
  | stopped .entry _ => true
  | _ => false

theorem Event.isEntryStop_telling (onEntry : Bool) (state : RunState) :
    (telling onEntry state).isEntryStop = (onEntry && state.isStopped) := by
  cases state <;> cases onEntry <;> rfl

theorem Event.isEntryStop_of_not_tellsState {event : Event} (h : event.tellsState = false) :
    event.isEntryStop = false := by
  cases event <;> simp_all [tellsState, isEntryStop]

/-- How many stops were announced as the one on entry. -/
def entryStopsIn (log : List Effect) : Nat := (newsOf log).countP Event.isEntryStop

/-- How often the stop on entry was armed. -/
def armingsIn (log : List Effect) : Nat := log.count .armed

theorem entryStopsIn_append (log more : List Effect) :
    entryStopsIn (log ++ more) = entryStopsIn log + entryStopsIn more := by
  rw [entryStopsIn, newsOf_append, List.countP_append]
  rfl

theorem armingsIn_append (log more : List Effect) :
    armingsIn (log ++ more) = armingsIn log + armingsIn more :=
  List.count_append

/-- A log that tells what came in, and the flag for the stop on entry. The flag can be told from the
log, and the armings in it pay for the stops on entry that were announced and for the flag. -/
structure Labelled (pending : Bool) (log : List Effect) : Prop where
  told : Told log
  awaited : pending = true ↔ Awaited log
  /-- Every announcement of a stop on entry has used up an arming. -/
  paid : entryStopsIn log + pending.toNat ≤ armingsIn log

namespace Labelled

variable {pending : Bool} {log : List Effect}

theorem empty : Labelled false [] := ⟨.nil, by simp [not_awaited_nil], Nat.le_refl 0⟩

/-- Whatever neither brings nor tells a status may be added. -/
theorem other (h : Labelled pending log) {e : Effect} (hstatus : e.status? = none)
    (hnews : ∀ event, e.news? = some event → event.tellsState = false) (harmed : e ≠ .armed) :
    Labelled pending (log ++ [e]) where
  told := h.told.other hstatus hnews
  awaited := by
    rw [awaited_append_iff, h.awaited]
    simp [harmed, hstatus]
  paid := by
    have hentry : entryStopsIn [e] = 0 := by
      cases he : e.news? with
      | none => simp [entryStopsIn, newsOf, he]
      | some event =>
          simp [entryStopsIn, newsOf, he, Event.isEntryStop_of_not_tellsState (hnews event he)]
    rw [entryStopsIn_append, hentry, armingsIn_append]
    exact Nat.le_trans h.paid (Nat.le_add_right _ _)

theorem idle (h : Labelled pending log) {effects : List Effect} (hidle : ∀ e ∈ effects, e.Idle) :
    Labelled pending (log ++ effects) := by
  induction effects generalizing log with
  | nil => rwa [List.append_nil]
  | cons e rest ih =>
      have he := hidle e (by simp)
      rw [List.append_cons]
      have hnews : ∀ event, e.news? = some event → event.tellsState = false := by simp [he.news]
      exact ih (h.other he.status hnews he.notArmed) fun x hx => hidle x (by simp [hx])

theorem arm (h : Labelled pending log) : Labelled true (log ++ [.armed]) where
  told := h.told.other rfl nofun
  awaited := by simp [awaited_append_iff]
  paid := by
    have hpaid := h.paid
    rw [entryStopsIn_append, armingsIn_append]
    exact Nat.add_le_add_right (Nat.le_trans (Nat.le_add_right _ _) hpaid) 1

/-- A status is told, and a stop uses up what was pending. -/
theorem take (h : Labelled pending log) {e : Effect} {status : Status}
    (hstatus : e.status? = some status) :
    Labelled (pending && !status.runState.isStopped)
      (log ++ [e] ++ [.emitted (.telling pending status.runState)]) where
  told := h.told.status hstatus h.awaited
  awaited := by
    have harmed : e ≠ .armed := by
      rintro rfl
      simp [Effect.status?] at hstatus
    rw [awaited_append_iff, awaited_append_iff, ← h.awaited]
    simp [harmed, hstatus]
  paid := by
    have hpaid := h.paid
    have hentry : entryStopsIn [e] = 0 := by
      simp [entryStopsIn, newsOf, Effect.news?_of_status? hstatus]
    have hlast : entryStopsIn [.emitted (.telling pending status.runState)]
        = (pending && status.runState.isStopped).toNat := by
      rw [← Event.isEntryStop_telling]
      simp only [entryStopsIn, newsOf, List.filterMap_cons, Effect.news?_emitted_telling,
        List.filterMap_nil, List.countP_singleton]
      cases (Event.telling pending status.runState).isEntryStop <;> rfl
    rw [entryStopsIn_append, entryStopsIn_append, hentry, hlast, armingsIn_append,
      armingsIn_append]
    cases pending <;> cases status.runState.isStopped <;> simp_all <;> omega

end Labelled

namespace Session

/-! ### Every run

A new session has told nothing and awaits nothing. Of the stages only three do anything to what is
told: a status is taken, the stop on entry is armed, or something is announced that tells no state.
-/

/-- What the client was told is what came in, and what came in last is held. This holds in every
run, whatever the debuggee pushes and whenever it does (`telling_run`). -/
structure Telling (s : Session) : Prop where
  labelled : Labelled s.bridge.entryPending s.log
  held : s.bridge.status = (statusesOf s.log).getLastD .initial

theorem telling_new (config : Config) (debuggee : Debuggee) (files : Files) :
    Telling (new config debuggee files) :=
  ⟨Labelled.empty, rfl⟩

/-- Noting what brings no status and tells none changes neither. -/
theorem Telling.other {s t : Session} (h : Telling s)
    (hpending : t.bridge.entryPending = s.bridge.entryPending)
    (hheld : t.bridge.status = s.bridge.status) {e : Effect} (hlog : t.log = s.log ++ [e])
    (hstatus : e.status? = none) (hnews : ∀ event, e.news? = some event → event.tellsState = false)
    (harmed : e ≠ .armed) : Telling t where
  labelled := by
    rw [hpending, hlog]
    exact h.labelled.other hstatus hnews harmed
  held := by
    rw [hheld, hlog, statusesOf_append, h.held]
    simp [statusesOf, hstatus]

theorem Telling.take {s : Session} (h : Telling s) {e : Effect} {status : Status}
    (hstatus : e.status? = some status) : Telling ((s.note e).applyStatus status) where
  labelled := by
    have hpending : ((s.note e).applyStatus status).bridge.entryPending
        = (s.bridge.entryPending && !status.runState.isStopped) :=
      congrArg Course.entryPending (course_applyStatus (s.note e) status)
    rw [hpending, log_applyStatus, log_note]
    exact h.labelled.take hstatus
  held := by
    have hheld : ((s.note e).applyStatus status).bridge.status = status :=
      congrArg Course.status (course_applyStatus (s.note e) status)
    have hbrings : statusesOf [e] = [status] := by simp [statusesOf, hstatus]
    rw [hheld, log_applyStatus, log_note, statusesOf_append, statusesOf_append, hbrings,
      statusesOf_emitted]
    simp

theorem Telling.finish {s t : Session} (h : Telling s)
    (hpending : t.bridge.entryPending = s.bridge.entryPending)
    (hheld : t.bridge.status = s.bridge.status) (hlog : t.log = s.log) : Telling t.finish := by
  have ht : Telling t := ⟨by rw [hpending, hlog]; exact h.labelled, by rw [hheld, hlog, h.held]⟩
  unfold Session.finish
  split
  · exact ht
  · exact ht.other rfl rfl rfl rfl (by simp [Effect.news?, Event.tellsState]) (by simp)

theorem Drift.telling {s t : Session} (h : Drift s t) (hs : Telling s) : Telling t := by
  induction h with
  | refl => exact hs
  | @idle t u effects _ hcourse hlog hidle ih =>
      have hpending : u.bridge.entryPending = t.bridge.entryPending :=
        congrArg Course.entryPending hcourse
      have hheld : u.bridge.status = t.bridge.status := congrArg Course.status hcourse
      refine ⟨?_, ?_⟩
      · rw [hpending, hlog]
        exact ih.labelled.idle hidle
      · rw [hheld, hlog, statusesOf_append, statusesOf_eq_nil hidle, List.append_nil, ih.held]
  | hear _ _ hframe ih => exact ih.take (Effect.status?_heard hframe)
  | lose _ _ ih => exact ih.finish rfl rfl rfl

theorem Stage.telling {s t : Session} (h : Stage s t) (hs : Telling s) : Telling t := by
  cases h with
  | drift h => exact h.telling hs
  | opened h =>
      obtain ⟨address, hlog⟩ := h.log
      exact hs.other (congrArg Course.entryPending h.course) (congrArg Course.status h.course) hlog
        rfl (by simp [Effect.news?, Event.tellsState]) (by simp)
  | failed => exact hs.finish rfl rfl rfl
  | replied _ hstatus => exact hs.take hstatus
  | armed =>
      refine ⟨hs.labelled.arm, ?_⟩
      show s.bridge.status = (statusesOf (s.log ++ [.armed])).getLastD .initial
      rw [statusesOf_append, hs.held]
      simp [statusesOf, Effect.status?]
  | left => exact hs.finish rfl rfl rfl
  | finished => exact hs.finish rfl rfl rfl

theorem telling_run (config : Config) (debuggee : Debuggee) (files : Files) (steps : List Step) :
    Telling ((new config debuggee files).run steps) :=
  run_preserves (P := Telling) Stage.telling (telling_new config debuggee files) steps

end Session

end DebugBridge
