/-
Breakpoints and the session have nothing to do with each other.

The one side of it is that a session does not need its desk. The other is that the desk does not
need the session: what becomes of breakpoints and sources depends on these alone, on the mode, on
whether a start was tried and on what the files hold (`deskOnly`). A start sets the mode, whether or
not it connects, and the client edits the files; nothing else reaches the desk from outside.

So steps on either side can be left out of a run, and the other side does not change. Both
statements compare two runs of different length, and they compare all that a step shows: its answer,
what was noticed during it, the run-state and whether the bridge is connected, as far as these are
on the side in question.
-/
import DebugBridge.Proofs.Deskless

namespace DebugBridge

/-- Whether an operation has to do with the debuggee alone: with what it runs, its variables and its
stack, and with the end. -/
def Operation.onSession : Operation → Bool
  | .execute _ | .expandReference _ | .expandHandle _ | .scopes _ | .stack | .stackPage _ _
  | .threads | .disconnect => true
  | _ => false

/-- Whether a step has to do with the debuggee alone. -/
def Step.onSession : Step → Bool
  | .operation asked _ => asked.onSession
  | .happening _ => true
  | .edit _ _ => false

namespace Session

/-- A session that has the desk of this one and nothing else. Its debuggee is one that nobody
reaches, so that nothing can come from there by mistake. -/
def deskOnly (s : Session) : Session where
  bridge := { Bridge.new s.bridge.config with
    registry := s.bridge.registry
    sources := s.bridge.sources
    started := s.bridge.started
    noDebug := s.bridge.noDebug }
  debuggee := ⟨"", 0, false, .refused, [], false⟩
  files := s.files
  asides := []
  log := deskOf s.log

theorem deskOnly_note {e : Effect} (h : e.isDesk = true) (s : Session) :
    (s.note e).deskOnly = s.deskOnly.note e := by
  simp [deskOnly, note, deskOf, h]

theorem deskOnly_note_of_not_desk {e : Effect} (h : e.isDesk = false) (s : Session) :
    (s.note e).deskOnly = s.deskOnly := by
  simp [deskOnly, note, deskOf, h]

/-! ### Breakpoints -/

theorem followsDesk_deskOnly : FollowsDesk deskOnly where
  registry _ := rfl
  sources _ := rfl
  noDebug _ := rfl
  files _ := rfl
  setRegistry _ _ := rfl
  setSources _ _ := rfl
  read s _ := (deskOnly_note rfl s).symm
  verified s _ := (deskOnly_note rfl s).symm

/-! ### The debuggee's side

All that is done on this side leaves the desk, also what happens meanwhile on the push connection. A
start is the exception: it has been tried, and the first one sets the mode.
-/

theorem deskOf_undergone (s : Session) (happenings : List Happening) :
    deskOf (s.undergone happenings).log = [] := by
  have hrest := restOf_undergone s happenings
  refine List.filter_eq_nil_iff.2 fun e he => ?_
  rw [← hrest] at he
  simpa using (List.mem_filter.1 he).2

theorem deskOnly_absorb (s t : Session) (happenings : List Happening) :
    (t.absorb (s.undergone happenings)).deskOnly = t.deskOnly := by
  simp [deskOnly, absorb, deskOf_undergone]

theorem deskOnly_deliverAll (s : Session) (happenings : List Happening) :
    (happenings.foldl deliver s).deskOnly = s.deskOnly := by
  rw [deliverAll_eq, deskOnly_absorb]

theorem deskOnly_wait (s : Session) : s.wait.deskOnly = s.deskOnly := by
  unfold wait
  split
  · rfl
  · exact deskOnly_deliverAll _ _

theorem deskOnly_call (s : Session) (request : Request) :
    (s.call request).2.deskOnly = s.deskOnly := by
  rw [call_eq]
  refine (deskOnly_note_of_not_desk rfl _).trans ((deskOnly_absorb s _ _).trans ?_)
  exact deskOnly_note_of_not_desk rfl _

theorem deskOnly_dispatch (s : Session) (control : Control) :
    (s.dispatch control).deskOnly = s.deskOnly := by
  unfold dispatch
  split
  · exact deskOnly_call s _
  · rfl

theorem deskOnly_expandHandle (s : Session) (handle : VariableHandle) :
    (s.expandHandle handle).2.deskOnly = s.deskOnly := by
  cases hsent : s.sent? handle with
  | none =>
      obtain ⟨_, hexpand⟩ := expandHandle_of_not_sent hsent
      rw [hexpand]
  | some query =>
      rw [expandHandle_of_sent? hsent, ← deskOnly_call s (.get query)]
      unfold conclude
      split <;> rfl

theorem deskOnly_expandReference (s : Session) (reference : Int64) :
    (s.expandReference reference).2.deskOnly = s.deskOnly := by
  unfold expandReference
  split
  · rfl
  · exact deskOnly_expandHandle s _

theorem deskOnly_finish (s : Session) : s.finish.deskOnly = s.deskOnly := by
  unfold finish
  split
  · rfl
  · exact deskOnly_note_of_not_desk rfl _

theorem deskOnly_disconnect (s : Session) : s.disconnect.deskOnly = s.deskOnly := by
  unfold disconnect
  rw [deskOnly_finish]
  split
  · exact deskOnly_wait s
  · rfl

/-- What a start comes to for the desk: it was tried, and the first sets the mode. -/
def attempted (s : Session) (noDebug : Bool) : Session :=
  { s with bridge := { s.bridge with
      started := true
      noDebug := if s.bridge.started then s.bridge.noDebug else noDebug } }

theorem deskOf_recordOf (log : List Effect) : deskOf (recordOf log) = deskOf log := by
  have hdesk : ∀ e : Effect, (e.isDesk && e.isRecord) = e.isDesk := by
    intro e
    unfold Effect.isDesk
    split <;> rfl
  rw [deskOf, recordOf, List.filter_filter]
  simp only [hdesk]
  rfl

theorem deskOnly_start (s : Session) (address : String) (stopOnEntry noDebug : Bool) :
    (s.start address stopOnEntry noDebug).2.deskOnly = s.deskOnly.attempted noDebug := by
  have hholdings := holdings_start s address stopOnEntry noDebug
  have hstarted := started_start s address stopOnEntry noDebug
  have hconfig : (s.start address stopOnEntry noDebug).2.bridge.config = s.bridge.config :=
    (path_start s address stopOnEntry noDebug).preserves
      (P := fun t => t.bridge.config = s.bridge.config) (fun h hs => h.config.trans hs) rfl
  have hdesk : deskOf (s.start address stopOnEntry noDebug).2.log = deskOf s.log := by
    rw [← deskOf_recordOf, ← deskOf_recordOf s.log]
    exact congrArg (fun holdings => deskOf holdings.record) hholdings
  simp only [holdings, Holdings.mk.injEq] at hholdings
  simp only [deskOnly, attempted, hconfig, hstarted, hdesk, hholdings]
  rfl

/-! ### Every step

Two sessions with one desk may differ in everything else, in their debuggees and in what these have
said. A step that is about the debuggee alone leaves the desk of either; any other step does the
same to both.
-/

/-- What has to do with the debuggee alone does not reach the desk. -/
theorem deskOnly_step_of_onSession (s : Session) {x : Step} (h : x.onSession = true) :
    (s.step x).2.deskOnly = s.deskOnly := by
  cases x with
  | edit => simp [Step.onSession] at h
  | happening happening => exact deskOnly_deliverAll s [happening]
  | operation operation asides =>
      show ({ s with asides }.operate operation).2.deskOnly = { s with asides }.deskOnly
      cases operation with
      | execute control => exact deskOnly_dispatch _ control
      | expandReference reference => exact deskOnly_expandReference _ reference
      | expandHandle handle => exact deskOnly_expandHandle _ handle
      | disconnect => exact deskOnly_disconnect _
      | scopes | stack | stackPage | threads => rfl
      | _ => exact absurd h Bool.false_ne_true

/-- From one desk on, everything else comes to the same desk. -/
theorem deskOnly_step {s t : Session} (hdesk : t.deskOnly = s.deskOnly) {x : Step}
    (h : x.onSession = false) : (t.step x).2.deskOnly = (s.step x).2.deskOnly := by
  cases x with
  | happening => simp [Step.onSession] at h
  | edit path contents =>
      exact congrArg (fun u : Session => { u with files := u.files.set path contents }) hdesk
  | operation operation asides =>
      have hset : ({ t with asides } : Session).deskOnly = ({ s with asides } : Session).deskOnly :=
        hdesk
      have hconfig : t.bridge.config = s.bridge.config :=
        (congrArg (fun u : Session => u.bridge.config) hdesk :)
      show ({ t with asides }.operate operation).2.deskOnly =
        ({ s with asides }.operate operation).2.deskOnly
      cases hstart : operation.start? s.bridge.config with
      | some arguments =>
          have hother : operation.start? t.bridge.config = some arguments := by rwa [hconfig]
          rw [operate_of_start? (s := { s with asides }) hstart,
            operate_of_start? (s := { t with asides }) hother]
          refine (deskOnly_start _ _ _ _).trans ?_
          rw [hset]
          exact (deskOnly_start _ _ _ _).symm
      | none =>
          by_cases hbreakpoints : operation.onBreakpoints = true
          · have hs := followsDesk_deskOnly.operate { s with asides } hbreakpoints
            have ht := followsDesk_deskOnly.operate { t with asides } hbreakpoints
            have hsame := ht.symm.trans ((congrArg (operate · operation) hset).trans hs)
            exact (congrArg Prod.snd hsame :)
          · cases operation with
            | runState => exact hset
            | start | startConfigured => simp [Operation.start?] at hstart
            | setBreakpoint | setBreakpoints | clearBreakpoint | clearBreakpoints | breakpoints
            | breakColumns => exact absurd rfl hbreakpoints
            | _ => exact absurd h.symm Bool.false_ne_true

theorem answer_of_deskOnly {s t : Session} (hdesk : t.deskOnly = s.deskOnly) {x : Step}
    (h : x.onBreakpoints = true) : (t.step x).1 = (s.step x).1 := by
  cases x with
  | happening | edit => simp [Step.onBreakpoints] at h
  | operation operation asides =>
      have hset : ({ t with asides } : Session).deskOnly = ({ s with asides } : Session).deskOnly :=
        hdesk
      have hs := followsDesk_deskOnly.operate { s with asides } h
      have ht := followsDesk_deskOnly.operate { t with asides } h
      have hsame := ht.symm.trans ((congrArg (operate · operation) hset).trans hs)
      exact (congrArg Prod.fst hsame :)

/-! ### What a run shows

A run leaves an entry for each of its steps. To compare a run with one that has fewer steps, the
entries of the steps in question are picked out, and of each of them what belongs to the side in
question.
-/

/-- What the steps that `keep` picks show in a run. -/
def shown {α : Type} (s : Session) (steps : List Step) (keep : Step → Bool) (view : Entry → α) :
    List α :=
  ((steps.zip (s.entries steps)).filter fun p => keep p.1).map fun p => view p.2

/-- The entry of a step. -/
def entry (s : Session) (x : Step) : Entry :=
  ⟨(s.step x).1, (s.step x).2.effectsSince s.log, (s.step x).2.bridge.runState,
    (s.step x).2.bridge.isConnected⟩

section Shown

variable {α : Type} {keep : Step → Bool} {view : Entry → α}

theorem shown_of_kept (s : Session) {x : Step} (h : keep x = true) (rest : List Step) :
    s.shown (x :: rest) keep view = view (s.entry x) :: (s.step x).2.shown rest keep view := by
  simp [shown, entries, entry, h]

theorem shown_of_not_kept (s : Session) {x : Step} (h : keep x = false) (rest : List Step) :
    s.shown (x :: rest) keep view = (s.step x).2.shown rest keep view := by
  simp [shown, entries, h]

end Shown

/-- An entry without what was announced and read for breakpoints. -/
def Entry.deskless (e : Entry) : Entry := { e with effects := restOf e.effects }

/-- What an entry says about breakpoints and sources. -/
def Entry.onDesk (e : Entry) : Answer × List Effect := (e.answer, deskOf e.effects)

/-! ### Every run

The two inductions have the same shape. A step that is left out changes nothing of what the other
run has, and a step that both make shows the same in both and leaves them alike again.
-/

theorem restOf_effectsSince (s : Session) (x : Step) :
    restOf (s.step x).2.log = restOf s.log ++ restOf ((s.step x).2.effectsSince s.log) := by
  rw [← restOf_append, ← log_step]

theorem deskOf_effectsSince (s : Session) (x : Step) :
    deskOf (s.step x).2.log = deskOf s.log ++ deskOf ((s.step x).2.effectsSince s.log) := by
  rw [← deskOf_append, ← log_step]

/-- From two sessions that differ in their desks, a step that does not touch those shows the same.
-/
theorem entry_deskless {s t : Session} (hrest : t.deskless = s.deskless) {x : Step}
    (h : x.onBreakpoints = false) :
    (t.step x).2.deskless = (s.step x).2.deskless ∧
      (t.entry x).deskless = (s.entry x).deskless := by
  have hstep : (t.step x).map id deskless = (s.step x).map id deskless := by
    rw [← deskless_step t h, ← deskless_step s h, hrest]
  have hanswer : (t.step x).1 = (s.step x).1 := (congrArg Prod.fst hstep :)
  have hafter : (t.step x).2.deskless = (s.step x).2.deskless := (congrArg Prod.snd hstep :)
  have hlog : restOf t.log = restOf s.log := (congrArg log hrest :)
  have heffects : restOf ((t.step x).2.effectsSince t.log) =
      restOf ((s.step x).2.effectsSince s.log) := by
    have hlater : restOf (t.step x).2.log = restOf (s.step x).2.log := (congrArg log hafter :)
    rw [restOf_effectsSince, restOf_effectsSince, hlog] at hlater
    exact List.append_cancel_left hlater
  have hrunState : (t.step x).2.bridge.runState = (s.step x).2.bridge.runState :=
    (congrArg (fun u : Session => u.bridge.runState) hafter :)
  have hconnected : (t.step x).2.bridge.isConnected = (s.step x).2.bridge.isConnected :=
    (congrArg (fun u : Session => u.bridge.isConnected) hafter :)
  refine ⟨hafter, ?_⟩
  unfold Entry.deskless entry
  rw [hanswer, heffects, hrunState, hconnected]

/-- Leaving out what is done to the breakpoints. -/
theorem run_without_breakpoints (steps : List Step) :
    ∀ {s t : Session}, s.asides = [] → t.deskless = s.deskless →
      (t.run (steps.filter fun x => !x.onBreakpoints)).deskless = (s.run steps).deskless ∧
        t.shown (steps.filter fun x => !x.onBreakpoints) (fun x => !x.onBreakpoints)
            Entry.deskless =
          s.shown steps (fun x => !x.onBreakpoints) Entry.deskless := by
  induction steps with
  | nil => exact fun _ hrest => ⟨hrest, rfl⟩
  | cons x rest ih =>
      intro s t hasides hrest
      by_cases h : x.onBreakpoints = true
      · have hsame : t.deskless = (s.step x).2.deskless :=
          hrest.trans (deskless_step_of_onBreakpoints hasides h).symm
        rw [List.filter_cons_of_neg (by simp [h]), shown_of_not_kept s (by simp [h])]
        exact ih (asides_step hasides x) hsame
      · obtain ⟨hafter, hentry⟩ := entry_deskless hrest (by simpa using h)
        rw [List.filter_cons_of_pos (by simpa using h), shown_of_kept t (by simpa using h),
          shown_of_kept s (by simpa using h), hentry]
        obtain ⟨hrun, hshown⟩ := ih (asides_step hasides x) hafter
        exact ⟨hrun, congrArg _ hshown⟩

theorem entry_onDesk {s t : Session} (hdesk : t.deskOnly = s.deskOnly) {x : Step}
    (h : x.onBreakpoints = true) (hafter : (t.step x).2.deskOnly = (s.step x).2.deskOnly) :
    (t.entry x).onDesk = (s.entry x).onDesk := by
  have hlog : deskOf t.log = deskOf s.log := (congrArg log hdesk :)
  have heffects : deskOf ((t.step x).2.effectsSince t.log) =
      deskOf ((s.step x).2.effectsSince s.log) := by
    have hlater : deskOf (t.step x).2.log = deskOf (s.step x).2.log := (congrArg log hafter :)
    rw [deskOf_effectsSince, deskOf_effectsSince, hlog] at hlater
    exact List.append_cancel_left hlater
  exact Prod.ext (answer_of_deskOnly hdesk h) heffects

theorem onSession_of_onBreakpoints {x : Step} (h : x.onBreakpoints = true) :
    x.onSession = false := by
  cases x with
  | happening | edit => simp [Step.onBreakpoints] at h
  | operation operation asides =>
      cases operation with
      | setBreakpoint | setBreakpoints | clearBreakpoint | clearBreakpoints | breakpoints
      | breakColumns => rfl
      | _ => exact absurd h Bool.false_ne_true

/-- Leaving out what has to do with the debuggee. -/
theorem run_without_session (steps : List Step) :
    ∀ {s t : Session}, t.deskOnly = s.deskOnly →
      (t.run (steps.filter fun x => !x.onSession)).deskOnly = (s.run steps).deskOnly ∧
        t.shown (steps.filter fun x => !x.onSession) Step.onBreakpoints Entry.onDesk =
          s.shown steps Step.onBreakpoints Entry.onDesk := by
  induction steps with
  | nil => exact fun hdesk => ⟨hdesk, rfl⟩
  | cons x rest ih =>
      intro s t hdesk
      by_cases h : x.onSession = true
      · have hsame : t.deskOnly = (s.step x).2.deskOnly :=
          hdesk.trans (deskOnly_step_of_onSession s h).symm
        have hnot : x.onBreakpoints = false := by
          refine Bool.eq_false_iff.2 fun hbreakpoints => ?_
          rw [onSession_of_onBreakpoints hbreakpoints] at h
          simp at h
        rw [List.filter_cons_of_neg (by simp [h]), shown_of_not_kept s hnot]
        exact ih hsame
      · have hafter : (t.step x).2.deskOnly = (s.step x).2.deskOnly :=
          deskOnly_step hdesk (by simpa using h)
        obtain ⟨hrun, hshown⟩ := ih hafter
        rw [List.filter_cons_of_pos (by simpa using h)]
        refine ⟨hrun, ?_⟩
        by_cases hbreakpoints : x.onBreakpoints = true
        · rw [shown_of_kept t hbreakpoints, shown_of_kept s hbreakpoints,
            entry_onDesk hdesk hbreakpoints hafter, hshown]
        · have hnot : x.onBreakpoints = false := by simpa using hbreakpoints
          rw [shown_of_not_kept t hnot, shown_of_not_kept s hnot, hshown]

/-- **Breakpoints and the session are independent.** If what is done to breakpoints and sources is
left out of a run, all other steps show the same, but for what was announced and read for
breakpoints; so the debuggee is asked the same, the client gets the same news, and the session ends
in the same state. If what has to do with the debuggee alone is left out, everything done to
breakpoints and sources answers the same, announces the same breakpoints and reads the same files.

For the first half, sessions are compared without their desks (`run_without_breakpoints`), and for
the second half by their desks alone (`run_without_session`). Starts are left out in neither half,
since they set the mode, and nor are edits of files. -/
theorem breakpoints_and_session_are_independent (config : Config) (debuggee : Debuggee)
    (files : Files) (steps : List Step) :
    let s₀ := new config debuggee files
    let notOnBreakpoints := fun x : Step => !x.onBreakpoints
    let withoutBreakpoints := steps.filter notOnBreakpoints
    let withoutSession := steps.filter fun x => !x.onSession
    (s₀.shown withoutBreakpoints notOnBreakpoints Entry.deskless =
          s₀.shown steps notOnBreakpoints Entry.deskless ∧
        requestsOf (s₀.run withoutBreakpoints).log = requestsOf (s₀.run steps).log ∧
        newsOf (s₀.run withoutBreakpoints).log = newsOf (s₀.run steps).log ∧
        (s₀.run withoutBreakpoints).bridge.runState = (s₀.run steps).bridge.runState ∧
        (s₀.run withoutBreakpoints).bridge.isConnected = (s₀.run steps).bridge.isConnected) ∧
      (s₀.shown withoutSession Step.onBreakpoints Entry.onDesk =
          s₀.shown steps Step.onBreakpoints Entry.onDesk ∧
        deskOf (s₀.run withoutSession).log = deskOf (s₀.run steps).log) := by
  intro s₀ notOnBreakpoints withoutBreakpoints withoutSession
  obtain ⟨hrest, hshown⟩ := run_without_breakpoints steps (s := s₀) (t := s₀) rfl rfl
  obtain ⟨hdesk, hshown'⟩ := run_without_session steps (s := s₀) (t := s₀) rfl
  have hlog : restOf (s₀.run withoutBreakpoints).log = restOf (s₀.run steps).log :=
    (congrArg log hrest :)
  refine ⟨⟨hshown, ?_, ?_, ?_, ?_⟩, hshown', (congrArg log hdesk :)⟩
  · have hrequest : ∀ e : Effect, e.isDesk = true → e.request? = none := by
      intro e he
      unfold Effect.isDesk at he
      split at he <;> simp_all [Effect.request?]
    rw [requestsOf, ← filterMap_restOf hrequest, hlog, filterMap_restOf hrequest]
    rfl
  · have hnews : ∀ e : Effect, e.isDesk = true → e.news? = none := by
      intro e he
      unfold Effect.isDesk at he
      split at he <;> simp_all [Effect.news?]
    rw [newsOf, ← filterMap_restOf hnews, hlog, filterMap_restOf hnews]
    rfl
  · exact (congrArg (fun u : Session => u.bridge.runState) hrest :)
  · exact (congrArg (fun u : Session => u.bridge.isConnected) hrest :)

end Session

end DebugBridge
