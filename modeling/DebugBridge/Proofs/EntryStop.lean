/-
The stop on entry.

That the right stop is told as the one on entry is part of `Telling`, as long as it is known when
the stop was armed. Here that is settled. A step arms it exactly where `arming?` says so, which asks
for a start that connects, and a start does so once in a run. Each announcement of a stop on entry
uses up an arming, so there is one of these as well at most.

`arming?` is about the session and the step alone, and the log does not enter into it. It says what
the moment of the arming is: behind the exchange about the status, so that a debuggee found standing
there is not paused and its stop not taken for one that was asked for.
-/
import DebugBridge.Proofs.Telling

namespace DebugBridge

@[simp] theorem armingsIn_farewell (ended : Bool) :
    armingsIn (if ended then [] else [.emitted .ended]) = 0 := by
  cases ended <;> rfl

theorem armingsIn_eq_zero {effects : List Effect} (h : ∀ e ∈ effects, e.Idle) :
    armingsIn effects = 0 :=
  List.count_eq_zero.2 fun hmem => (h _ hmem).notArmed rfl

namespace Session

/-! ### What arms nothing

Armings are counted in the log, and a drift adds none, however long it is. So a count taken before a
part of a start can be compared with one taken behind it, and what remains is the one place where
the arming is noted.
-/

theorem armingsIn_finish (s : Session) : armingsIn s.finish.log = armingsIn s.log := by
  simp [armingsIn_append]

theorem armingsIn_applyStatus (s : Session) (status : Status) :
    armingsIn (s.applyStatus status).log = armingsIn s.log := by
  rw [log_applyStatus, armingsIn_append]
  rfl

theorem armingsIn_note (s : Session) {e : Effect} (h : e ≠ .armed) :
    armingsIn (s.note e).log = armingsIn s.log := by
  have hnone : armingsIn [e] = 0 := List.count_eq_zero.2 (by simpa using h.symm)
  rw [log_note, armingsIn_append, hnone, Nat.add_zero]

theorem Drift.armingsIn {s t : Session} (h : Drift s t) : armingsIn t.log = armingsIn s.log := by
  induction h with
  | refl => rfl
  | idle _ _ hlog hidle ih => rw [hlog, armingsIn_append, armingsIn_eq_zero hidle, Nat.add_zero, ih]
  | hear _ _ _ ih => rw [armingsIn_applyStatus, armingsIn_note _ (by simp), ih]
  | lose _ _ ih => exact (armingsIn_finish _).trans ih

theorem Opened.armingsIn {s t : Session} (h : Opened s t) : armingsIn t.log = armingsIn s.log := by
  obtain ⟨address, hlog⟩ := h.log
  rw [hlog, armingsIn_append]
  rfl

theorem armingsIn_askStatus (s : Session) : armingsIn s.askStatus.log = armingsIn s.log := by
  obtain ⟨t, ht, hcall, hask⟩ := s.askStatus_cases
  have hcalled : armingsIn (s.call (.put .sendStatus)).2.log = armingsIn s.log := by
    rw [hcall, armingsIn_note _ (by simp), ht.armingsIn]
  rw [hask]
  cases (s.call (.put .sendStatus)).1.status? with
  | none => exact hcalled
  | some status => exact (armingsIn_applyStatus _ status).trans hcalled

theorem armingsIn_greeted (s : Session) : armingsIn s.greeted.log = armingsIn s.log := by
  rw [greeted, (drift_wait _).armingsIn, armingsIn_askStatus, (drift_wait s).armingsIn]

theorem armingsIn_disconnect (s : Session) : armingsIn s.disconnect.log = armingsIn s.log := by
  rw [disconnect, armingsIn_finish]
  split
  · exact (drift_wait s).armingsIn
  · rfl

/-! ### What arms the stop on entry

A step that arms it is a start which gets as far as the decision about the pause. Both directions
are needed: such a step arms it once and leaves the session started (`step_of_arming`), and any
other step leaves the count as it is (`armingsIn_step_of_not_arming`).
-/

/-- The session at the moment when a step arms the stop on entry, if it does. That takes a start
which connects, is to stop on entry and to debug, and finds the debuggee moving once the exchange
about its status is over. -/
def arming? (s : Session) : Step → Option Session
  | .operation operation asides =>
    match operation.start? s.bridge.config with
    | some (address, true, false) =>
      (({ s with asides }.opened? address false).map greeted).filter
        fun t => !t.bridge.runState.isStopped
    | _ => none
  | _ => none

theorem start_of_arming {s t : Session} {operation : Operation} {asides : List (List Happening)}
    (h : s.arming? (.operation operation asides) = some t) :
    ∃ opened, Opened { s with asides } opened ∧ t = opened.greeted ∧
      ({ s with asides }.operate operation).2 = t.arm.dispatch .pause := by
  unfold arming? at h
  dsimp only at h
  split at h
  · rename_i address hstart
    obtain ⟨⟨opened, hopened, rfl⟩, hmoving⟩ : (∃ opened,
        ({ s with asides } : Session).opened? address false = some opened ∧ opened.greeted = t) ∧
        t.bridge.runState.isStopped = false := by
      simpa [Option.filter_eq_some_iff] using h
    have hoperate := operate_of_start? (s := { s with asides }) hstart
    rw [start_of_opened true hopened] at hoperate
    refine ⟨opened, opened_of_opened? hopened, rfl, ?_⟩
    rw [hoperate]
    exact pauseOnEntry_of_not_stopped hmoving
  · simp at h

/-- Where a step arms the stop on entry, that is done once, and the session counts as started. -/
theorem step_of_arming {s t : Session} {x : Step} (h : s.arming? x = some t) :
    (s.step x).2.bridge.started = true ∧ t.log ++ [.armed] <+: (s.step x).2.log ∧
      armingsIn (s.step x).2.log = armingsIn s.log + 1 := by
  cases x with
  | happening | edit => simp [arming?] at h
  | operation operation asides =>
      obtain ⟨opened, hopened, rfl, hoperate⟩ := start_of_arming h
      have hpause : Drift opened.greeted.arm (s.step (.operation operation asides)).2 := by
        have hdispatch := drift_dispatch opened.greeted.arm .pause
        rw [← hoperate] at hdispatch
        exact hdispatch.trans (Drift.of_eq rfl rfl)
      refine ⟨?_, log_arm _ ▸ hpause.log_grows, ?_⟩
      · rw [hpause.keeps.2.1]
        exact (path_greeted hopened.hasSession).started (congrArg Course.started hopened.course)
      · rw [hpause.armingsIn, log_arm, armingsIn_append, armingsIn_greeted, hopened.armingsIn]
        rfl

theorem armingsIn_start_of_not_opened {s : Session} {address : String} {noDebug : Bool}
    (stopOnEntry : Bool) (h : s.opened? address noDebug = none) :
    armingsIn (s.start address stopOnEntry noDebug).2.log = armingsIn s.log := by
  obtain ⟨_, -, h | h⟩ := start_of_not_opened stopOnEntry h
  · rw [h.2]
  · rw [h.2, armingsIn_finish]

theorem armingsIn_start_of_opened {s t : Session} {address : String} {stopOnEntry noDebug : Bool}
    (h : s.opened? address noDebug = some t)
    (hnot : (stopOnEntry && !noDebug) = false ∨ t.greeted.bridge.runState.isStopped = true) :
    armingsIn (s.start address stopOnEntry noDebug).2.log = armingsIn s.log := by
  have hgreeted : armingsIn t.greeted.log = armingsIn s.log :=
    (armingsIn_greeted t).trans (opened_of_opened? h).armingsIn
  rw [start_of_opened stopOnEntry h]
  dsimp only
  split
  · rename_i hpause
    rw [hpause] at hnot
    rw [pauseOnEntry_of_stopped (hnot.resolve_left nofun), hgreeted]
  · exact hgreeted

/-- Where a step does not arm it, that is so. -/
theorem armingsIn_step_of_not_arming {s : Session} {x : Step} (h : s.arming? x = none) :
    armingsIn (s.step x).2.log = armingsIn s.log := by
  cases x with
  | happening happening => exact (drift_deliver s happening).armingsIn
  | edit => rfl
  | operation operation asides =>
      show armingsIn ({ s with asides }.operate operation).2.log = _
      cases hstart : operation.start? s.bridge.config with
      | none =>
          by_cases hkeep : operation = .disconnect
          · rw [hkeep]
            exact armingsIn_disconnect { s with asides }
          · exact (drift_operate { s with asides } operation hstart hkeep).armingsIn
      | some arguments =>
          obtain ⟨address, stopOnEntry, noDebug⟩ := arguments
          rw [operate_of_start? (s := { s with asides }) hstart]
          cases hopened : ({ s with asides } : Session).opened? address noDebug with
          | none => exact armingsIn_start_of_not_opened stopOnEntry hopened
          | some t =>
              refine armingsIn_start_of_opened hopened ?_
              cases stopOnEntry <;> cases noDebug <;>
                simp_all [arming?, Option.filter_eq_none_iff]

/-! ### Every run

After the first arming the session counts as started, and a session that counts as started is not
opened again. So the count goes up once in a run at most, by the step that `arming?` is true of.
-/

theorem not_arming_of_started {s : Session} (h : s.bridge.started = true) (x : Step) :
    s.arming? x = none := by
  cases harming : s.arming? x with
  | none => rfl
  | some t =>
      cases x with
      | happening | edit => simp [arming?] at harming
      | operation operation asides =>
          obtain ⟨_, hopened, -⟩ := start_of_arming harming
          have hfresh : s.bridge.started = false := hopened.fresh
          simp [h] at hfresh

theorem armingsIn_run_of_started (steps : List Step) :
    ∀ s : Session, s.bridge.started = true → armingsIn (s.run steps).log = armingsIn s.log := by
  induction steps with
  | nil => exact fun _ _ => rfl
  | cons x rest ih =>
      intro s hs
      rw [run_cons, ih _ ((path_step s x).started hs),
        armingsIn_step_of_not_arming (not_arming_of_started hs x)]

/-- A run arms the stop on entry once at most. -/
theorem armingsIn_run_le (steps : List Step) :
    ∀ s : Session, armingsIn (s.run steps).log ≤ armingsIn s.log + 1 := by
  induction steps with
  | nil => exact fun s => Nat.le_succ _
  | cons x rest ih =>
      intro s
      rw [run_cons]
      cases h : s.arming? x with
      | none =>
          rw [← armingsIn_step_of_not_arming h]
          exact ih _
      -- From here on the session counts as started, so that no later step arms anything.
      | some t =>
          obtain ⟨hstarted, -, harmed⟩ := step_of_arming h
          exact Nat.le_of_eq ((armingsIn_run_of_started rest _ hstarted).trans harmed)

/-- Only a step of which `arming?` says so arms it. -/
theorem arming_of_run (steps : List Step) :
    ∀ s : Session, armingsIn s.log < armingsIn (s.run steps).log →
      ∃ before x after t, steps = before ++ x :: after ∧ (s.run before).arming? x = some t := by
  induction steps with
  | nil => exact fun s h => absurd h (Nat.lt_irrefl _)
  | cons x rest ih =>
      intro s hmore
      cases h : s.arming? x with
      | some t => exact ⟨[], x, rest, t, rfl, h⟩
      | none =>
          rw [run_cons, ← armingsIn_step_of_not_arming h] at hmore
          obtain ⟨before, y, after, t, rfl, hy⟩ := ih _ hmore
          exact ⟨x :: before, y, after, t, rfl, hy⟩

/-- **The first stop after the arming is told as the one on entry, and no other.** It is armed where
a step does so according to `arming?`, and once at most. Every status is told as what it is when it
comes in, a stop as one on entry exactly where that is awaited. The log in which this is said has
every text that is delivered on an open connection, with what it tells right behind it.

That a log is told is said of the log alone (`Told`), and the flag of the bridge follows from it.
Each arming pays for one stop on entry at most, so there are no more of these than armings. -/
theorem entry_stop_is_first_after_arming (config : Config) (debuggee : Debuggee) (files : Files)
    (steps : List Step) :
    let s := (new config debuggee files).run steps
    entryStopsIn s.log ≤ 1 ∧ armingsIn s.log ≤ 1 ∧
      (.armed ∈ s.log → ∃ before x after t, steps = before ++ x :: after ∧
        ((new config debuggee files).run before).arming? x = some t) ∧
      (∀ before x after t, steps = before ++ x :: after →
        ((new config debuggee files).run before).arming? x = some t → t.log ++ [.armed] <+: s.log) ∧
      Told s.log ∧
      ∀ (t : Session) (happening : Happening) (text : String),
        t.incoming? happening = some text →
          (t.deliver happening).log = t.log ++ .heard text ::
            ((Status.ofFrame text).toOption.map fun status =>
              .emitted (.telling t.bridge.entryPending status.runState)).toList := by
  intro s
  have htelling : Telling s := telling_run config debuggee files steps
  have honce : armingsIn s.log ≤ 1 := armingsIn_run_le steps (new config debuggee files)
  refine ⟨?_, honce, ?_, ?_, htelling.labelled.told,
    fun _ _ _ hcomes => log_deliver_of_incoming hcomes⟩
  · exact Nat.le_trans (Nat.le_trans (Nat.le_add_right _ _) htelling.labelled.paid) honce
  · exact fun hmem => arming_of_run steps _ (List.count_pos_iff.2 hmem)
  · intro before x after t hsteps harming
    have hrest := log_grows_run (((new config debuggee files).run before).step x).2 after
    have hsplit : s = (((new config debuggee files).run before).step x).2.run after := by
      show (new config debuggee files).run steps = _
      rw [hsteps, run_append, run_cons]
    rw [hsplit]
    exact (step_of_arming harming).2.1.trans hrest

end Session

end DebugBridge
