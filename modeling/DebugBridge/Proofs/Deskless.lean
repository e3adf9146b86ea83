/-
What a session is without its desk.

A session deals with the debuggee without a look at its breakpoints and their sources, and with
those without touching anything else. So both can be taken away, with all that was announced and
read for them (`deskless`). What is done on the debuggee's side then does the same to what is left,
and what is done to the breakpoints does nothing to it.

Taking away means emptying the registry and the cache and dropping the entries of the log that are
about them. The files and the mode stay: an operation on the debuggee's side does not look at the
files, and a start still sets the mode.
-/
import DebugBridge.Proofs.Following
import DebugBridge.Proofs.InFlight

namespace DebugBridge

/-- Whether an entry of the log is about breakpoints or their sources. -/
def Effect.isDesk : Effect → Bool
  | emitted (.breakpointVerified _) | read _ => true
  | _ => false

/-- The entries of a log about breakpoints and their sources, in order. -/
def deskOf (log : List Effect) : List Effect := log.filter Effect.isDesk

/-- All other entries, in order. -/
def restOf (log : List Effect) : List Effect := log.filter fun e => !e.isDesk

@[simp] theorem deskOf_append (log more : List Effect) :
    deskOf (log ++ more) = deskOf log ++ deskOf more :=
  List.filter_append ..

@[simp] theorem restOf_append (log more : List Effect) :
    restOf (log ++ more) = restOf log ++ restOf more :=
  List.filter_append ..

/-- What does not look at the entries that are left out can be read off the rest. -/
theorem filterMap_restOf {α : Type} {f : Effect → Option α}
    (hf : ∀ e : Effect, e.isDesk = true → f e = none) (log : List Effect) :
    (restOf log).filterMap f = log.filterMap f := by
  have hsame : (fun e : Effect => if !e.isDesk then f e else none) = f := by
    funext e
    cases he : e.isDesk <;> simp [hf e, he]
  rw [restOf, List.filterMap_filter, hsame]

/-- Whether a step deals with breakpoints or their sources. -/
def Step.onBreakpoints : Step → Bool
  | .operation asked _ => asked.onBreakpoints
  | .happening _ | .edit _ _ => false

namespace Session

/-- The session without breakpoints and sources, and without what the log has about them. -/
def deskless (s : Session) : Session :=
  { s with
    bridge := { s.bridge with registry := .empty, sources := .empty }
    log := restOf s.log }

/-! ### The push channel

What the debuggee pushes becomes a status or an end. The log has entries for these, and none of them
is about breakpoints, so a delivery does the same whether the desk is there or not.
-/

theorem deskless_note {e : Effect} (h : e.isDesk = false) (s : Session) :
    (s.note e).deskless = s.deskless.note e := by
  simp [deskless, note, restOf, h]

theorem deskless_note_of_desk {e : Effect} (h : e.isDesk = true) (s : Session) :
    (s.note e).deskless = s.deskless := by
  simp [deskless, note, restOf, h]

theorem deskless_applyStatus (s : Session) (status : Status) :
    (s.applyStatus status).deskless = s.deskless.applyStatus status := by
  have htelling :
      (Effect.emitted (.telling s.bridge.entryPending status.runState)).isDesk = false := by
    cases status.runState <;> rfl
  unfold applyStatus
  rw [Bridge.apply_eq, Bridge.apply_eq]
  exact deskless_note htelling _

theorem deskless_finish (s : Session) : s.deskless.finish = s.finish.deskless :=
  finish_follows (f := deskless) (fun _ => rfl) (fun _ => deskless_note rfl _) s

/-- Nothing on the push connection is about breakpoints or sources. -/
theorem restOf_undergone (s : Session) (happenings : List Happening) :
    restOf (s.undergone happenings).log = (s.undergone happenings).log := by
  have hrecord : recordOf (s.undergone happenings).log = [] :=
    congrArg Holdings.record (holdings_deliverAll happenings { s with log := [] })
  refine List.filter_eq_self.2 fun e he => ?_
  have hnot : ¬ e.isRecord = true := List.filter_eq_nil_iff.1 hrecord e he
  unfold Effect.isDesk
  split
  · exact absurd rfl hnot
  · exact absurd rfl hnot
  · rfl

theorem deskless_deliverAll (s : Session) (happenings : List Happening) :
    (happenings.foldl deliver s).deskless = happenings.foldl deliver s.deskless := by
  have hsame : s.deskless.absorb { s with log := [] } = s.deskless := by simp [absorb, deskless]
  rw [deliverAll_eq, deliverAll_of_absorb hsame]
  simp [deskless, absorb, restOf_undergone]

/-! ### The command channel -/

theorem followsCalls_deskless : FollowsCalls deskless where
  debuggee _ := rfl
  asides _ := rfl
  setDebuggee _ _ := rfl
  setAsides _ _ := rfl
  opened _ := rfl
  requested s _ := (deskless_note rfl s).symm
  answered s _ _ := (deskless_note rfl s).symm
  deliverAll s happenings := (deskless_deliverAll s happenings).symm

/-- What is done on the debuggee's side does not need the desk. -/
theorem followsSession_deskless : FollowsSession deskless where
  course _ := rfl
  handles _ := rfl
  wait := followsCalls_deskless.wait
  call := followsCalls_deskless.call
  connect := followsCalls_deskless.connect
  applyStatus s status := (deskless_applyStatus s status).symm
  finish := deskless_finish
  hangUp _ := rfl
  arm s := (deskless_note rfl { s with bridge.entryPending := true }).symm
  announce s _ := (deskless_note rfl s).symm
  attempt _ _ := rfl
  register _ _ := rfl

/-! ### Breakpoints -/

/-- What is done about breakpoints is not seen where they are left out. -/
theorem coversDesk_deskless : CoversDesk fun s t => t.deskless = s.deskless :=
  .same (fun _ _ => rfl) (fun _ _ => rfl) (fun s _ => deskless_note_of_desk rfl s)
    (fun s _ => deskless_note_of_desk rfl s)

/-! ### Every step

A step is about breakpoints, and then it leaves what remains as it was, or it is not, and then it
does to what remains what it does to the whole. That the asides are empty is asked for in the first
case, since a step on breakpoints drops those that it has not used.
-/

theorem deskless_step_of_onBreakpoints {s : Session} (hasides : s.asides = []) {x : Step}
    (h : x.onBreakpoints = true) : (s.step x).2.deskless = s.deskless := by
  cases x with
  | happening | edit => simp [Step.onBreakpoints] at h
  | operation operation asides =>
      have hoperate := coversDesk_deskless.operate { s with asides } h
      have hsame : { s.deskless with asides := [] } = s.deskless := by
        rw [deskless, ← hasides]
      exact (congrArg (fun t : Session => { t with asides := [] }) hoperate).trans hsame

theorem deskless_step (s : Session) {x : Step} (h : x.onBreakpoints = false) :
    s.deskless.step x = (s.step x).map id deskless := by
  cases x with
  | edit => rfl
  | happening happening =>
      exact congrArg (Prod.mk _) (deskless_deliverAll s [happening]).symm
  | operation operation asides =>
      exact congrArg (fun p : Answer × Session => (p.1, { p.2 with asides := [] }))
        (followsSession_deskless.operate { s with asides } h)

end Session

end DebugBridge
