/-
What a client has in a session besides the connection.

Its breakpoints, the sources read for them and the references to variables are its `Holdings`,
together with what the log says of these. The debuggee has no hand in them: whatever happens on the
push connection, and whatever is replied to a command, they stay as they are. A start sets the mode
they are kept in and nothing else (`holdings_start`). A call enters itself in the record if it is a
query (`holdings_call`).

This is the counterpart of the course. A proof about breakpoints, sources or references goes by the
holdings, which starting, disconnecting and waiting leave alone, so what remains of an operation is
what it does to them itself.
-/
import DebugBridge.Proofs.Step

namespace DebugBridge

/-- Whether an entry of the log is about breakpoints, sources or variables. -/
def Effect.isRecord : Effect → Bool
  | emitted (.breakpointVerified _) | read _ | requested (.get _) | answered (.get _) _ => true
  | _ => false

@[simp] theorem Effect.isRecord_telling (onEntry : Bool) (state : RunState) :
    (emitted (.telling onEntry state)).isRecord = false := by
  cases state <;> rfl

/-- The entries of a log about breakpoints, sources and variables, in order. -/
def recordOf (log : List Effect) : List Effect := log.filter Effect.isRecord

@[simp] theorem recordOf_append (log more : List Effect) :
    recordOf (log ++ more) = recordOf log ++ recordOf more :=
  List.filter_append ..

/-- What is read off the entries of the record alone can be read off the record. -/
theorem filterMap_recordOf {α : Type} {f : Effect → Option α}
    (hf : ∀ e : Effect, e.isRecord = false → f e = none) (log : List Effect) :
    (recordOf log).filterMap f = log.filterMap f := by
  have hsame : (fun e : Effect => if e.isRecord then f e else none) = f := by
    funext e
    cases he : e.isRecord <;> simp [hf e, he]
  rw [recordOf, List.filterMap_filter, hsame]

/-- What a client has in a session besides the connection: the three tables of the bridge, the mode
that the first start has set, the files as they can be read, and the entries of the log about these
things. -/
structure Holdings where
  registry : Registry
  sources : SourceCache
  handles : HandleTable
  noDebug : Bool
  files : Files
  record : List Effect

namespace Session

def holdings (s : Session) : Holdings :=
  ⟨s.bridge.registry, s.bridge.sources, s.bridge.handles, s.bridge.noDebug, s.files,
    recordOf s.log⟩

/-! ### The push channel

A delivery changes the status, the log and the flags of the connection. None of these is among the
holdings, and the entries it makes are no part of the record.
-/

theorem holdings_note (s : Session) (e : Effect) :
    (s.note e).holdings = { s.holdings with record := s.holdings.record ++ recordOf [e] } := by
  simp [holdings, note]

/-- Most entries are not part of the record. -/
theorem holdings_note_of_not_record (s : Session) {e : Effect} (he : e.isRecord = false) :
    (s.note e).holdings = s.holdings := by
  simp [holdings_note, recordOf, he]

@[simp] theorem holdings_finish (s : Session) : s.finish.holdings = s.holdings := by
  unfold finish
  split
  · rfl
  · exact holdings_note_of_not_record _ rfl

@[simp] theorem holdings_applyStatus (s : Session) (status : Status) :
    (s.applyStatus status).holdings = s.holdings := by
  unfold applyStatus
  rw [Bridge.apply_eq]
  exact holdings_note_of_not_record _ (by simp)

theorem holdings_receive (s : Session) (frame : String) :
    (s.receive frame).holdings = s.holdings := by
  have hheard : (s.note (.heard frame)).holdings = s.holdings := holdings_note_of_not_record s rfl
  unfold receive
  cases Status.ofFrame frame with
  | ok status => exact (holdings_applyStatus _ status).trans hheard
  | error failure => exact hheard

theorem holdings_lose (s : Session) : s.lose.holdings = s.holdings :=
  holdings_finish _

@[simp] theorem holdings_deliver (s : Session) (happening : Happening) :
    (s.deliver happening).holdings = s.holdings :=
  deliver_preserves (P := fun t => t.holdings = s.holdings) rfl
    (fun _ => holdings_lose s) (fun _ => holdings_receive s) happening

@[simp] theorem holdings_deliverAll (happenings : List Happening) :
    ∀ s : Session, (happenings.foldl deliver s).holdings = s.holdings := by
  induction happenings with
  | nil => exact fun s => rfl
  | cons happening rest ih => exact fun s => (ih _).trans (holdings_deliver s happening)

@[simp] theorem holdings_wait (s : Session) : s.wait.holdings = s.holdings := by
  unfold wait
  split
  · rfl
  · exact holdings_deliverAll _ _

/-! ### Calls -/

/-- Of a call the record has the request and its outcome, if it is a query. -/
theorem holdings_call (s : Session) (request : Request) :
    (s.call request).2.holdings = { s.holdings with
      record := s.holdings.record ++
        recordOf [.requested request, .answered request (s.call request).1] } := by
  unfold call
  dsimp only
  rw [holdings_note, holdings_deliverAll, holdings_wait, holdings_note]
  dsimp only
  rw [List.append_assoc, ← recordOf_append]
  rfl

theorem holdings_call_put (s : Session) (command : Command) :
    (s.call (.put command)).2.holdings = s.holdings := by
  simp [holdings_call, recordOf, Effect.isRecord]

@[simp] theorem holdings_dispatch (s : Session) (control : Control) :
    (s.dispatch control).holdings = s.holdings := by
  unfold dispatch
  split
  · exact holdings_call_put s _
  · rfl

theorem holdings_askStatus (s : Session) : s.askStatus.holdings = s.holdings := by
  have hcall := holdings_call_put s .sendStatus
  unfold askStatus
  dsimp only
  cases (s.call (.put .sendStatus)).1.status? with
  | none => exact hcall
  | some status => exact (holdings_applyStatus _ status).trans hcall

/-! ### Beginning and end

A start connects, asks for the status and may ask for a pause, and a disconnect hangs up. The record
has nothing of all this, as none of the calls is a query; what is left is the mode.
-/

theorem holdings_greeted (s : Session) : s.greeted.holdings = s.holdings := by
  rw [greeted, holdings_wait, holdings_askStatus, holdings_wait]

theorem holdings_pauseOnEntry (s : Session) : s.pauseOnEntry.holdings = s.holdings := by
  cases hstopped : s.bridge.runState.isStopped with
  | true => rw [pauseOnEntry_of_stopped hstopped]
  | false =>
      rw [pauseOnEntry_of_not_stopped hstopped, holdings_dispatch]
      exact holdings_note_of_not_record _ rfl

theorem holdings_connect {s t : Session} {address : String} {endpoint : Endpoint}
    (h : s.connect address = .ok (endpoint, t)) : t.holdings = s.holdings := by
  unfold connect at h
  split at h
  · simp at h
  · rename_i endpoint' _
    cases haccept : s.debuggee.accept endpoint' with
    | error failure => simp [haccept, Except.map] at h
    | ok debuggee =>
        simp only [haccept, Except.map, Except.ok.injEq, Prod.mk.injEq] at h
        obtain ⟨-, rfl⟩ := h
        rfl

theorem holdings_opened {s t : Session} {address : String} {noDebug : Bool}
    (h : s.opened? address noDebug = some t) : t.holdings = { s.holdings with noDebug } := by
  unfold opened? at h
  split at h
  · simp at h
  · split at h
    · simp at h
    · rename_i endpoint u hconnect
      simp only [Option.some.injEq] at h
      rw [← h, holdings_note_of_not_record _ rfl, holdings_connect hconnect]
      rfl

/-- A start sets the mode, and only the first does. -/
theorem holdings_start (s : Session) (address : String) (stopOnEntry noDebug : Bool) :
    (s.start address stopOnEntry noDebug).2.holdings =
      { s.holdings with noDebug := if s.bridge.started then s.bridge.noDebug else noDebug } := by
  cases hopened : s.opened? address noDebug with
  | none =>
      obtain ⟨failure, -, ⟨hstarted, hsame⟩ | ⟨hfresh, hfailed⟩⟩ :=
        start_of_not_opened stopOnEntry hopened
      · rw [hsame, if_pos hstarted]
        rfl
      · rw [hfailed, holdings_finish, hfresh]
        rfl
  | some t =>
      have hfresh : s.bridge.started = false := (opened_of_opened? hopened).fresh
      have hgreeted : t.greeted.holdings = { s.holdings with noDebug } :=
        (holdings_greeted t).trans (holdings_opened hopened)
      rw [start_of_opened stopOnEntry hopened, hfresh]
      dsimp only
      split
      · exact (holdings_pauseOnEntry _).trans hgreeted
      · exact hgreeted

@[simp] theorem holdings_disconnect (s : Session) : s.disconnect.holdings = s.holdings := by
  unfold disconnect
  rw [holdings_finish]
  split
  · exact holdings_wait s
  · rfl

end Session

end DebugBridge
