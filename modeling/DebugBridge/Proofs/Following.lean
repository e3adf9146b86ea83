/-
Maps of sessions that operations go along with.

To show that something in a session does not matter, one takes it away and sees that whatever is
done does the same to what is left. Operations are made of few parts, so that has to be seen of
those alone. What is done on the debuggee's side and what is done to breakpoints and sources have no
part in common: a map can follow the one (`FollowsSession`), the other (`FollowsDesk`), or both.

A map that leaves the debuggee as it is follows calls part by part (`FollowsCalls`). One that
changes the files can still follow a load as a whole, and then what is done to breakpoints
(`FollowsLoads`).

Each of the two-run results uses this with a map of its own: dropping what the push channel says in
vain, dropping all that belongs to breakpoints, dropping all but that, or rewriting the line ends of
the files.
-/
import DebugBridge.Proofs.Step

namespace DebugBridge

namespace Session

/-- What is the end of a session is the end of what `f` makes of it, if it is announced to either.
-/
theorem finish_follows {f : Session → Session}
    (hended : ∀ s, (f s).bridge.ended = s.bridge.ended)
    (hfarewell : ∀ s,
      f ({ s with bridge := { s.bridge with ended := true } }.note (.emitted .ended)) =
        { f s with bridge := { (f s).bridge with ended := true } }.note (.emitted .ended))
    (s : Session) : (f s).finish = f s.finish := by
  unfold finish
  rw [hended]
  split
  · rfl
  · exact (hfarewell s).symm

/-! ### Calls

A call answers out of the debuggee, waits, and lets happen what is pushed before the reply. If a map
commutes with each of these it commutes with the call, and with connecting, which is a call of
another kind.
-/

/-- The parts of a call do the same to what `f` makes of a session, where the debuggee and what it
means to do are as they were. That is more than `FollowsSession` asks of a call, which may also
rewrite the debuggee. -/
structure FollowsCalls (f : Session → Session) : Prop where
  debuggee : ∀ s, (f s).debuggee = s.debuggee
  asides : ∀ s, (f s).asides = s.asides
  setDebuggee : ∀ s debuggee, { f s with debuggee } = f { s with debuggee }
  setAsides : ∀ s asides, { f s with asides } = f { s with asides }
  opened : ∀ s, { f s with bridge := { (f s).bridge with hasSession := true } } =
    f { s with bridge := { s.bridge with hasSession := true } }
  requested : ∀ s request, (f s).note (.requested request) = f (s.note (.requested request))
  answered : ∀ s request outcome,
    (f s).note (.answered request outcome) = f (s.note (.answered request outcome))
  deliverAll : ∀ s (happenings : List Happening),
    happenings.foldl deliver (f s) = f (happenings.foldl deliver s)

namespace FollowsCalls

variable {f : Session → Session} (hf : FollowsCalls f) (s : Session)
include hf

theorem wait : (f s).wait = f s.wait := by
  unfold Session.wait
  rw [hf.asides]
  cases s.asides with
  | nil => rfl
  | cons now later =>
      dsimp only
      rw [hf.setAsides, hf.deliverAll]

theorem call (request : Request) : (f s).call request = (s.call request).map id f := by
  unfold Session.call
  rw [hf.debuggee]
  dsimp only
  rw [hf.setDebuggee, hf.requested, hf.wait, hf.deliverAll, hf.answered]
  rfl

theorem connect (address : String) :
    (f s).connect address = (s.connect address).map (Prod.map id f) := by
  unfold Session.connect
  rw [hf.debuggee]
  cases Endpoint.parse address with
  | error cause => rfl
  | ok endpoint =>
      dsimp only
      cases s.debuggee.accept endpoint with
      | error failure => rfl
      | ok debuggee =>
          have hopened := hf.opened { s with debuggee }
          rw [← hf.setDebuggee] at hopened
          exact congrArg (fun t => Except.ok (endpoint, t)) hopened

end FollowsCalls

/-! ### The debuggee's side

All operations but those on breakpoints are made of the parts listed here. The first two clauses say
that the map does not change what operations look at when they decide what to do; the others, that
each thing they do commutes with it.
-/

/-- The parts of what is done on the debuggee's side do the same to what `f` makes of a session. A
map that has this is followed by starting and disconnecting, by commands, by looking at variables
and by every other operation that leaves breakpoints alone. -/
structure FollowsSession (f : Session → Session) : Prop where
  course : ∀ s, (f s).course = s.course
  handles : ∀ s, (f s).bridge.handles = s.bridge.handles
  wait : ∀ s, (f s).wait = f s.wait
  call : ∀ s request, (f s).call request = (s.call request).map id f
  connect : ∀ s address, (f s).connect address = (s.connect address).map (Prod.map id f)
  applyStatus : ∀ s status, (f s).applyStatus status = f (s.applyStatus status)
  finish : ∀ s, (f s).finish = f s.finish
  hangUp : ∀ s, (f s).hangUp = f s.hangUp
  arm : ∀ s, (f s).arm = f s.arm
  announce : ∀ s address,
    (f s).note (.emitted (.started address)) = f (s.note (.emitted (.started address)))
  attempt : ∀ s noDebug, { f s with bridge := { (f s).bridge with started := true, noDebug } } =
    f { s with bridge := { s.bridge with started := true, noDebug } }
  register : ∀ s handles, { f s with bridge := { (f s).bridge with handles } } =
    f { s with bridge := { s.bridge with handles } }

namespace FollowsSession

variable {f : Session → Session} (hf : FollowsSession f) (s : Session)
include hf

theorem isConnected : (f s).bridge.isConnected = s.bridge.isConnected :=
  congrArg (fun c : Course => c.hasSession && !c.ended) (hf.course s)

theorem status : (f s).bridge.status = s.bridge.status :=
  congrArg Course.status (hf.course s)

theorem dispatch (control : Control) : (f s).dispatch control = f (s.dispatch control) := by
  unfold Session.dispatch
  rw [hf.isConnected, hf.call]
  split <;> rfl

theorem expandHandle (handle : VariableHandle) :
    (f s).expandHandle handle = (s.expandHandle handle).map id f := by
  unfold Session.expandHandle
  cases handle.query with
  | error failure => rfl
  | ok query =>
      dsimp only
      rw [hf.isConnected, hf.call]
      split
      · simp only [Prod.map_fst, Prod.map_snd, id]
        cases (s.call (.get query)).1.listing query with
        | error failure => rfl
        | ok listing =>
            dsimp only
            rw [hf.handles, hf.register]
            rfl
      · rfl

theorem expandReference (reference : Int64) :
    (f s).expandReference reference = (s.expandReference reference).map id f := by
  unfold Session.expandReference
  rw [hf.handles]
  cases s.bridge.handles.get? reference with
  | none => rfl
  | some handle => exact hf.expandHandle s handle

theorem scopes (frame : UInt32) : (f s).scopes frame = (s.scopes frame).map id f := by
  unfold Session.scopes
  dsimp only
  rw [hf.handles, hf.register]
  rfl

theorem askStatus : (f s).askStatus = f s.askStatus := by
  unfold Session.askStatus
  rw [hf.call]
  simp only [Prod.map_fst, Prod.map_snd, id]
  cases (s.call (.put .sendStatus)).1.status? with
  | none => rfl
  | some status => exact hf.applyStatus _ status

theorem greet (endpoint : Endpoint) : (f s).greet endpoint = f (s.greet endpoint) := by
  unfold Session.greet
  rw [hf.announce, hf.wait, hf.askStatus, hf.wait]

theorem pauseOnEntry : (f s).pauseOnEntry = f s.pauseOnEntry := by
  have hstopped : (f s).bridge.runState.isStopped = s.bridge.runState.isStopped :=
    congrArg (fun status : Status => status.runState.isStopped) (hf.status s)
  by_cases h : s.bridge.runState.isStopped = true
  · rw [pauseOnEntry_of_stopped h, pauseOnEntry_of_stopped (hstopped.trans h)]
  · have hgoing : s.bridge.runState.isStopped = false := Bool.not_eq_true _ ▸ h
    rw [pauseOnEntry_of_not_stopped hgoing, pauseOnEntry_of_not_stopped (hstopped.trans hgoing),
      hf.arm, hf.dispatch]

theorem start (address : String) (stopOnEntry noDebug : Bool) :
    (f s).start address stopOnEntry noDebug = (s.start address stopOnEntry noDebug).map id f := by
  have hstarted : (f s).bridge.started = s.bridge.started := congrArg Course.started (hf.course s)
  unfold Session.start
  rw [hstarted]
  split
  · rfl
  · dsimp only
    rw [hf.attempt, hf.connect]
    cases Session.connect _ address with
    | error failure => exact congrArg (Prod.mk _) (hf.finish _)
    | ok connected =>
        obtain ⟨endpoint, t⟩ := connected
        show (_, if stopOnEntry && !noDebug then ((f t).greet endpoint).pauseOnEntry
          else (f t).greet endpoint) = _
        rw [hf.greet, hf.pauseOnEntry]
        cases stopOnEntry && !noDebug <;> rfl

theorem disconnect : (f s).disconnect = f s.disconnect := by
  have hsession : (f s).bridge.hasSession = s.bridge.hasSession :=
    congrArg Course.hasSession (hf.course s)
  unfold Session.disconnect
  rw [hsession, hf.wait, hf.hangUp, ← hf.finish]
  split <;> rfl

/-- Who follows the parts follows every operation that does not deal with breakpoints. -/
theorem operate {operation : Operation} (h : operation.onBreakpoints = false) :
    (f s).operate operation = (s.operate operation).map id f := by
  have hconfig : (f s).bridge.config = s.bridge.config := congrArg Course.config (hf.course s)
  cases operation with
  | start address stopOnEntry noDebug =>
      exact congrArg (Prod.map _ id) (hf.start s address stopOnEntry noDebug)
  | startConfigured =>
      refine congrArg (Prod.map _ id) (?_ : (f s).startConfigured = s.startConfigured.map id f)
      unfold startConfigured
      rw [hconfig]
      exact hf.start s _ _ _
  | disconnect => exact congrArg (Prod.mk _) (hf.disconnect s)
  | execute control => exact congrArg (Prod.mk _) (hf.dispatch s control)
  | expandReference reference =>
      exact congrArg (Prod.map _ id) (hf.expandReference s reference)
  | expandHandle handle => exact congrArg (Prod.map _ id) (hf.expandHandle s handle)
  | scopes frame => exact congrArg (Prod.map _ id) (hf.scopes s frame)
  | runState =>
      exact congrArg (fun status : Status => (Answer.runState status.runState, f s)) (hf.status s)
  | stack =>
      exact congrArg (fun status : Status => (Answer.frames status.frames, f s)) (hf.status s)
  | stackPage start levels =>
      exact congrArg (fun status : Status => (Answer.page (.of status.frames start levels), f s))
        (hf.status s)
  | threads => rfl
  | setBreakpoint | setBreakpoints | clearBreakpoint | clearBreakpoints | breakpoints
  | breakColumns => simp [Operation.onBreakpoints] at h

end FollowsSession

/-! ### Breakpoints and sources

Likewise for the operations on breakpoints. They look at the registry and at whether there is any
debugging, they load sources, and they announce what they have verified. The debuggee has no part in
any of it.
-/

/-- The parts of what is done to breakpoints do the same to what `f` makes of a session, with a load
for one part. -/
structure FollowsLoads (f : Session → Session) : Prop where
  registry : ∀ s, (f s).bridge.registry = s.bridge.registry
  noDebug : ∀ s, (f s).bridge.noDebug = s.bridge.noDebug
  load : ∀ s path, (f s).load path = (s.load path).map id f
  setRegistry : ∀ s registry, { f s with bridge := { (f s).bridge with registry } } =
    f { s with bridge := { s.bridge with registry } }
  verified : ∀ s b, (f s).note (.emitted (.breakpointVerified b)) =
    f (s.note (.emitted (.breakpointVerified b)))

namespace FollowsLoads

variable {f : Session → Session} (hf : FollowsLoads f)
include hf

theorem noteVerified (bs : List Breakpoint) :
    ∀ s, bs.foldl (fun s b => s.note (.emitted (.breakpointVerified b))) (f s) =
      f (bs.foldl (fun s b => s.note (.emitted (.breakpointVerified b))) s) := by
  induction bs with
  | nil => exact fun _ => rfl
  | cons b rest ih =>
      intro s
      rw [List.foldl_cons, hf.verified, ih, List.foldl_cons]

theorem verify (s : Session) (path : String) : (f s).verify path = f (s.verify path) := by
  unfold Session.verify
  rw [hf.noDebug, hf.load]
  split
  · rfl
  · obtain ⟨loaded, t⟩ := s.load path
    cases loaded with
    | error failure => rfl
    | ok source =>
        show ((f t).bridge.registry.verify path source.lineCount).1.foldl _
          { f t with bridge.registry := ((f t).bridge.registry.verify path source.lineCount).2 } = _
        rw [hf.registry, hf.setRegistry]
        exact hf.noteVerified _ _

theorem setBreakpoint (s : Session) (path : String) (line : UInt32) :
    (f s).setBreakpoint path line = (s.setBreakpoint path line).map id f := by
  unfold Session.setBreakpoint
  dsimp only
  rw [hf.registry, hf.setRegistry, hf.verify, hf.registry]
  rfl

theorem addBreakpoints (path : String) (lines : List UInt32) :
    ∀ s, (f s).addBreakpoints path lines = (s.addBreakpoints path lines).map id f := by
  induction lines with
  | nil => exact fun _ => rfl
  | cons line rest ih =>
      intro s
      simp only [Session.addBreakpoints, hf.setBreakpoint, Prod.map_snd, ih]
      rfl

theorem clearBreakpoints (s : Session) (path : String) :
    (f s).clearBreakpoints path = f (s.clearBreakpoints path) := by
  unfold Session.clearBreakpoints
  rw [hf.registry, hf.setRegistry]

theorem clearBreakpoint (s : Session) (path : String) (line : UInt32) :
    (f s).clearBreakpoint path line = (s.clearBreakpoint path line).map id f := by
  unfold Session.clearBreakpoint
  dsimp only
  rw [hf.registry, hf.setRegistry]
  rfl

theorem breakColumns (s : Session) (path : String) (line : UInt32) :
    (f s).breakColumns path line = (s.breakColumns path line).map id f := by
  unfold Session.breakColumns
  rw [hf.load]
  rfl

/-- Who follows the parts follows every operation that deals with breakpoints. -/
theorem operate (s : Session) {operation : Operation} (h : operation.onBreakpoints = true) :
    (f s).operate operation = (s.operate operation).map id f := by
  cases operation with
  | setBreakpoint path line => exact congrArg (Prod.map _ id) (hf.setBreakpoint s path line)
  | setBreakpoints path lines =>
      have hset : (f s).setBreakpoints path lines = (s.setBreakpoints path lines).map id f := by
        unfold Session.setBreakpoints
        rw [hf.clearBreakpoints, hf.addBreakpoints]
      exact congrArg (Prod.map _ id) hset
  | clearBreakpoint path line =>
      exact congrArg (Prod.map (fun removed => removed.elim Answer.done .breakpoint) id)
        (hf.clearBreakpoint s path line)
  | clearBreakpoints path => exact congrArg (Prod.mk _) (hf.clearBreakpoints s path)
  | breakpoints path =>
      exact congrArg (fun registry => (Answer.breakpoints (Registry.list registry path), f s))
        (hf.registry s)
  | breakColumns path line => exact congrArg (Prod.map _ id) (hf.breakColumns s path line)
  | _ => simp [Operation.onBreakpoints] at h

end FollowsLoads

/-- The parts of what is done to breakpoints and sources do the same to what `f` makes of a session.
-/
structure FollowsDesk (f : Session → Session) : Prop where
  registry : ∀ s, (f s).bridge.registry = s.bridge.registry
  sources : ∀ s, (f s).bridge.sources = s.bridge.sources
  noDebug : ∀ s, (f s).bridge.noDebug = s.bridge.noDebug
  files : ∀ s, (f s).files = s.files
  setRegistry : ∀ s registry, { f s with bridge := { (f s).bridge with registry } } =
    f { s with bridge := { s.bridge with registry } }
  setSources : ∀ s sources, { f s with bridge := { (f s).bridge with sources } } =
    f { s with bridge := { s.bridge with sources } }
  read : ∀ s path, (f s).note (.read path) = f (s.note (.read path))
  verified : ∀ s b, (f s).note (.emitted (.breakpointVerified b)) =
    f (s.note (.emitted (.breakpointVerified b)))

namespace FollowsDesk

variable {f : Session → Session} (hf : FollowsDesk f)
include hf

theorem load (s : Session) (path : String) : (f s).load path = (s.load path).map id f := by
  have hloaded : (f s).bridge.sources.load (f s).files path =
      s.bridge.sources.load s.files path := by
    rw [hf.sources, hf.files]
  unfold Session.load
  dsimp only
  rw [hloaded, hf.setSources]
  split
  · exact congrArg (Prod.mk _) (hf.read _ path)
  · rfl

theorem loads : FollowsLoads f where
  registry := hf.registry
  noDebug := hf.noDebug
  load := hf.load
  setRegistry := hf.setRegistry
  verified := hf.verified

theorem operate (s : Session) {operation : Operation} (h : operation.onBreakpoints = true) :
    (f s).operate operation = (s.operate operation).map id f :=
  hf.loads.operate s h

end FollowsDesk

end Session

end DebugBridge
