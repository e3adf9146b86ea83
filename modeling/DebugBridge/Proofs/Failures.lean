/-
What failures leave behind.

A failure leaves no trace in a session. A start that comes too late is turned down before it sets
anything, a source that cannot be read is not remembered, and a listing that cannot be had gives out
no references. What did happen on the push connection while its reply was awaited has happened all
the same, and did what it would have done on its own. Only the first start, when it fails, does
something by failing: it ends the session.

Each kind of failure is an equation for the session behind it, where nothing happens meanwhile, and
where something may happen a comparison with what that does alone (`Underwent`). An equation also
says that nothing was added to the log, so no event comes of a failure that is not named.
-/
import DebugBridge.Proofs.InFlight

namespace DebugBridge

/-- Whether an operation asks for the members of a value. -/
def Operation.expands : Operation → Bool
  | .expandReference _ | .expandHandle _ => true
  | _ => false

namespace Session

/-! ### Starts

The two ways in which a start fails are told apart by the failure. One says that a start was tried
before, and comes before anything is touched; all others come of the first start, when its
connection cannot be had.
-/

theorem connect_ne_alreadyStarted {s : Session} {address : String} {failure : Failure}
    (h : s.connect address = .error failure) : failure ≠ .alreadyStarted := by
  unfold connect at h
  split at h
  · rintro rfl
    simp at h
  · rename_i endpoint _
    rintro rfl
    unfold Debuggee.accept at h
    dsimp only at h
    split at h
    · split at h <;> simp [Except.map] at h
    · simp [Except.map] at h

/-- A start that is turned down for having been tried before has not touched anything. -/
theorem start_alreadyStarted {s : Session} {address : String} {stopOnEntry noDebug : Bool}
    (h : (s.start address stopOnEntry noDebug).1 = .error .alreadyStarted) :
    (s.start address stopOnEntry noDebug).2 = s := by
  unfold start at h ⊢
  by_cases hstarted : s.bridge.started = true
  · rw [if_pos hstarted]
  · rw [if_neg hstarted] at h
    dsimp only at h
    split at h
    · rename_i failure hconnect
      have hfailure : failure = .alreadyStarted := by simpa using h
      exact absurd hfailure (connect_ne_alreadyStarted hconnect)
    · simp at h

theorem start_failed {s : Session} {address : String} {stopOnEntry noDebug : Bool}
    {failure : Failure} (hfresh : s.bridge.started = false)
    (h : (s.start address stopOnEntry noDebug).1 = .error failure) :
    (s.start address stopOnEntry noDebug).2 =
      { s with bridge := { s.bridge with started := true, noDebug } }.finish := by
  cases hopened : s.opened? address noDebug with
  | none =>
      obtain ⟨_, -, ⟨hstarted, -⟩ | ⟨-, hfinish⟩⟩ := start_of_not_opened stopOnEntry hopened
      · simp [hfresh] at hstarted
      · exact hfinish
  | some t =>
      rw [start_of_opened stopOnEntry hopened] at h
      simp at h

/-- To end a session tells the client nothing but that. -/
theorem eventsIn_finish (s : Session) :
    ∀ event ∈ eventsIn (s.finish.effectsSince s.log), event = .ended := by
  rw [effectsSince, log_finish, List.drop_left]
  cases s.bridge.ended <;> simp [eventsIn, Effect.event?]

/-! ### Listings

An expansion waits for its reply, and the debuggee may push what it likes before that. So the
session behind a failed expansion is the one before it only up to that, and this is what it is
compared with.
-/

/-- What happens on the push connection while an operation awaits the reply to its query. -/
def meanwhile (s : Session) (operation : Operation) (asides : List (List Happening)) :
    List Happening :=
  ((s.asked? (.operation operation)).bind s.sent?).elim [] fun query =>
    { s with asides }.duringCall (.get query)

theorem conclude_failed {s : Session} {handle : VariableHandle} {query : String}
    {outcome : Outcome} {failure : Failure}
    (h : (s.conclude handle query outcome).1 = .error failure) :
    (s.conclude handle query outcome).2 = s := by
  unfold conclude at h ⊢
  cases hlisting : outcome.listing query with
  | error _ => rfl
  | ok listing => simp [hlisting] at h

/-- All that is seen of a session after an operation is what happenings have made of it: the bridge,
whether a connection is open, and the events. What the operation has done itself does not show in
any of these. -/
structure Underwent (s : Session) (happenings : List Happening) (after : Session) : Prop where
  bridge : after.bridge = (s.absorb (s.undergone happenings)).bridge
  connected : after.debuggee.connected = (s.undergone happenings).debuggee.connected
  events : eventsIn (after.effectsSince s.log) = eventsIn (s.undergone happenings).log

theorem Underwent.refl (s : Session) : s.Underwent [] s where
  bridge := rfl
  connected := rfl
  events := by
    rw [effectsSince, List.drop_length]
    rfl

/-- Asides that have not been used make no difference. -/
theorem Underwent.of_asides {s after : Session} {asides : List (List Happening)}
    {happenings : List Happening}
    (h : ({ s with asides } : Session).Underwent happenings after) :
    s.Underwent happenings { after with asides := [] } := by
  have hundergone : ({ s with asides } : Session).undergone happenings =
      ({ s with asides, log := [] } : Session).absorb (s.undergone happenings) :=
    deliverAll_of_absorb rfl happenings
  obtain ⟨hbridge, hconnected, hevents⟩ := h
  rw [hundergone] at hbridge hconnected hevents
  exact ⟨hbridge, hconnected, hevents⟩

theorem underwent_deliverAll (s : Session) (happenings : List Happening) :
    s.Underwent happenings (happenings.foldl deliver s) := by
  rw [deliverAll_eq]
  exact ⟨rfl, rfl, congrArg eventsIn List.drop_left⟩

theorem underwent_call (s : Session) (request : Request) :
    s.Underwent (s.duringCall request) (s.call request).2 := by
  rw [call_eq]
  refine ⟨rfl, rfl, ?_⟩
  rw [effectsSince]
  simp [absorb, asking, note, eventsIn, Effect.event?, List.filterMap_cons]

/-- A listing that fails is as if it had not been asked for. -/
theorem underwent_expandHandle {s : Session} {handle : VariableHandle} {failure : Failure}
    (h : (s.expandHandle handle).1 = .error failure) :
    s.Underwent ((s.sent? handle).elim [] fun query => s.duringCall (.get query))
      (s.expandHandle handle).2 := by
  cases hsent : s.sent? handle with
  | none =>
      obtain ⟨_, hexpand⟩ := expandHandle_of_not_sent hsent
      rw [hexpand]
      exact Underwent.refl s
  | some query =>
      rw [expandHandle_of_sent? hsent] at h ⊢
      rw [conclude_failed h]
      exact underwent_call s (.get query)

theorem underwent_operate {s : Session} {operation : Operation} {failure : Failure}
    (hexpands : operation.expands = true) (h : (s.operate operation).1 = .failed failure) :
    s.Underwent (s.meanwhile operation s.asides) (s.operate operation).2 := by
  cases hasked : s.asked? (.operation operation) with
  | some handle =>
      have hexpand := operate_of_asked? hasked
      rw [hexpand] at h ⊢
      rw [meanwhile, hasked, Option.bind_some]
      cases hresult : (s.expandHandle handle).1 with
      | error reason => exact underwent_expandHandle hresult
      | ok members => simp [hresult, Answer.ofResult] at h
  | none =>
      have hsame : (s.operate operation).2 = s := by
        cases operation with
        | expandReference reference =>
            have hget : s.bridge.handles.get? reference = none := hasked
            show (s.expandReference reference).2 = s
            rw [expandReference, hget]
        | expandHandle handle => simp [asked?] at hasked
        | _ => simp [Operation.expands] at hexpands
      rw [hsame, meanwhile, hasked]
      exact Underwent.refl s

/-! ### Sources and breakpoints

Here nobody else has a hand in it. A source that cannot be read leaves the note that it was looked
for, and clearing a breakpoint that is not there leaves nothing at all.
-/

theorem load_failed {s : Session} {path : String} {failure : Failure}
    (h : (s.load path).1 = .error failure) : (s.load path).2 = s.note (.read path) := by
  unfold load SourceCache.load at h ⊢
  split at h
  · simp at h
  · split at h
    · rfl
    · simp at h

theorem breakColumns_failed {s : Session} {path : String} {line : UInt32} {failure : Failure}
    (h : (s.breakColumns path line).1 = .error failure) :
    (s.breakColumns path line).2 = s.note (.read path) := by
  cases hresult : (s.load path).1 with
  | error _ => exact load_failed hresult
  | ok text => simp [breakColumns, hresult, Except.map] at h

theorem clearBreakpoint_none {s : Session} {path : String} {line : UInt32}
    (h : (s.clearBreakpoint path line).1 = none) : (s.clearBreakpoint path line).2 = s := by
  have hnone : ∀ b ∈ s.bridge.registry.breakpoints, ¬ (b.path = path && b.line = line) = true :=
    List.find?_eq_none.1 h
  have hsame : (s.bridge.registry.remove path line).2 = s.bridge.registry := by
    rw [Registry.remove]
    exact congrArg (Registry.mk _) (List.eraseP_of_forall_not hnone)
  exact congrArg (fun registry => { s with bridge := { s.bridge with registry } }) hsame

/-! ### Every failure

Steps are operations with their asides around them, and the answer says which operation failed and
how. What is left is to take each failure back to the function that it came from.
-/

theorem step_of_start? {s : Session} {operation : Operation} {address : String}
    {stopOnEntry noDebug : Bool}
    (h : operation.start? s.bridge.config = some (address, stopOnEntry, noDebug))
    (asides : List (List Happening)) :
    (s.step (.operation operation asides)).1 =
        Answer.ofResult (fun _ => .done)
          (({ s with asides } : Session).start address stopOnEntry noDebug).1 ∧
      (s.step (.operation operation asides)).2 =
        { (({ s with asides } : Session).start address stopOnEntry noDebug).2
          with asides := [] } := by
  have hoperate := operate_of_start? (s := { s with asides }) h
  refine ⟨congrArg Prod.fst hoperate, ?_⟩
  exact congrArg (fun p : Answer × Session => { p.2 with asides := [] }) hoperate

theorem eq_error_of_failed {α : Type} {make : α → Answer} {result : Except Failure α}
    {failure : Failure} (hmake : ∀ a, make a ≠ .failed failure)
    (h : Answer.ofResult make result = .failed failure) : result = .error failure := by
  cases result with
  | ok a => exact absurd h (hmake a)
  | error reason =>
      obtain rfl : reason = failure := by simpa [Answer.ofResult] using h
      rfl

section Steps

variable {s : Session} {operation : Operation} {asides : List (List Happening)}

theorem step_alreadyStarted (hasides : s.asides = [])
    (hstart : (operation.start? s.bridge.config).isSome)
    (h : (s.step (.operation operation asides)).1 = .failed .alreadyStarted) :
    (s.step (.operation operation asides)).2 = s := by
  obtain ⟨⟨address, stopOnEntry, noDebug⟩, hstart⟩ := Option.isSome_iff_exists.1 hstart
  obtain ⟨hanswer, hafter⟩ := step_of_start? hstart asides
  rw [hanswer] at h
  rw [hafter, start_alreadyStarted (eq_error_of_failed (by simp) h), ← hasides]

theorem step_start_failed (hstart : (operation.start? s.bridge.config).isSome)
    (hfresh : s.bridge.started = false) {failure : Failure}
    (h : (s.step (.operation operation asides)).1 = .failed failure) :
    ∃ noDebug ended, (s.step (.operation operation asides)).2.bridge =
        { s.bridge with started := true, noDebug, ended } ∧
      ∀ event ∈ eventsIn ((s.step (.operation operation asides)).2.effectsSince s.log),
        event = .ended := by
  obtain ⟨⟨address, stopOnEntry, noDebug⟩, hstart⟩ := Option.isSome_iff_exists.1 hstart
  obtain ⟨hanswer, hafter⟩ := step_of_start? hstart asides
  rw [hanswer] at h
  have hfailed := start_failed (s := { s with asides }) hfresh (eq_error_of_failed (by simp) h)
  let tried : Session := { s with asides, bridge := { s.bridge with started := true, noDebug } }
  rw [hafter, hfailed]
  exact ⟨noDebug, true, bridge_finish tried, eventsIn_finish tried⟩

theorem step_expansion_failed (hexpands : operation.expands = true) {failure : Failure}
    (h : (s.step (.operation operation asides)).1 = .failed failure) :
    s.Underwent (s.meanwhile operation asides) (s.step (.operation operation asides)).2 :=
  (underwent_operate (s := { s with asides }) hexpands h).of_asides

end Steps

theorem step_breakColumns_failed {s : Session} (hasides : s.asides = []) {path : String}
    {line : UInt32} {asides : List (List Happening)} {failure : Failure}
    (h : (s.step (.operation (.breakColumns path line) asides)).1 = .failed failure) :
    (s.step (.operation (.breakColumns path line) asides)).2 = s.note (.read path) := by
  have hresult : (({ s with asides } : Session).breakColumns path line).1 = .error failure :=
    eq_error_of_failed (by simp) h
  show { (({ s with asides } : Session).breakColumns path line).2 with asides := [] } = _
  rw [breakColumns_failed hresult, ← hasides]
  rfl

theorem step_clearBreakpoint_done {s : Session} (hasides : s.asides = []) {path : String}
    {line : UInt32} {asides : List (List Happening)}
    (h : (s.step (.operation (.clearBreakpoint path line) asides)).1 = .done) :
    (s.step (.operation (.clearBreakpoint path line) asides)).2 = s := by
  have hnone : (({ s with asides } : Session).clearBreakpoint path line).1 = none := by
    cases hremoved : (({ s with asides } : Session).clearBreakpoint path line).1 with
    | none => rfl
    | some b =>
        have hanswer : (({ s with asides } : Session).clearBreakpoint path line).1.elim Answer.done
            Answer.breakpoint = .done := h
        simp [hremoved] at hanswer
  show { (({ s with asides } : Session).clearBreakpoint path line).2 with asides := [] } = s
  rw [clearBreakpoint_none hnone, ← hasides]

/-- **Failures leave the state intact.** A start that was tried before changes nothing at all, nor
does clearing a breakpoint that is not there; a source that cannot be read is looked for and that is
all. A listing that fails leaves the bridge, and tells the client, what the happenings that came in
while its reply was awaited do on their own: they may bring statuses, and only if the push
connection goes may they end the session. And the first start, when it fails, keeps what the client
has and says nothing but that the session has ended.

What comes in while a reply is awaited would have come in anyway. So a listing that fails is
compared with the happenings alone (`Underwent`), and the other operations with the state before
them, since they wait for nothing before they fail. -/
theorem failures_leave_state_intact (config : Config) (debuggee : Debuggee) (files : Files)
    (steps : List Step) (operation : Operation) (asides : List (List Happening)) :
    let s := (new config debuggee files).run steps
    let answer := (s.step (.operation operation asides)).1
    let after := (s.step (.operation operation asides)).2
    let happenings := s.meanwhile operation asides
    let alone := s.run (happenings.map .happening)
    ((operation.start? s.bridge.config).isSome → answer = .failed .alreadyStarted → after = s) ∧
      (operation.expands = true → ∀ failure, answer = .failed failure →
        after.bridge = alone.bridge ∧
          after.debuggee.connected = alone.debuggee.connected ∧
          eventsIn (after.effectsSince s.log) = eventsIn (alone.effectsSince s.log) ∧
          (∃ status entryPending ended,
            after.bridge = { s.bridge with status, entryPending, ended }) ∧
          ((∀ happening ∈ happenings, happening.hangsUp = false) →
            after.bridge.ended = s.bridge.ended ∧
              after.debuggee.connected = s.debuggee.connected)) ∧
      (∀ path line failure, operation = .breakColumns path line → answer = .failed failure →
        after = s.note (.read path)) ∧
      (∀ path line, operation = .clearBreakpoint path line → answer = .done → after = s) ∧
      ((operation.start? s.bridge.config).isSome → s.bridge.started = false →
        ∀ failure, answer = .failed failure →
          (∃ noDebug ended, after.bridge = { s.bridge with started := true, noDebug, ended }) ∧
            ∀ event ∈ eventsIn (after.effectsSince s.log), event = .ended) := by
  intro s answer after happenings alone
  have hasides : s.asides = [] := asides_run steps rfl
  refine ⟨step_alreadyStarted hasides, fun hexpands failure h => ?_, ?_, ?_,
    fun hstart hfresh failure h => ?_⟩
  · have halone : alone = happenings.foldl deliver s := run_happenings happenings s
    have hafter : s.Underwent happenings after := step_expansion_failed hexpands h
    have hdeliver : s.Underwent happenings alone := halone ▸ underwent_deliverAll s happenings
    have hbridge : after.bridge = alone.bridge := hafter.bridge.trans hdeliver.bridge.symm
    have hconnected := hafter.connected.trans hdeliver.connected.symm
    obtain ⟨status, entryPending, ended, hkept, hopen⟩ := deliverAll_keeps happenings s
    rw [← halone] at hkept hopen
    refine ⟨hbridge, hconnected, hafter.events.trans hdeliver.events.symm,
      ⟨status, entryPending, ended, hbridge.trans hkept⟩, fun hkeep => ?_⟩
    obtain ⟨hended, hdebuggee⟩ := hopen hkeep
    rw [hbridge, hkept, hconnected, hdebuggee]
    exact ⟨hended, rfl⟩
  · rintro path line failure rfl h
    exact step_breakColumns_failed hasides h
  · rintro path line rfl h
    exact step_clearBreakpoint_done hasides h
  · obtain ⟨noDebug, ended, hbridge, hevents⟩ := step_start_failed hstart hfresh h
    exact ⟨⟨noDebug, ended, hbridge⟩, hevents⟩

end Session

end DebugBridge
