/-
What happens on the push connection while a call is under way.

A call is answered from the script whatever is pushed meanwhile, and what is pushed is taken
whatever is being asked. So the two can be told apart: `undergone` is what the happenings do on
their own, and a call does that to the session and leaves its own entries around it in the log
(`call_eq`). It makes no difference, then, whether a text is pushed before the reply to a call or
before the call is made.

There is no order in which a status and a reply have to come for the bridge to end up in the same
state. The two runs that are compared differ in their logs only in where the request stands, and
that is not something a client sees.
-/
import DebugBridge.Proofs.Gist
import DebugBridge.Proofs.Requests

namespace DebugBridge

namespace Session

/-! ### Happenings on their own

What a happening does turns on the status, the flag for the stop on entry, the end and the
connection, and it changes nothing else. So the effect of a list of happenings can be worked out
with an empty log and be taken over into any session that agrees in these four.
-/

/-- `t` after all that has happened to `s` on its push connection. That is a status and whether the
next stop is the one on entry, perhaps the end, and what is in the log. -/
def absorb (t s : Session) : Session :=
  { t with
    bridge := { t.bridge with
      status := s.bridge.status
      entryPending := s.bridge.entryPending
      ended := s.bridge.ended }
    debuggee := { t.debuggee with connected := s.debuggee.connected }
    log := t.log ++ s.log }

section Absorb

variable (t s : Session)

theorem absorb_note (e : Effect) : t.absorb (s.note e) = (t.absorb s).note e := by
  simp [absorb, note]

theorem absorb_applyStatus (status : Status) :
    t.absorb (s.applyStatus status) = (t.absorb s).applyStatus status := by
  simp [applyStatus, Bridge.apply_eq, absorb, note]

theorem absorb_finish : t.absorb s.finish = (t.absorb s).finish :=
  (finish_follows (f := t.absorb) (fun _ => rfl) (fun _ => absorb_note t _ _) s).symm

theorem absorb_receive (frame : String) :
    t.absorb (s.receive frame) = (t.absorb s).receive frame := by
  have hheard := absorb_note t s (.heard frame)
  unfold receive
  cases Status.ofFrame frame with
  | ok status =>
      exact (absorb_applyStatus _ _ status).trans (congrArg (·.applyStatus status) hheard)
  | error failure => exact hheard

theorem absorb_deliver (happening : Happening) :
    t.absorb (s.deliver happening) = (t.absorb s).deliver happening := by
  have hsame : (t.absorb s).incoming? happening = s.incoming? happening := rfl
  cases h : s.incoming? happening with
  | some text =>
      rw [deliver_of_incoming h, deliver_of_incoming (hsame.trans h)]
      exact absorb_receive t s text
  | none =>
      have hopen : (t.absorb s).debuggee.connected = s.debuggee.connected := rfl
      rw [deliver_of_not_incoming h, deliver_of_not_incoming (hsame.trans h), hopen]
      split
      · exact absorb_finish _ _
      · rfl

end Absorb

theorem absorb_deliverAll (t : Session) (happenings : List Happening) :
    ∀ s : Session, t.absorb (happenings.foldl deliver s) =
      happenings.foldl deliver (t.absorb s) := by
  induction happenings with
  | nil => exact fun _ => rfl
  | cons happening rest ih =>
      intro s
      rw [List.foldl_cons, ih, absorb_deliver, List.foldl_cons]

/-- What happenings do to a session, with nothing but that in its log. Together with `absorb` this
separates what was pushed from what was being done at the time. -/
def undergone (s : Session) (happenings : List Happening) : Session :=
  happenings.foldl deliver { s with log := [] }

/-- All that happenings depend on is the status, the entry stop, the end and the connection. -/
theorem deliverAll_of_absorb {s t : Session} (h : t.absorb { s with log := [] } = t)
    (happenings : List Happening) :
    happenings.foldl deliver t = t.absorb (s.undergone happenings) := by
  rw [undergone, absorb_deliverAll, h]

theorem absorb_self (s : Session) : s.absorb { s with log := [] } = s := by
  simp [absorb]

theorem deliverAll_eq (s : Session) (happenings : List Happening) :
    happenings.foldl deliver s = s.absorb (s.undergone happenings) :=
  deliverAll_of_absorb s.absorb_self happenings

theorem requestsOf_undergone (s : Session) (happenings : List Happening) :
    requestsOf (s.undergone happenings).log = [] :=
  deaf_request?.deliverAll happenings _

theorem run_happenings (happenings : List Happening) (s : Session) :
    s.run (happenings.map .happening) = happenings.foldl deliver s := by
  rw [run, List.foldl_map]
  rfl

/-- Nothing is left of the asides when an operation is over. -/
theorem asides_step {s : Session} (h : s.asides = []) (x : Step) : (s.step x).2.asides = [] := by
  cases x with
  | operation => rfl
  | edit => exact h
  | happening happening =>
      show (s.deliver happening).asides = []
      have hdeliver := deliverAll_eq s [happening]
      rw [List.foldl_cons, List.foldl_nil] at hdeliver
      rw [hdeliver]
      exact h

theorem asides_run (steps : List Step) :
    ∀ {s : Session}, s.asides = [] → (s.run steps).asides = [] := by
  induction steps with
  | nil => exact id
  | cons x rest ih => exact fun h => ih (asides_step h x)

/-! ### Calls -/

/-- All that happens on the push connection while a request is under way: the next aside, and what
the script has pushed before the reply. -/
def duringCall (s : Session) (request : Request) : List Happening :=
  s.asides.headD [] ++ (s.debuggee.answer request).1.pushes.map .push

/-- The session with its request under way. -/
def asking (s : Session) (request : Request) : Session :=
  { s with debuggee := (s.debuggee.answer request).2, asides := s.asides.tail }.note
    (.requested request)

/-- **A call is what happens meanwhile, between its request and its outcome.** -/
theorem call_eq (s : Session) (request : Request) :
    s.call request =
      ((s.debuggee.answer request).1.outcome,
        ((s.asking request).absorb (s.undergone (s.duringCall request))).note
          (.answered request (s.debuggee.answer request).1.outcome)) := by
  have hsame : (s.asking request).absorb { s with log := [] } = s.asking request := by
    have hdebuggee : { (s.debuggee.answer request).2 with connected := s.debuggee.connected } =
        (s.debuggee.answer request).2 := by
      rw [← s.debuggee.connected_answer request]
    simp [absorb, asking, note, hdebuggee]
  rw [← deliverAll_of_absorb hsame, duringCall, List.foldl_append]
  unfold call wait asking
  dsimp only [note]
  cases hasides : s.asides <;> rfl

/-- What becomes of a query once its outcome is there. -/
def conclude (s : Session) (handle : VariableHandle) (query : String) (outcome : Outcome) :
    Except Failure (List Variable) × Session :=
  match outcome.listing query with
  | .error failure => (.error failure, s)
  | .ok listing =>
    let (members, handles) := s.bridge.handles.expand handle listing.entries
    (.ok members, { s with bridge := { s.bridge with handles } })

theorem expandHandle_of_sent? {s : Session} {handle : VariableHandle} {query : String}
    (h : s.sent? handle = some query) :
    s.expandHandle handle =
      (s.call (.get query)).2.conclude handle query (s.call (.get query)).1 := by
  have hconnected : s.bridge.isConnected = true := by
    unfold sent? at h
    split at h
    · assumption
    · simp at h
  rw [expandHandle, query_of_sent? h]
  dsimp only
  rw [if_pos hconnected]
  rfl

theorem expandHandle_of_not_sent {s : Session} {handle : VariableHandle}
    (h : s.sent? handle = none) : ∃ failure, s.expandHandle handle = (.error failure, s) := by
  unfold expandHandle
  cases hquery : handle.query with
  | error failure => exact ⟨failure, rfl⟩
  | ok query =>
      have hconnected : ¬ s.bridge.isConnected = true := by
        intro hconnected
        simp [sent?, hconnected, hquery, Except.toOption] at h
      exact ⟨.notConnected, if_neg hconnected⟩

/-! ### What happenings leave as it is

Of the bridge a happening changes three fields, and the debuggee it leaves alone unless it hangs up.
Whether the bridge is connected stays the same as long as nothing hangs up, so a call that was
possible before is possible afterwards.
-/

theorem bridge_finish (s : Session) : s.finish.bridge = { s.bridge with ended := true } := by
  unfold finish
  split
  · rename_i hended
    rw [← hended]
  · rfl

theorem receive_keeps (s : Session) (frame : String) :
    ∃ status entryPending,
      (s.receive frame).bridge = { s.bridge with status, entryPending } ∧
        (s.receive frame).debuggee = s.debuggee := by
  unfold receive
  cases Status.ofFrame frame with
  | ok status =>
      refine ⟨status, s.bridge.entryPending && !status.runState.isStopped, ?_, rfl⟩
      simp [applyStatus, Bridge.apply_eq, note]
  | error failure => exact ⟨s.bridge.status, s.bridge.entryPending, rfl, rfl⟩

/-- A happening can bring a status or end the session, and it ends none while the connection stays.
-/
theorem deliver_keeps (s : Session) (happening : Happening) :
    ∃ status entryPending ended,
      (s.deliver happening).bridge = { s.bridge with status, entryPending, ended } ∧
        (happening.hangsUp = false →
          ended = s.bridge.ended ∧ (s.deliver happening).debuggee = s.debuggee) := by
  cases h : s.incoming? happening with
  | some text =>
      obtain ⟨status, entryPending, hbridge, hdebuggee⟩ := receive_keeps s text
      rw [deliver_of_incoming h]
      exact ⟨status, entryPending, s.bridge.ended, hbridge, fun _ => ⟨rfl, hdebuggee⟩⟩
  | none =>
      rw [deliver_of_not_incoming h]
      split
      · next hlost =>
          have hhangs : happening.hangsUp = true := (Bool.and_eq_true_iff.1 hlost).2
          have hbridge : s.lose.bridge = { s.bridge with ended := true } := bridge_finish _
          exact ⟨s.bridge.status, s.bridge.entryPending, true, hbridge, fun hkeeps =>
            nomatch hhangs.symm.trans hkeeps⟩
      · exact ⟨s.bridge.status, s.bridge.entryPending, s.bridge.ended, rfl, fun _ => ⟨rfl, rfl⟩⟩

theorem deliverAll_keeps (happenings : List Happening) :
    ∀ s : Session, ∃ status entryPending ended,
      (happenings.foldl deliver s).bridge = { s.bridge with status, entryPending, ended } ∧
        ((∀ happening ∈ happenings, happening.hangsUp = false) →
          ended = s.bridge.ended ∧ (happenings.foldl deliver s).debuggee = s.debuggee) := by
  induction happenings with
  | nil =>
      intro s
      exact ⟨s.bridge.status, s.bridge.entryPending, s.bridge.ended, rfl, fun _ => ⟨rfl, rfl⟩⟩
  | cons happening rest ih =>
      intro s
      obtain ⟨_, _, ended, hbridge, hfirst⟩ := deliver_keeps s happening
      obtain ⟨status, entryPending, ended', hrest, hkeeps⟩ := ih (s.deliver happening)
      rw [List.foldl_cons, hrest, hbridge]
      refine ⟨status, entryPending, ended', rfl, fun hopen => ?_⟩
      obtain ⟨hended, hdebuggee⟩ := hfirst (hopen happening List.mem_cons_self)
      obtain ⟨hended', hdebuggee'⟩ := hkeeps fun later hlater =>
        hopen later (List.mem_cons_of_mem happening hlater)
      rw [hbridge] at hended'
      exact ⟨hended'.trans hended, hdebuggee'.trans hdebuggee⟩

theorem pushAll_keeps (frames : List String) (s : Session) :
    ∃ status entryPending,
      ((frames.map Happening.push).foldl deliver s).bridge =
          { s.bridge with status, entryPending } ∧
        ((frames.map Happening.push).foldl deliver s).debuggee = s.debuggee := by
  obtain ⟨status, entryPending, ended, hbridge, hkeeps⟩ :=
    deliverAll_keeps (frames.map Happening.push) s
  have hopen : ∀ happening ∈ frames.map Happening.push, happening.hangsUp = false := by
    intro happening hmem
    obtain ⟨frame, -, rfl⟩ := List.mem_map.1 hmem
    rfl
  obtain ⟨rfl, hdebuggee⟩ := hkeeps hopen
  exact ⟨status, entryPending, hbridge, hdebuggee⟩

end Session

/-! ### A debuggee that does not push -/

def Reply.quiet (r : Reply) : Reply := { r with pushes := [] }

/-- The debuggee with a script that pushes nothing before its replies. -/
def Debuggee.quiet (d : Debuggee) : Debuggee := d.mapReplies Reply.quiet

theorem Debuggee.quiet_answer (d : Debuggee) (request : Request) :
    d.quiet.answer request = (d.answer request).map Reply.quiet quiet := by
  have hunscripted : (unscripted request).quiet = unscripted request := by cases request <;> rfl
  exact answer_mapReplies hunscripted d

namespace Session

/-! ### Earlier or meanwhile

To compare a call during which something is pushed with one before which it is pushed, the second
debuggee must not push it again. It is the first one with a script that pushes nothing, and what
remains of it answers alike.
-/

/-- The request by which an operation calls a debuggee that is connected. -/
def call? (s : Session) : Operation → Option Request
  | .execute control => some (.put (.control control))
  | asked => ((s.asked? (.operation asked)).bind (·.query.toOption)).map .get

/-- Two sessions that differ in what their debuggees push and in their logs. A bridge never looks at
either, so whatever is done next comes to the same in both. -/
structure Matches (s t : Session) : Prop where
  bridge : t.bridge = s.bridge
  debuggee : t.debuggee = s.debuggee.quiet

theorem Matches.conclude {s t : Session} (h : Matches s t) (handle : VariableHandle)
    (query : String) (outcome : Outcome) :
    (t.conclude handle query outcome).1 = (s.conclude handle query outcome).1 ∧
      Matches (s.conclude handle query outcome).2 (t.conclude handle query outcome).2 := by
  unfold Session.conclude
  cases outcome.listing query with
  | error failure => exact ⟨rfl, h⟩
  | ok listing =>
      dsimp only
      rw [h.bridge]
      exact ⟨rfl, rfl, h.debuggee⟩

theorem log_conclude (s : Session) (handle : VariableHandle) (query : String)
    (outcome : Outcome) : (s.conclude handle query outcome).2.log = s.log := by
  unfold conclude
  cases outcome.listing query <;> rfl

/-- What comes of these texts when they are pushed on their own and nothing is pushed from then on.
-/
def pushedFirst (s : Session) (texts : List String) : Session :=
  ({ s with debuggee := s.debuggee.quiet } : Session).run
    (texts.map fun text => .happening (.push text))

/-- The texts do to the session what they do to it with the log put aside. -/
theorem pushedFirst_eq (s : Session) (texts : List String) :
    s.pushedFirst texts =
      ({ s with debuggee := s.debuggee.quiet } : Session).absorb
        (s.undergone (texts.map .push)) := by
  have hrun : s.pushedFirst texts =
      (texts.map Happening.push).foldl deliver { s with debuggee := s.debuggee.quiet } := by
    rw [← run_happenings, List.map_map]
    rfl
  rw [hrun]
  exact deliverAll_of_absorb (by simp [absorb, Debuggee.quiet, Debuggee.mapReplies]) _

theorem debuggee_undergone_push (s : Session) (texts : List String) :
    (s.undergone (texts.map .push)).debuggee = s.debuggee := by
  obtain ⟨_, _, -, hdebuggee⟩ := pushAll_keeps texts { s with log := [] }
  exact hdebuggee

theorem pushedFirst_keeps (s : Session) (texts : List String) :
    ∃ status entryPending,
      (s.pushedFirst texts).bridge = { s.bridge with status, entryPending } ∧
        (s.pushedFirst texts).debuggee = s.debuggee.quiet := by
  obtain ⟨status, entryPending, hbridge, hdebuggee⟩ := pushAll_keeps texts { s with log := [] }
  refine ⟨status, entryPending, ?_, ?_⟩
  · rw [pushedFirst_eq]
    unfold undergone absorb
    rw [hbridge]
  · rw [pushedFirst_eq, absorb, debuggee_undergone_push]
    rfl

/-- A call during which these texts are pushed, besides what the script has pushed. -/
theorem call_meanwhile (s : Session) (request : Request) (texts : List String) :
    let early : Session := { s with asides := [texts.map .push] }
    let pushed := (texts ++ (s.debuggee.answer request).1.pushes).map Happening.push
    early.call request =
      ((s.debuggee.answer request).1.outcome,
        ((early.asking request).absorb (s.undergone pushed)).note
          (.answered request (s.debuggee.answer request).1.outcome)) := by
  intro early pushed
  have hduring : early.duringCall request = pushed := List.map_append.symm
  have hundergone : early.undergone pushed =
      ({ early with log := [] } : Session).absorb (s.undergone pushed) := deliverAll_of_absorb rfl _
  refine (call_eq early request).trans ?_
  rw [hduring, hundergone]
  rfl

/-- The same call, with nothing pushed from then on. -/
theorem call_afterwards (s : Session) (request : Request) (texts : List String) :
    ({ s.pushedFirst texts with asides := [] } : Session).call request =
      ((s.debuggee.answer request).1.outcome,
        (({ s.pushedFirst texts with
            debuggee := (s.debuggee.answer request).2.quiet, asides := [] } : Session).note
          (.requested request)).note
            (.answered request (s.debuggee.answer request).1.outcome)) := by
  obtain ⟨_, _, -, hdebuggee⟩ := pushedFirst_keeps s texts
  unfold call
  dsimp only
  rw [hdebuggee, s.debuggee.quiet_answer request]
  rfl

/-- One call, with the texts pushed before its reply and with the texts pushed before the call: they
differ in where the log has the request. -/
theorem call_either_way (s : Session) (request : Request) (texts : List String) :
    let meanwhile := ({ s with asides := [texts.map .push] } : Session).call request
    let afterwards := ({ s.pushedFirst (texts ++ (s.debuggee.answer request).1.pushes) with
      asides := [] } : Session).call request
    ∃ told, requestsOf told = [] ∧ afterwards.1 = meanwhile.1 ∧
      Matches meanwhile.2 afterwards.2 ∧
      meanwhile.2.log =
        s.log ++ (.requested request :: told ++ [.answered request meanwhile.1]) ∧
      afterwards.2.log =
        s.log ++ (told ++ [.requested request, .answered request meanwhile.1]) := by
  intro meanwhile afterwards
  let texts' := texts ++ (s.debuggee.answer request).1.pushes
  let pushed := texts'.map Happening.push
  have hmeanwhile : meanwhile = _ := call_meanwhile s request texts
  have hafterwards : afterwards = _ := call_afterwards s request texts'
  rw [hmeanwhile, hafterwards, pushedFirst_eq]
  refine ⟨(s.undergone pushed).log, requestsOf_undergone s pushed, rfl, ⟨rfl, ?_⟩, ?_, ?_⟩
  · -- Texts do not take the connection away, so it is open after either call if it was before.
    have hconnected : (s.undergone pushed).debuggee.connected =
        (s.debuggee.answer request).2.connected := by
      rw [debuggee_undergone_push, Debuggee.connected_answer]
    show (s.debuggee.answer request).2.quiet =
      Debuggee.quiet { (s.debuggee.answer request).2 with
        connected := (s.undergone pushed).debuggee.connected }
    rw [hconnected]
  · simp [absorb, asking, note, pushed, texts']
  · simp [absorb, note, pushed, texts']

theorem operate_of_asked? {s : Session} {operation : Operation} {handle : VariableHandle}
    (h : s.asked? (.operation operation) = some handle) :
    s.operate operation = (s.expandHandle handle).map (.ofResult .listing) id := by
  cases operation with
  | expandHandle asked =>
      obtain rfl : asked = handle := by simpa [asked?] using h
      rfl
  | expandReference reference =>
      have hget : s.bridge.handles.get? reference = some handle := h
      show Prod.map _ id (s.expandReference reference) = _
      rw [expandReference, hget]
  | _ => simp [asked?] at h

/-- Where two calls come to the same, so do the operations that make them. An operation makes one
call, and what it does with the outcome depends on the bridge alone. -/
theorem Matches.operate {s t : Session} {operation : Operation} {request : Request}
    (hs : s.bridge.isConnected = true) (ht : t.bridge.isConnected = true)
    (hhandles : t.bridge.handles = s.bridge.handles) (hcall : s.call? operation = some request)
    (houtcome : (t.call request).1 = (s.call request).1)
    (h : Matches (s.call request).2 (t.call request).2) :
    (t.operate operation).1 = (s.operate operation).1 ∧
      Matches (s.operate operation).2 (t.operate operation).2 ∧
      (s.operate operation).2.log = (s.call request).2.log ∧
      (t.operate operation).2.log = (t.call request).2.log := by
  by_cases hcommand : ∃ control, operation = .execute control
  · obtain ⟨control, rfl⟩ := hcommand
    obtain rfl : Request.put (.control control) = request := by simpa [call?] using hcall
    simp only [Session.operate, dispatch, hs, ht, if_true]
    exact ⟨trivial, h, trivial, trivial⟩
  · have hasked : ((s.asked? (.operation operation)).bind (·.query.toOption)).map .get =
        some request := by
      unfold call? at hcall
      split at hcall
      · rename_i control
        exact absurd ⟨control, rfl⟩ hcommand
      · exact hcall
    obtain ⟨query, hquery, rfl⟩ := Option.map_eq_some_iff.1 hasked
    obtain ⟨handle, hhandle, hquery⟩ := Option.bind_eq_some_iff.1 hquery
    have hother : t.asked? (.operation operation) = some handle := by
      rw [← hhandle]
      unfold asked?
      rw [hhandles]
    have hsents : s.sent? handle = some query := by rw [sent?, if_pos hs, hquery]
    have hsentt : t.sent? handle = some query := by rw [sent?, if_pos ht, hquery]
    rw [operate_of_asked? hhandle, operate_of_asked? hother, expandHandle_of_sent? hsents,
      expandHandle_of_sent? hsentt, houtcome]
    obtain ⟨hresult, hafter⟩ := h.conclude handle query (s.call (.get query)).1
    exact ⟨congrArg (Answer.ofResult .listing) hresult, hafter, log_conclude _ _ _ _,
      log_conclude _ _ _ _⟩

/-- **Pushes commute with calls.** Whatever texts are pushed before the reply to a command, or to a
look at the members of a local value, it answers the same, asks the same, announces the same events
in the same order and leaves the same bridge behind as when all of them are pushed first and the
call is made after that. The texts may be anything, statuses or not.

In both cases the pushes find the same bridge, and the call finds what they leave. All that differs
is where the log has the request (`call_either_way`), and that shows neither in the requests nor in
the events when either are taken alone. -/
theorem pushes_commute_with_calls {s : Session} {operation : Operation} {request : Request}
    (hconnected : s.bridge.isConnected = true) (hcall : s.call? operation = some request)
    (texts : List String) :
    let meanwhile := s.step (.operation operation [texts.map .push])
    let pushed := s.pushedFirst (texts ++ (s.debuggee.answer request).1.pushes)
    let afterwards := pushed.step (.operation operation)
    afterwards.1 = meanwhile.1 ∧
      afterwards.2.bridge = meanwhile.2.bridge ∧
      afterwards.2.debuggee = meanwhile.2.debuggee.quiet ∧
      requestsOf (meanwhile.2.effectsSince s.log) = [request] ∧
      requestsOf (afterwards.2.effectsSince s.log) = [request] ∧
      eventsIn (afterwards.2.effectsSince s.log) =
        eventsIn (meanwhile.2.effectsSince s.log) := by
  intro meanwhile pushed afterwards
  let early : Session := { s with asides := [texts.map .push] }
  let late : Session := { pushed with asides := [] }
  obtain ⟨status, entryPending, hpushed, -⟩ :=
    pushedFirst_keeps s (texts ++ (s.debuggee.answer request).1.pushes)
  have hlate : late.bridge.isConnected = true := by
    show pushed.bridge.isConnected = true
    exact hpushed ▸ hconnected
  have hhandles : late.bridge.handles = early.bridge.handles := by
    show (s.pushedFirst _).bridge.handles = s.bridge.handles
    rw [hpushed]
  obtain ⟨told, hnone, houtcome, hmatches, hmeanwhile, hafterwards⟩ :=
    call_either_way s request texts
  obtain ⟨hanswer, hafter, hlog, hlog'⟩ :=
    Matches.operate (s := early) (t := late) hconnected hlate hhandles hcall houtcome hmatches
  have hsince : meanwhile.2.effectsSince s.log =
      .requested request :: told ++ [.answered request (early.call request).1] := by
    show List.drop s.log.length (early.operate operation).2.log = _
    rw [hlog, hmeanwhile, List.drop_left]
  have hsince' : afterwards.2.effectsSince s.log =
      told ++ [.requested request, .answered request (early.call request).1] := by
    show List.drop s.log.length (late.operate operation).2.log = _
    rw [hlog', hafterwards, List.drop_left]
  refine ⟨hanswer, hafter.bridge, hafter.debuggee, ?_, ?_, ?_⟩
  · rw [hsince, ← List.singleton_append, requestsOf_append, requestsOf_append, hnone]
    rfl
  · rw [hsince', requestsOf_append, hnone]
    rfl
  · rw [hsince, hsince']
    simp [eventsIn, Effect.event?, List.filterMap_cons]

/-- A debuggee is asked for the locals of a frame, and before it replies it says that it has
stopped, and something that nobody understands. -/
theorem pushes_commute_with_a_look_at_locals :
    let debuggee : Debuggee :=
      ⟨"localhost", 8000, false, .accepted, [("StackLocals/0?path=", [⟨["\x7b\x7d"], .replied 200
        "\x7b\"variables\":[\x7b\"name\":\"a\",\"type\":\"array\",\"value\":\"[]\"\x7d]\x7d"⟩])],
        false⟩
    let s := (new .initial debuggee (.named [])).run
      [.operation (.start "localhost:8000" true false)]
    let request : Request := .get "StackLocals/0?path="
    let texts :=
      ["\x7b\"type\":\"status\",\"message\":\x7b\"runstate\":\"paused\",\"stack\":[]\x7d\x7d"]
    let meanwhile := s.step (.operation (.expandHandle (.locals 0)) [texts.map .push])
    s.bridge.isConnected = true ∧ s.call? (.expandHandle (.locals 0)) = some request ∧
      meanwhile.1 = .listing [⟨"a", "array", "[]", 1⟩] ∧
      eventsIn (meanwhile.2.effectsSince s.log) = [.stopped .entry theThread] ∧
      eventsIn (((s.pushedFirst (texts ++ (s.debuggee.answer request).1.pushes)).step
        (.operation (.expandHandle (.locals 0)))).2.effectsSince s.log) =
          [.stopped .entry theThread] := by
  intro debuggee s request texts meanwhile
  have hconnected : s.bridge.isConnected = true := by decide +kernel
  have hcall : s.call? (.expandHandle (.locals 0)) = some request := by decide +kernel
  have hevents : eventsIn (meanwhile.2.effectsSince s.log) = [.stopped .entry theThread] := by
    decide +kernel
  obtain ⟨-, -, -, -, -, hsame⟩ := pushes_commute_with_calls hconnected hcall texts
  exact ⟨hconnected, hcall, by decide +kernel, hevents, hsame.trans hevents⟩

end Session

end DebugBridge
