/-
Commands whose outcome nobody looks at.

A command that moves or halts execution is sent and forgotten: what comes of it shows in a later
status. So two debuggees that differ in nothing but how they answer such commands (`Debuggee.Alike`)
cannot be told apart. Two sessions with them go side by side (`Session.Alike`): they have the same
bridge, and the same log but for those outcomes. One lemma for each function says that it keeps
sessions side by side and gives the same result in both; where a request is made, the two replies
bring the same pushes, and the outcome is either the same or not looked at (`Alike.call`).

The maps of `Proofs/Following.lean` do not serve here. Neither of the two sessions is made from the
other, as their debuggees may answer a command in ways that have nothing in common, so what is
carried through the operations is a relation.
-/
import DebugBridge.Proofs.Expansion
import Mathlib.Data.List.Forall2

namespace DebugBridge

/-- All commands that move or halt execution. -/
def Control.all : List Control := [.resume, .stepOver, .stepIn, .stepOut, .pause]

/-- Whether something is called like a command that moves or halts execution. -/
def isControlName (name : String) : Bool := (Control.all.map Control.name).contains name

theorem isControlName_name (c : Control) : isControlName c.name = true := by
  cases c <;> decide

theorem isControlName_sendStatus : isControlName Command.sendStatus.name = false := by
  decide

theorem isControlName_eq_false {name : String} (h : ∀ c : Control, c.name ≠ name) :
    isControlName name = false := by
  refine Bool.eq_false_iff.2 fun hcontains => ?_
  obtain ⟨c, -, heq⟩ := List.mem_map.1 (List.contains_iff_mem.1 hcontains)
  exact h c heq

theorem Control.name_ne_query (c : Control) (frame mark path : String) :
    c.name ≠ "StackLocals/" ++ frame ++ mark ++ path := by
  intro heq
  have htext := congrArg String.toList heq
  cases c <;> simp [Control.name] at htext

/-- No query is called like a command. -/
theorem isControlName_of_query {h : VariableHandle} {query : String}
    (hquery : h.query = .ok query) :
    isControlName query = false := by
  obtain ⟨frame, path, rfl⟩ := VariableHandle.eq_of_query hquery
  obtain rfl := Except.ok.inj hquery
  exact isControlName_eq_false fun c => c.name_ne_query _ _ _

/-! ### Debuggees

What two debuggees have to agree in is said of the replies to each request, in their order, and not
of their scripts, which may give the same replies in different ways. Names tell requests apart, and
no query has the name of a command, so the replies to queries agree in full.
-/

/-- Two replies to the request called `name` that come with the same pushes and, unless nobody looks
at it, have the same outcome. -/
structure Reply.Alike (name : String) (r r' : Reply) : Prop where
  pushes : r.pushes = r'.pushes
  outcome : isControlName name = false → r.outcome = r'.outcome

namespace Debuggee

/-- The replies to a request that are still to come, the last of them again and again. -/
def repliesTo (d : Debuggee) (request : Request) : List Reply :=
  match d.script.lookup request.name with
  | none | some [] => [unscripted request]
  | some (first :: rest) => first :: rest

/-- Two debuggees that differ in nothing but the outcomes of commands that move or halt execution.
-/
structure Alike (d d' : Debuggee) : Prop where
  host : d.host = d'.host
  port : d.port = d'.port
  secure : d.secure = d'.secure
  handshake : d.handshake = d'.handshake
  replies : ∀ request, List.Forall₂ (Reply.Alike request.name) (d.repliesTo request)
    (d'.repliesTo request)

/-- The replies that are left when one has been given. -/
def left : List Reply → List Reply
  | _ :: second :: rest => second :: rest
  | replies => replies

theorem lookup_replace (script : List (String × List Reply)) (key other : String)
    (replies : List Reply) :
    (script.map fun entry => if entry.1 = key then (entry.1, replies) else entry).lookup other =
      if other = key then (script.lookup other).map fun _ => replies else script.lookup other := by
  induction script with
  | nil => simp
  | cons entry rest ih =>
      obtain ⟨name, given⟩ := entry
      have hhead : (if name = key then (name, replies) else (name, given)) =
          (name, if name = key then replies else given) := by
        split <;> rfl
      simp only [List.map_cons, hhead, List.lookup_cons, ih]
      by_cases hfound : other = name
      · subst hfound
        by_cases hkey : other = key <;> simp [hkey]
      · simp only [beq_false_of_ne hfound]

theorem answer_fst (d : Debuggee) (request : Request) :
    (d.repliesTo request).head? = some (d.answer request).1 := by
  unfold repliesTo answer
  match d.script.lookup request.name with
  | none | some [] => rfl
  | some [last] => rfl
  | some (first :: second :: rest) => rfl

theorem answer_keeps (d : Debuggee) (request : Request) :
    (d.answer request).2.host = d.host ∧ (d.answer request).2.port = d.port ∧
      (d.answer request).2.secure = d.secure ∧ (d.answer request).2.handshake = d.handshake := by
  unfold answer
  split <;> exact ⟨rfl, rfl, rfl, rfl⟩

theorem repliesTo_answer (d : Debuggee) (request other : Request) :
    (d.answer request).2.repliesTo other =
      if other.name = request.name then left (d.repliesTo other) else d.repliesTo other := by
  unfold answer
  by_cases hname : other.name = request.name
  · rw [if_pos hname]
    unfold repliesTo
    rw [← hname]
    match hlookup : d.script.lookup other.name with
    | none | some [] | some [last] => simp [hlookup, left]
    | some (first :: second :: rest) => simp [lookup_replace, hlookup, left]
  · rw [if_neg hname]
    match hlookup : d.script.lookup request.name with
    | none | some [] | some [last] => rfl
    | some (first :: second :: rest) => simp [repliesTo, lookup_replace, hname]

theorem forall₂_left {name : String} {replies replies' : List Reply}
    (h : List.Forall₂ (Reply.Alike name) replies replies') :
    List.Forall₂ (Reply.Alike name) (left replies) (left replies') := by
  cases h with
  | nil => exact .nil
  | cons hfirst hrest =>
      cases hrest with
      | nil => exact .cons hfirst .nil
      | cons hsecond hrest => exact .cons hsecond hrest

/-- Each gives the first of its replies, and with what is left they are alike again. -/
theorem Alike.answer {d d' : Debuggee} (h : d.Alike d') (request : Request) :
    Reply.Alike request.name (d.answer request).1 (d'.answer request).1 ∧
      (d.answer request).2.Alike (d'.answer request).2 := by
  constructor
  · have hfirst := d.answer_fst request
    have hfirst' := d'.answer_fst request
    have hreplies := h.replies request
    generalize d.repliesTo request = replies at hfirst hreplies
    generalize d'.repliesTo request = replies' at hfirst' hreplies
    cases hreplies with
    | nil => simp at hfirst
    | cons halike _ =>
        rw [← Option.some.inj hfirst, ← Option.some.inj hfirst']
        exact halike
  · obtain ⟨hhost, hport, hsecure, hhandshake⟩ := d.answer_keeps request
    obtain ⟨hhost', hport', hsecure', hhandshake'⟩ := d'.answer_keeps request
    refine ⟨by rw [hhost, hhost', h.host], by rw [hport, hport', h.port],
      by rw [hsecure, hsecure', h.secure], by rw [hhandshake, hhandshake', h.handshake],
      fun other => ?_⟩
    rw [repliesTo_answer, repliesTo_answer]
    split
    · exact forall₂_left (h.replies other)
    · exact h.replies other

/-- The accept of one is the accept of the other. -/
theorem Alike.accept {d d' : Debuggee} (h : d.Alike d') (e : Endpoint) :
    (∃ failure, d.accept e = .error failure ∧ d'.accept e = .error failure) ∨
      d.accept e = .ok { d with connected := true } ∧
        d'.accept e = .ok { d' with connected := true } := by
  have hlistens : d.listensAt e = d'.listensAt e := by
    rw [listensAt, listensAt, h.host, h.port, h.secure]
  unfold Debuggee.accept
  rw [← hlistens, ← h.handshake]
  cases d.listensAt e with
  | false => exact .inl ⟨_, rfl, rfl⟩
  | true =>
      cases d.handshake with
      | accepted => exact .inr ⟨rfl, rfl⟩
      | rejected => exact .inl ⟨_, rfl, rfl⟩
      | refused => exact .inl ⟨_, rfl, rfl⟩

/-- Two scripts that differ in nothing but the outcomes of such commands. -/
def ScriptsAlike : List (String × List Reply) → List (String × List Reply) → Prop :=
  List.Forall₂ fun entry entry' =>
    entry.1 = entry'.1 ∧ List.Forall₂ (Reply.Alike entry.1) entry.2 entry'.2

theorem lookup_of_scriptsAlike {script script' : List (String × List Reply)}
    (h : ScriptsAlike script script') (name : String) :
    Option.Rel (List.Forall₂ (Reply.Alike name)) (script.lookup name) (script'.lookup name) := by
  induction h with
  | nil => exact .none
  | @cons entry entry' _ _ hentry _ ih =>
      obtain ⟨key, replies⟩ := entry
      obtain ⟨key', replies'⟩ := entry'
      obtain ⟨rfl, hreplies⟩ := hentry
      by_cases hname : name = key
      · subst hname
        simpa using Option.Rel.some hreplies
      · simpa only [List.lookup_cons, beq_false_of_ne hname] using ih

theorem alike_of_scripts {d d' : Debuggee} (hhost : d.host = d'.host) (hport : d.port = d'.port)
    (hsecure : d.secure = d'.secure) (hhandshake : d.handshake = d'.handshake)
    (hscript : ScriptsAlike d.script d'.script) : d.Alike d' := by
  refine ⟨hhost, hport, hsecure, hhandshake, fun request => ?_⟩
  have hsame : ∀ replies, List.Forall₂ (Reply.Alike request.name) replies replies :=
    fun replies => List.forall₂_same.2 fun _ _ => ⟨rfl, fun _ => rfl⟩
  have hlookup := lookup_of_scriptsAlike hscript request.name
  unfold repliesTo
  generalize d.script.lookup request.name = found at hlookup
  generalize d'.script.lookup request.name = found' at hlookup
  cases hlookup with
  | none => exact hsame _
  | some hreplies =>
      cases hreplies with
      | nil => exact hsame _
      | cons hfirst hrest => exact .cons hfirst hrest

end Debuggee

/-! ### The log

The outcomes nobody looks at are in the log, since the log has every outcome. They are left out when
two logs are compared, and no event, no request and no reading is lost with them.
-/

/-- Whether an entry of the log is more than the outcome of a command nobody waits for. -/
def Effect.isHeeded : Effect → Bool
  | answered request _ => !isControlName request.name
  | _ => true

/-- A log without the outcomes of commands nobody waits for. -/
def heededIn (log : List Effect) : List Effect := log.filter Effect.isHeeded

@[simp] theorem heededIn_append (log more : List Effect) :
    heededIn (log ++ more) = heededIn log ++ heededIn more :=
  List.filter_append ..

theorem heededIn_of_unheeded {e : Effect} (he : e.isHeeded = false) : heededIn [e] = [] := by
  simp [heededIn, he]

theorem filterMap_heededIn {α : Type} {f : Effect → Option α}
    (hf : ∀ e : Effect, e.isHeeded = false → f e = none) (log : List Effect) :
    (heededIn log).filterMap f = log.filterMap f := by
  have hsame : (fun e : Effect => if e.isHeeded then f e else none) = f := by
    funext e
    cases he : e.isHeeded <;> simp [hf e, he]
  rw [heededIn, List.filterMap_filter, hsame]

namespace Session

/-- Two sessions that differ in nothing but the outcomes of commands nobody waits for, those noted
and those to come. -/
structure Alike (s t : Session) : Prop where
  bridge : t.bridge = s.bridge
  files : t.files = s.files
  asides : t.asides = s.asides
  connected : t.debuggee.connected = s.debuggee.connected
  debuggee : s.debuggee.Alike t.debuggee
  log : heededIn t.log = heededIn s.log

/-- The same result in two sessions that are alike. -/
def SameResult {α : Type} (x y : α × Session) : Prop := y.1 = x.1 ∧ Alike x.2 y.2

namespace Alike

variable {s t : Session}

theorem note (h : Alike s t) (e : Effect) : Alike (s.note e) (t.note e) :=
  { h with log := by simp [Session.note, h.log] }

/-- What is left out of the log need not be the same. -/
theorem note_unheeded (h : Alike s t) {e e' : Effect} (he : e.isHeeded = false)
    (he' : e'.isHeeded = false) : Alike (s.note e) (t.note e') :=
  { h with log := by simp [Session.note, heededIn_of_unheeded he, heededIn_of_unheeded he', h.log] }

theorem setBridge (h : Alike s t) (bridge : Bridge) :
    Alike { s with bridge } { t with bridge } :=
  { h with bridge := rfl }

theorem setAsides (h : Alike s t) (asides : List (List Happening)) :
    Alike { s with asides } { t with asides } :=
  { h with asides := rfl }

/-! ### The push channel

Here both sessions do the same, as what is pushed comes with no reply, or with replies that bring
the same pushes.
-/

theorem finish (h : Alike s t) : Alike s.finish t.finish := by
  unfold Session.finish
  rw [h.bridge]
  split
  · exact h
  · exact (h.setBridge _).note _

theorem applyStatus (h : Alike s t) (status : Status) :
    Alike (s.applyStatus status) (t.applyStatus status) := by
  unfold Session.applyStatus
  rw [h.bridge]
  exact (h.setBridge _).note _

theorem receive (h : Alike s t) (frame : String) : Alike (s.receive frame) (t.receive frame) := by
  unfold Session.receive
  cases Status.ofFrame frame with
  | ok status => exact (h.note _).applyStatus status
  | error failure => exact h.note _

theorem cutOff (h : Alike s t) :
    Alike { s with debuggee := { s.debuggee with connected := false } }
      { t with debuggee := { t.debuggee with connected := false } } :=
  { h with connected := rfl, debuggee := { h.debuggee with replies := h.debuggee.replies } }

theorem lose (h : Alike s t) : Alike s.lose t.lose := h.cutOff.finish

/-- A delivery looks at nothing but whether the connection is open. -/
theorem deliver (h : Alike s t) (happening : Happening) :
    Alike (s.deliver happening) (t.deliver happening) := by
  have hsame : t.incoming? happening = s.incoming? happening := by
    rw [incoming?, incoming?, h.connected]
  cases hcomes : s.incoming? happening with
  | some text =>
      rw [deliver_of_incoming hcomes, deliver_of_incoming (hsame.trans hcomes)]
      exact h.receive text
  | none =>
      rw [deliver_of_not_incoming hcomes, deliver_of_not_incoming (hsame.trans hcomes), h.connected]
      split
      · exact h.lose
      · exact h

theorem deliverAll (happenings : List Happening) :
    ∀ {s t : Session}, Alike s t →
      Alike (happenings.foldl Session.deliver s) (happenings.foldl Session.deliver t) := by
  induction happenings with
  | nil => exact fun h => h
  | cons happening rest ih => exact fun h => ih (h.deliver happening)

theorem wait (h : Alike s t) : Alike s.wait t.wait := by
  unfold Session.wait
  rw [h.asides]
  split
  · exact h
  · exact deliverAll _ (h.setAsides _)

/-! ### The command channel

This is where the two may differ. A command leaves entries in the two logs that need not agree, and
goes on without a look at them. Any other request gets one outcome in both sessions.
-/

/-- A call brings the same pushes, and an outcome that is the same unless nobody looks at it. -/
theorem call (h : Alike s t) (request : Request) :
    (isControlName request.name = false → (t.call request).1 = (s.call request).1) ∧
      Alike (s.call request).2 (t.call request).2 := by
  obtain ⟨hreply, hleft⟩ := h.debuggee.answer request
  have houtcome : isControlName request.name = false →
      (t.call request).1 = (s.call request).1 := fun hname => (hreply.outcome hname).symm
  refine ⟨houtcome, ?_⟩
  have hasked : Alike { s with debuggee := (s.debuggee.answer request).2 }
      { t with debuggee := (t.debuggee.answer request).2 } :=
    { h with
      debuggee := hleft
      connected := by simp [h.connected] }
  have hpushed := deliverAll ((s.debuggee.answer request).1.pushes.map .push)
    ((hasked.note (.requested request)).wait)
  unfold Session.call
  dsimp only
  rw [← hreply.pushes]
  cases hname : isControlName request.name with
  | true =>
      exact hpushed.note_unheeded (by simp [Effect.isHeeded, hname])
        (by simp [Effect.isHeeded, hname])
  | false =>
      rw [hreply.outcome hname]
      exact hpushed.note _

theorem dispatch (h : Alike s t) (control : Control) :
    Alike (s.dispatch control) (t.dispatch control) := by
  unfold Session.dispatch
  rw [h.bridge]
  split
  · exact (h.call _).2
  · exact h

theorem askStatus (h : Alike s t) : Alike s.askStatus t.askStatus := by
  obtain ⟨houtcome, hcall⟩ := h.call (.put .sendStatus)
  unfold Session.askStatus
  dsimp only
  rw [houtcome isControlName_sendStatus]
  cases (s.call (.put .sendStatus)).1.status? with
  | none => exact hcall
  | some status => exact hcall.applyStatus status

theorem expandHandle (h : Alike s t) (handle : VariableHandle) :
    SameResult (s.expandHandle handle) (t.expandHandle handle) := by
  unfold Session.expandHandle
  cases hquery : handle.query with
  | error failure => exact ⟨rfl, h⟩
  | ok query =>
      obtain ⟨houtcome, hcall⟩ := h.call (.get query)
      dsimp only
      rw [h.bridge, houtcome (isControlName_of_query hquery)]
      split
      · cases (s.call (.get query)).1.listing query with
        | error failure => exact ⟨rfl, hcall⟩
        | ok listing =>
            dsimp only
            rw [hcall.bridge]
            exact ⟨rfl, hcall.setBridge _⟩
      · exact ⟨rfl, h⟩

theorem expandReference (h : Alike s t) (reference : Int64) :
    SameResult (s.expandReference reference) (t.expandReference reference) := by
  unfold Session.expandReference
  rw [h.bridge]
  split
  · exact ⟨rfl, h⟩
  · exact h.expandHandle _

/-! ### Beginning and end -/

theorem pauseOnEntry (h : Alike s t) : Alike s.pauseOnEntry t.pauseOnEntry := by
  unfold Session.pauseOnEntry
  rw [h.bridge]
  split
  · exact h
  · exact ((h.setBridge _).note _).dispatch _

theorem greet (h : Alike s t) (endpoint : Endpoint) : Alike (s.greet endpoint) (t.greet endpoint) :=
  (h.note _).wait.askStatus.wait

/-- Both connect to the same endpoint, or fail for the same reason. -/
theorem connect (h : Alike s t) (address : String) :
    (∃ failure, s.connect address = .error failure ∧ t.connect address = .error failure) ∨
      ∃ endpoint s' t', s.connect address = .ok (endpoint, s') ∧
        t.connect address = .ok (endpoint, t') ∧ Alike s' t' := by
  unfold Session.connect
  cases Endpoint.parse address with
  | error cause => exact .inl ⟨_, rfl, rfl⟩
  | ok endpoint =>
      dsimp only
      rw [h.bridge]
      rcases h.debuggee.accept endpoint with ⟨failure, hs, ht⟩ | ⟨hs, ht⟩
      · rw [hs, ht]
        exact .inl ⟨failure, rfl, rfl⟩
      · rw [hs, ht]
        refine .inr ⟨endpoint, _, _, rfl, rfl, ?_⟩
        exact { h with
          bridge := rfl
          connected := rfl
          debuggee := { h.debuggee with replies := h.debuggee.replies } }

theorem start (h : Alike s t) (address : String) (stopOnEntry noDebug : Bool) :
    SameResult (s.start address stopOnEntry noDebug) (t.start address stopOnEntry noDebug) := by
  unfold Session.start
  rw [h.bridge]
  split
  · exact ⟨rfl, h⟩
  · have hattempted := h.setBridge { s.bridge with started := true, noDebug }
    dsimp only
    rcases hattempted.connect address with
      ⟨failure, hs, ht⟩ | ⟨endpoint, s', t', hs, ht, hconnected⟩
    · rw [hs, ht]
      exact ⟨rfl, hattempted.finish⟩
    · rw [hs, ht]
      refine ⟨rfl, ?_⟩
      dsimp only
      split
      · exact (hconnected.greet endpoint).pauseOnEntry
      · exact hconnected.greet endpoint

theorem disconnect (h : Alike s t) : Alike s.disconnect t.disconnect := by
  unfold Session.disconnect
  rw [h.bridge]
  split
  · have hgone := h.wait.cutOff.setBridge { s.wait.bridge with hasSession := false }
    unfold Session.hangUp
    rw [h.wait.bridge]
    exact hgone.finish
  · exact h.finish

/-! ### Breakpoints -/

theorem load (h : Alike s t) (path : String) : SameResult (s.load path) (t.load path) := by
  have hloaded : t.bridge.sources.load t.files path = s.bridge.sources.load s.files path := by
    rw [h.bridge, h.files]
  unfold Session.load
  dsimp only
  rw [hloaded, h.bridge]
  refine ⟨rfl, ?_⟩
  dsimp only
  split
  · exact (h.setBridge _).note _
  · exact h.setBridge _

theorem noteVerified (bs : List Breakpoint) :
    ∀ {s t : Session}, Alike s t →
      Alike (bs.foldl (fun s b => s.note (.emitted (.breakpointVerified b))) s)
        (bs.foldl (fun s b => s.note (.emitted (.breakpointVerified b))) t) := by
  induction bs with
  | nil => exact fun h => h
  | cons b rest ih => exact fun h => ih (h.note _)

theorem verify (h : Alike s t) (path : String) : Alike (s.verify path) (t.verify path) := by
  obtain ⟨hresult, hloaded⟩ := h.load path
  unfold Session.verify
  rw [h.bridge]
  split
  · exact h
  · generalize s.load path = loaded at hresult hloaded
    generalize t.load path = loaded' at hresult hloaded
    obtain ⟨result, s'⟩ := loaded
    obtain ⟨result', t'⟩ := loaded'
    obtain rfl : result' = result := hresult
    cases result' with
    | error failure => exact hloaded
    | ok source =>
        dsimp only at hloaded ⊢
        rw [hloaded.bridge]
        exact noteVerified _ (hloaded.setBridge _)

theorem setBreakpoint (h : Alike s t) (path : String) (line : UInt32) :
    SameResult (s.setBreakpoint path line) (t.setBreakpoint path line) := by
  have hverified := (h.setBridge
    { s.bridge with registry := (s.bridge.registry.add path line).2 }).verify path
  unfold Session.setBreakpoint
  dsimp only
  rw [h.bridge, hverified.bridge]
  exact ⟨rfl, hverified⟩

theorem addBreakpoints (path : String) (lines : List UInt32) :
    ∀ {s t : Session}, Alike s t →
      SameResult (s.addBreakpoints path lines) (t.addBreakpoints path lines) := by
  induction lines with
  | nil => exact fun h => ⟨rfl, h⟩
  | cons line rest ih =>
      intro s t h
      obtain ⟨hfirst, hset⟩ := h.setBreakpoint path line
      obtain ⟨hrest, hadded⟩ := ih hset
      exact ⟨congrArg₂ List.cons hfirst hrest, hadded⟩

theorem clearBreakpoints (h : Alike s t) (path : String) :
    Alike (s.clearBreakpoints path) (t.clearBreakpoints path) := by
  unfold Session.clearBreakpoints
  rw [h.bridge]
  exact h.setBridge _

theorem setBreakpoints (h : Alike s t) (path : String) (lines : List UInt32) :
    SameResult (s.setBreakpoints path lines) (t.setBreakpoints path lines) :=
  addBreakpoints path lines (h.clearBreakpoints path)

theorem clearBreakpoint (h : Alike s t) (path : String) (line : UInt32) :
    SameResult (s.clearBreakpoint path line) (t.clearBreakpoint path line) := by
  unfold Session.clearBreakpoint
  rw [h.bridge]
  exact ⟨rfl, h.setBridge _⟩

theorem breakColumns (h : Alike s t) (path : String) (line : UInt32) :
    SameResult (s.breakColumns path line) (t.breakColumns path line) := by
  obtain ⟨hresult, hloaded⟩ := h.load path
  refine ⟨?_, hloaded⟩
  unfold Session.breakColumns
  dsimp only
  rw [hresult]

theorem scopes (h : Alike s t) (frame : UInt32) : SameResult (s.scopes frame) (t.scopes frame) := by
  unfold Session.scopes
  rw [h.bridge]
  exact ⟨rfl, h.setBridge _⟩

/-! ### Steps and runs

An operation is one of the functions above, so with one lemma for each the cases are closed, and a
run is as long as it likes.
-/

theorem operate (h : Alike s t) (operation : Operation) :
    SameResult (s.operate operation) (t.operate operation) := by
  have hmap : ∀ {α : Type} {x y : α × Session} (f : α → Answer), SameResult x y →
      SameResult (x.map f id) (y.map f id) := fun f hsame => ⟨congrArg f hsame.1, hsame.2⟩
  cases operation with
  | start address stopOnEntry noDebug => exact hmap _ (h.start address stopOnEntry noDebug)
  | startConfigured =>
      show SameResult (Prod.map _ id s.startConfigured) (Prod.map _ id t.startConfigured)
      unfold Session.startConfigured
      rw [h.bridge]
      exact hmap _ (h.start _ _ _)
  | disconnect => exact ⟨rfl, h.disconnect⟩
  | execute control => exact ⟨rfl, h.dispatch control⟩
  | setBreakpoint path line => exact hmap _ (h.setBreakpoint path line)
  | setBreakpoints path lines => exact hmap _ (h.setBreakpoints path lines)
  | clearBreakpoint path line => exact hmap _ (h.clearBreakpoint path line)
  | clearBreakpoints path => exact ⟨rfl, h.clearBreakpoints path⟩
  | breakpoints path => exact ⟨by simp only [Session.operate, h.bridge], h⟩
  | breakColumns path line => exact hmap _ (h.breakColumns path line)
  | runState => exact ⟨by simp only [Session.operate, h.bridge], h⟩
  | stack => exact ⟨by simp only [Session.operate, h.bridge], h⟩
  | stackPage start levels => exact ⟨by simp only [Session.operate, h.bridge], h⟩
  | threads => exact ⟨rfl, h⟩
  | scopes frame => exact hmap _ (h.scopes frame)
  | expandReference reference => exact hmap _ (h.expandReference reference)
  | expandHandle handle => exact hmap _ (h.expandHandle handle)

/-- A step keeps sessions side by side and gets the same answer. -/
theorem step (h : Alike s t) (x : Step) : SameResult (s.step x) (t.step x) := by
  cases x with
  | operation operation asides =>
      obtain ⟨hanswer, hafter⟩ := (h.setAsides asides).operate operation
      exact ⟨hanswer, hafter.setAsides []⟩
  | happening happening =>
      exact ⟨congrArg Answer.delivered h.connected, h.deliver happening⟩
  | edit path contents =>
      refine ⟨rfl, ?_⟩
      unfold Session.step
      rw [h.files]
      exact { h with files := rfl }

/-- What is noticed during a step is the same, but for what nobody looks at. -/
theorem heededIn_effectsSince (h : Alike s t) (x : Step) :
    heededIn ((t.step x).2.effectsSince t.log) = heededIn ((s.step x).2.effectsSince s.log) := by
  have hafter := (h.step x).2.log
  rw [log_step, log_step, heededIn_append, heededIn_append, h.log] at hafter
  exact List.append_cancel_left hafter

theorem run (steps : List Step) :
    ∀ {s t : Session}, Alike s t → Alike (s.run steps) (t.run steps) := by
  induction steps with
  | nil => exact fun h => h
  | cons x rest ih => exact fun h => ih (h.step x).2

end Alike

/-- What a client, a debuggee and a file system get to see of a step. -/
structure Outward where
  answer : Answer
  events : List Event
  requests : List Request
  reads : List String
  runState : RunState
  connected : Bool
  deriving DecidableEq, Repr

def Entry.outward (e : Entry) : Outward where
  answer := e.answer
  events := e.effects.filterMap Effect.event?
  requests := e.effects.filterMap Effect.request?
  reads := e.effects.filterMap Effect.path?
  runState := e.runState
  connected := e.connected

/-- What nobody looks at is no event, no request and no access to a file. -/
theorem Entry.outward_eq {e e' : Entry} (hanswer : e'.answer = e.answer)
    (heffects : heededIn e'.effects = heededIn e.effects) (hrunState : e'.runState = e.runState)
    (hconnected : e'.connected = e.connected) : e'.outward = e.outward := by
  have hsame : ∀ {α : Type} (f : Effect → Option α),
      (∀ effect : Effect, effect.isHeeded = false → f effect = none) →
        e'.effects.filterMap f = e.effects.filterMap f := by
    intro α f hf
    rw [← filterMap_heededIn hf, heffects, filterMap_heededIn hf]
  have hanswered : ∀ effect : Effect, effect.isHeeded = false →
      effect.event? = none ∧ effect.request? = none ∧ effect.path? = none := by
    intro effect heffect
    cases effect with
    | answered request outcome => exact ⟨rfl, rfl, rfl⟩
    | _ => simp [Effect.isHeeded] at heffect
  unfold outward
  rw [hanswer, hrunState, hconnected, hsame _ fun effect h => (hanswered effect h).1,
    hsame _ fun effect h => (hanswered effect h).2.1,
    hsame _ fun effect h => (hanswered effect h).2.2]

theorem Alike.entries (steps : List Step) :
    ∀ {s t : Session}, Alike s t →
      (t.entries steps).map Entry.outward = (s.entries steps).map Entry.outward := by
  induction steps with
  | nil => exact fun _ => rfl
  | cons x rest ih =>
      intro s t h
      obtain ⟨hanswer, hafter⟩ := h.step x
      refine congrArg₂ List.cons (Entry.outward_eq hanswer (h.heededIn_effectsSince x) ?_ ?_)
        (ih hafter)
      · exact congrArg Bridge.runState hafter.bridge
      · exact congrArg Bridge.isConnected hafter.bridge

theorem alike_new (config : Config) (files : Files) {d d' : Debuggee} (h : d.Alike d') :
    Alike (new config d files) (new config d' files) where
  bridge := rfl
  files := rfl
  asides := rfl
  connected := rfl
  debuggee := { h with replies := h.replies }
  log := rfl

/-- **What comes of a command that moves or halts execution is of no consequence.** With two
debuggees that differ in nothing else, a run shows the same, step by step, to everybody, and leaves
the same bridge behind; all the logs differ in is those outcomes. That includes the pause that a
start asks for on its own.

The two sessions are taken through the run side by side (`Alike.run`). They differ in outcomes that
were noted and in those to come, neither of which the bridge ever looks at. -/
theorem control_outcomes_do_not_matter (config : Config) (files : Files) {d d' : Debuggee}
    (h : d.Alike d') (steps : List Step) :
    ((new config d' files).entries steps).map Entry.outward =
        ((new config d files).entries steps).map Entry.outward ∧
      ((new config d' files).run steps).bridge = ((new config d files).run steps).bridge ∧
      heededIn ((new config d' files).run steps).log =
        heededIn ((new config d files).run steps).log := by
  have hnew := alike_new config files h
  have hrun := Alike.run steps hnew
  exact ⟨Alike.entries steps hnew, hrun.bridge, hrun.log⟩

/-- A debuggee reports a stop before it answers the pause on entry. Whether the answer is lost or
says that execution goes on, the stop is the one on entry, and it is the last that is told. -/
theorem answer_to_the_entry_pause_does_not_matter :
    let stopped :=
      "\x7b\"type\":\"status\",\"message\":\x7b\"runstate\":\"paused\",\"stack\":[]\x7d\x7d"
    let lost : Debuggee :=
      ⟨"localhost", 8000, false, .accepted, [("Pause", [⟨[stopped], .failed "timed out"⟩])], false⟩
    let running : Debuggee :=
      ⟨"localhost", 8000, false, .accepted, [("Pause",
        [⟨[stopped], .replied 200 "\x7b\"data\":\x7b\"runstate\":\"running\"\x7d\x7d"⟩])], false⟩
    let steps : List Step := [.operation (.start "localhost:8000" true false)]
    lost.Alike running ∧
      ((new .initial lost (.named [])).run steps).log ≠
        ((new .initial running (.named [])).run steps).log ∧
      newsOf ((new .initial lost (.named [])).run steps).log =
        [.started "localhost:8000", .stopped .entry theThread] ∧
      ((new .initial running (.named [])).run steps).bridge.runState =
        ((new .initial lost (.named [])).run steps).bridge.runState := by
  intro stopped lost running steps
  have halike : lost.Alike running :=
    Debuggee.alike_of_scripts rfl rfl rfl rfl
      (.cons ⟨rfl, .cons ⟨rfl, fun hname => nomatch (isControlName_name .pause).symm.trans hname⟩
        .nil⟩ .nil)
  refine ⟨halike, by decide +kernel, by decide +kernel, ?_⟩
  exact congrArg Bridge.runState (control_outcomes_do_not_matter .initial (.named [])
    halike steps).2.1

end Session

end DebugBridge
