/-
Sessions that are started without debugging.

The first start decides about the mode, even if it fails, and the mode stays (`noDebug_step`). Two
things are expected of a session without debugging. No breakpoint is ever verified in it, and that
holds (`Session.VerifiesNothing`). Nor is the execution to be controlled. Of its own accord the
bridge asks for no pause then; but a command of the client is sent to a debuggee as in any other
session (`Session.commanded`).

So the second expectation holds exactly as far as the client keeps to it, and this is how it is
stated: the commands that the debuggee receives are those that the client gives. The run that shows
the difference is next to it.
-/
import DebugBridge.Proofs.LateLoad
import DebugBridge.Proofs.Requests
import DebugBridge.Proofs.Unverified

namespace DebugBridge

/-- The same step, with the mode of a start replaced. -/
def Step.inMode (noDebug : Bool) : Step → Step
  | .operation (.start address stopOnEntry _) asides =>
    .operation (.start address stopOnEntry noDebug) asides
  | x => x

/-- Whether a step sets breakpoints. -/
def Step.setsBreakpoints : Step → Bool
  | .operation (.setBreakpoint _ _) _ | .operation (.setBreakpoints _ _) _ => true
  | _ => false

/-- The command that moves or halts execution in a request. -/
def Request.control? : Request → Option Control
  | put (.control control) => some control
  | _ => none

/-- Between two desks nothing was announced as verified, and nothing became so. -/
structure Desk.Untouched (d e : Desk) : Prop where
  told : e.told = d.told
  kept : ∀ b ∈ e.registry.breakpoints, b.verified = true → b ∈ d.registry.breakpoints

theorem Desk.Untouched.trans {d e f : Desk} (h : d.Untouched e) (h' : e.Untouched f) :
    d.Untouched f :=
  ⟨h'.told.trans h.told, fun b hb hverified => h.kept b (h'.kept b hb hverified) hverified⟩

namespace Registry

/-- Which breakpoints there are is not a matter of the mode. -/
theorem step_inMode (r : Registry) (noDebug : Bool) (x : Step) :
    r.step (x.inMode noDebug) = r.step x := by
  unfold Step.inMode
  split <;> rfl

theorem run_inMode (noDebug : Bool) (steps : List Step) :
    ∀ r : Registry, r.run (steps.map (Step.inMode noDebug)) = r.run steps := by
  intro r
  rw [run, List.foldl_map]
  simp only [step_inMode, run]

theorem shownIn_inMode (noDebug : Bool) (steps : List Step) :
    ∀ r : Registry, r.shownIn (steps.map (Step.inMode noDebug)) = r.shownIn steps := by
  induction steps with
  | nil => exact fun r => rfl
  | cons x rest ih =>
      intro r
      rw [List.map_cons, shownIn, shownIn, step_inMode, ih]

end Registry

namespace Session

/-! ### The mode

The mode is a flag. It is what the configuration says until the first start sets it, and from then
on it stays. Whether an operation starts the session can be told from the operation and the
configuration, since the configured start takes its arguments from there.
-/

theorem Done.noDebug {s t : Session} {deeds : List Deed} (h : Done s deeds t) :
    t.bridge.noDebug = s.bridge.noDebug :=
  h.preserves (P := fun _ t => t.bridge.noDebug = s.bridge.noDebug)
    (fun hdesk ht => (congrArg Desk.noDebug hdesk).trans ht)
    (fun d ht => (noDebug_perform _ d).trans ht) rfl

/-- The first start sets the mode, and nothing else does. -/
theorem noDebug_step (s : Session) (x : Step) :
    (s.step x).2.bridge.noDebug =
      if s.bridge.started then s.bridge.noDebug
      else (x.start? s.bridge.config).elim s.bridge.noDebug fun arguments => arguments.2.2 := by
  cases x with
  | happening happening =>
      rw [Step.start?, Option.elim_none, ite_self]
      exact congrArg Holdings.noDebug (holdings_deliver s happening)
  | edit =>
      rw [Step.start?, Option.elim_none, ite_self]
      rfl
  | operation operation asides =>
      show ({ s with asides }.operate operation).2.bridge.noDebug =
        if s.bridge.started then s.bridge.noDebug
        else (operation.start? s.bridge.config).elim s.bridge.noDebug fun arguments =>
          arguments.2.2
      cases hstart : operation.start? s.bridge.config with
      | none =>
          rw [Option.elim_none, ite_self]
          exact (done_operate { s with asides } operation hstart).noDebug
      | some arguments =>
          exact congrArg Desk.noDebug (desk_operate_of_start? (s := { s with asides }) hstart)

/-- A session that has been started without debugging. No step takes this back, since a later start
is turned down (`Watching.run`). -/
structure Watching (s : Session) : Prop where
  started : s.bridge.started = true
  noDebug : s.bridge.noDebug = true

theorem Watching.step {s : Session} (h : Watching s) (x : Step) : Watching (s.step x).2 where
  started := by rw [started_step, h.started, Bool.true_or]
  noDebug := by rw [noDebug_step, if_pos h.started, h.noDebug]

theorem Watching.run (steps : List Step) :
    ∀ {s : Session}, Watching s → Watching (s.run steps) := by
  induction steps with
  | nil => exact fun h => h
  | cons x rest ih => exact fun h => ih (h.step x)

theorem watching_of_start {s : Session} (hfresh : s.bridge.started = false) {x : Step}
    {address : String} {stopOnEntry : Bool}
    (hstart : x.start? s.bridge.config = some (address, stopOnEntry, true)) :
    Watching (s.step x).2 where
  started := by rw [started_step, hstart, Option.isSome_some, Bool.or_true]
  noDebug := by rw [noDebug_step, hfresh, hstart, if_neg nofun, Option.elim_some]

theorem started_run_of_no_start (steps : List Step) :
    ∀ s : Session, (∀ x ∈ steps, x.start? s.bridge.config = none) →
      (s.run steps).bridge.started = s.bridge.started := by
  induction steps with
  | nil => exact fun s _ => rfl
  | cons x rest ih =>
      intro s hnone
      have hconfig : (s.step x).2.bridge.config = s.bridge.config := config_run s [x]
      have hx := hnone x List.mem_cons_self
      rw [run_cons, ih, started_step, hx, Option.isSome_none, Bool.or_false]
      rw [hconfig]
      exact fun y hy => hnone y (List.mem_cons_of_mem x hy)

/-! ### Commands

Of the requests of a run those are commands that move or halt execution. A start asks for a pause
only if it debugs, so without debugging what is left are the commands that the client gives while
there is a connection.
-/

/-- The command that a step gives while there is a connection. -/
def command? (s : Session) : Step → Option Control
  | .operation (.execute control) _ => if s.bridge.isConnected then some control else none
  | _ => none

/-- The commands that these steps give while there is a connection, in order. -/
def commanded (s : Session) : List Step → List Control
  | [] => []
  | x :: rest => (s.command? x).toList ++ (s.step x).2.commanded rest

theorem commanded_eq_nil_iff (steps : List Step) :
    ∀ s : Session, s.commanded steps = [] ↔
      ∀ before x after, steps = before ++ x :: after → (s.run before).command? x = none := by
  induction steps with
  | nil => simp [commanded]
  | cons x rest ih =>
      intro s
      rw [commanded, List.append_eq_nil_iff, ih]
      constructor
      · rintro ⟨hx, hrest⟩ before y after heq
        cases before with
        | nil =>
            obtain ⟨rfl, -⟩ := List.cons.inj heq
            simpa using hx
        | cons z before =>
            obtain ⟨rfl, hrest'⟩ := List.cons.inj heq
            exact hrest before y after hrest'
      · intro hall
        have hx : s.command? x = none := hall [] x rest rfl
        refine ⟨by rw [hx, Option.toList_none], fun before y after heq => ?_⟩
        exact hall (x :: before) y after (by rw [heq, List.cons_append])

/-- A start without debugging gives no command. -/
theorem controls_startAsks (s : Session) (address : String) (stopOnEntry : Bool) :
    (s.startAsks address stopOnEntry true).filterMap Request.control? = [] := by
  unfold startAsks
  cases s.opened? address true <;> simp [Request.control?]

theorem startAsks_of_started {s : Session} (h : s.bridge.started = true) (address : String)
    (stopOnEntry noDebug : Bool) : s.startAsks address stopOnEntry noDebug = [] := by
  simp [startAsks, opened?, h]

theorem controls_asks {s : Session} {x : Step}
    (hmode : ∀ arguments, s.bridge.started = false → x.start? s.bridge.config = some arguments →
      arguments.2.2 = true) :
    (s.asks x).filterMap Request.control? = (s.command? x).toList := by
  -- A start alone could ask for a pause by itself. One that comes later does not get that far.
  have hstart : ∀ (asides : List (List Happening)) address stopOnEntry noDebug,
      x.start? s.bridge.config = some (address, stopOnEntry, noDebug) →
      (({ s with asides } : Session).startAsks address stopOnEntry noDebug).filterMap
        Request.control? = [] := by
    intro asides address stopOnEntry noDebug hx
    cases hs : s.bridge.started with
    | true => rw [startAsks_of_started (s := { s with asides }) hs, List.filterMap_nil]
    | false =>
        obtain rfl : noDebug = true := hmode _ hs hx
        exact controls_startAsks _ _ _
  have hquery : ∀ query? : Option String,
      (query?.toList.map Request.get).filterMap Request.control? = [] := by
    rintro (_ | query) <;> rfl
  cases x with
  | happening | edit => exact hquery _
  | operation operation asides =>
      cases operation with
      | start address stopOnEntry noDebug => exact hstart asides address stopOnEntry noDebug rfl
      | startConfigured => exact hstart asides _ _ _ rfl
      | execute control =>
          simp only [asks, command?]
          split <;> rfl
      | _ => exact hquery _

/-- Where the first start is without debugging, the client alone gives commands. -/
theorem controls_asksIn (steps : List Step) :
    ∀ s : Session, (∀ arguments, s.bridge.started = false →
        steps.findSome? (Step.start? s.bridge.config) = some arguments → arguments.2.2 = true) →
      (s.asksIn steps).filterMap Request.control? = s.commanded steps := by
  induction steps with
  | nil => exact fun s _ => rfl
  | cons x rest ih =>
      intro s hmode
      have hconfig : (s.step x).2.bridge.config = s.bridge.config := config_run s [x]
      rw [asksIn, commanded, List.filterMap_append, controls_asks, ih]
      · intro arguments hfresh hfirst
        rw [started_step, Bool.or_eq_false_iff, Option.isSome_eq_false_iff] at hfresh
        rw [hconfig] at hfirst
        refine hmode arguments hfresh.1 ?_
        rw [List.findSome?_cons, Option.isNone_iff_eq_none.1 hfresh.2]
        exact hfirst
      · intro arguments hfresh hx
        exact hmode arguments hfresh (by rw [List.findSome?_cons, hx])

/-- **Without debugging, the commands a debuggee receives are those its client gives** while there
is a connection. So it receives none exactly if the client gives none.

The only command that a client does not give is the pause of a start, and a start without debugging
asks for none. As it is the first start that counts, later ones ask for nothing in any case. -/
theorem only_clients_control_without_debugging (config : Config) (debuggee : Debuggee)
    (files : Files) (steps : List Step) {address : String} {stopOnEntry : Bool}
    (hfirst : steps.findSome? (Step.start? config) = some (address, stopOnEntry, true)) :
    let s₀ := new config debuggee files
    let controls := (requestsOf (s₀.run steps).log).filterMap Request.control?
    controls = s₀.commanded steps ∧
      (controls = [] ↔ ∀ before x after, steps = before ++ x :: after →
        (s₀.run before).command? x = none) := by
  intro s₀ controls
  have hcontrols : controls = s₀.commanded steps := by
    have hrun := requestsOf_run steps s₀ (accounted_new config debuggee files)
    show (requestsOf (s₀.run steps).log).filterMap Request.control? = _
    rw [hrun, List.filterMap_append]
    refine (List.nil_append _).trans (controls_asksIn steps s₀ fun arguments _ hsome => ?_)
    obtain rfl := Option.some.inj (hfirst.symm.trans hsome)
    rfl
  exact ⟨hcontrols, hcontrols ▸ commanded_eq_nil_iff steps s₀⟩

/-- A client that would have liked a stop on entry, and gives a command when it has left. -/
theorem no_control_of_a_quiet_client :
    let steps : List Step := [.operation (.start "localhost:8000" true true),
      .operation .disconnect, .operation (.execute .pause)]
    let s₀ := new .initial ⟨"localhost", 8000, false, .accepted, [], false⟩ (.named [])
    steps.findSome? (Step.start? .initial) = some ("localhost:8000", true, true) ∧
      requestsOf (s₀.run steps).log = [.put .sendStatus] ∧
      (requestsOf (s₀.run steps).log).filterMap Request.control? = [] := by
  intro steps s₀
  have hfirst : steps.findSome? (Step.start? .initial) = some ("localhost:8000", true, true) := by
    decide
  refine ⟨hfirst, by decide +kernel, ?_⟩
  refine (only_clients_control_without_debugging .initial _ _ steps hfirst).1.trans ?_
  decide +kernel

/-- The command is sent although there was to be no debugging. -/
theorem control_without_debugging :
    let steps : List Step := [.operation (.start "localhost:8000" false true),
      .operation (.execute .resume)]
    let s₀ := new .initial ⟨"localhost", 8000, false, .accepted, [], false⟩ (.named [])
    steps.findSome? (Step.start? .initial) = some ("localhost:8000", false, true) ∧
      requestsOf (s₀.run steps).log = [.put .sendStatus, .put (.control .resume)] := by
  decide +kernel

/-! ### Breakpoints

A verification without debugging does nothing, so neither does it read a source nor announce
anything. Breakpoints that were verified before the start stay verified. Which breakpoints there are
is the same in every mode, because a registry that forgets what is verified goes by the steps alone.
-/

/-- A step does not verify any breakpoint, and reads no source where it sets some. -/
structure VerifiesNothing (s : Session) (x : Step) : Prop where
  /-- No breakpoint is announced as verified. -/
  silent : verifiedIn ((s.step x).2.effectsSince s.log) = []
  /-- What is verified afterwards was there before, and verified. -/
  kept : ∀ path, ∀ b ∈ (s.step x).2.bridge.registry.list path, b.verified = true →
    b ∈ s.bridge.registry.list path
  unread : x.setsBreakpoints = true → (s.step x).2.effectsSince s.log = []

/-- Without debugging, a breakpoint is added and that is all. -/
theorem setBreakpoint_of_noDebug {s : Session} (h : s.bridge.noDebug = true) (path : String)
    (line : UInt32) : (s.setBreakpoint path line).2 =
      { s with bridge := { s.bridge with registry := (s.bridge.registry.add path line).2 } } := by
  show verify _ path = _
  rw [verify, if_pos h]
  rfl

theorem log_addBreakpoints_of_noDebug (path : String) (lines : List UInt32) :
    ∀ s : Session, s.bridge.noDebug = true → (s.addBreakpoints path lines).2.log = s.log := by
  induction lines with
  | nil => exact fun s _ => rfl
  | cons line rest ih =>
      intro s h
      show ((s.setBreakpoint path line).2.addBreakpoints path rest).2.log = s.log
      rw [setBreakpoint_of_noDebug h]
      exact ih _ h

theorem effectsSince_of_log_eq {s t : Session} (h : t.log = s.log) : t.effectsSince s.log = [] := by
  rw [effectsSince, h, List.drop_length]

theorem effectsSince_setting_of_noDebug {s : Session} (h : s.bridge.noDebug = true) {x : Step}
    (hx : x.setsBreakpoints = true) : (s.step x).2.effectsSince s.log = [] := by
  refine effectsSince_of_log_eq ?_
  cases x with
  | happening | edit => simp [Step.setsBreakpoints] at hx
  | operation operation asides =>
      cases operation with
      | setBreakpoint path line =>
          show ({ s with asides }.setBreakpoint path line).2.log = s.log
          rw [setBreakpoint_of_noDebug (s := { s with asides }) h]
      | setBreakpoints path lines => exact log_addBreakpoints_of_noDebug path lines _ h
      | _ => simp [Step.setsBreakpoints] at hx

theorem verifiesNothing_of_untouched {s : Session} {x : Step}
    (h : s.desk.Untouched (s.step x).2.desk)
    (hread : x.setsBreakpoints = true → (s.step x).2.effectsSince s.log = []) :
    VerifiesNothing s x where
  silent := by
    have htold : verifiedIn (s.step x).2.log = verifiedIn s.log ++ [] := by
      rw [List.append_nil]
      exact h.told
    rw [log_step, verifiedIn_append] at htold
    exact List.append_cancel_left htold
  kept := fun path b hb hverified => by
    obtain ⟨hmem, hpath⟩ := Registry.mem_list.1 hb
    exact Registry.mem_list.2 ⟨h.kept b hmem hverified, hpath⟩
  unread := hread

theorem untouched_perform {s : Session} (h : s.bridge.noDebug = true) (d : Deed) :
    s.desk.Untouched (s.perform d).desk := by
  cases d with
  | put path line =>
      obtain ⟨-, hdesk⟩ | ⟨hdebug, -⟩ | ⟨hdebug, -⟩ := s.setBreakpoint_cases path line
      · rw [show (s.perform (.put path line)).desk = _ from hdesk]
        refine ⟨rfl, fun b hb hverified => ?_⟩
        rcases List.mem_append.1 hb with hold | hnew
        · exact hold
        · rw [List.mem_singleton.1 hnew] at hverified
          exact absurd hverified Bool.false_ne_true
      · simp [h] at hdebug
      · simp [h] at hdebug
  | take path line => exact ⟨rfl, fun b hb _ => List.mem_of_mem_eraseP hb⟩
  | sweep path => exact ⟨rfl, fun b hb _ => List.mem_of_mem_filter hb⟩
  | look path =>
      rw [show (s.perform (.look path)).desk = _ from s.desk_load path]
      exact ⟨rfl, fun b hb _ => hb⟩

theorem Done.untouched {s t : Session} {deeds : List Deed} (hdone : Done s deeds t)
    (h : s.bridge.noDebug = true) : s.desk.Untouched t.desk := by
  refine (hdone.preserves
    (P := fun _ t => t.bridge.noDebug = true ∧ s.desk.Untouched t.desk) ?_ ?_ ?_).2
  · intro deeds t u hdesk ht
    exact ⟨(congrArg Desk.noDebug hdesk).trans ht.1, hdesk ▸ ht.2⟩
  · intro deeds t d ht
    exact ⟨(noDebug_perform t d).trans ht.1, ht.2.trans (untouched_perform ht.1 d)⟩
  · exact ⟨h, rfl, fun b hb _ => hb⟩

theorem untouched_of_start {s : Session} {x : Step}
    (hstart : (x.start? s.bridge.config).isSome) : s.desk.Untouched (s.step x).2.desk := by
  cases x with
  | happening | edit => simp [Step.start?] at hstart
  | operation operation asides =>
      obtain ⟨_, hstart⟩ := Option.isSome_iff_exists.1 hstart
      show s.desk.Untouched ({ s with asides }.operate operation).2.desk
      rw [desk_operate_of_start? (s := { s with asides }) hstart]
      exact ⟨rfl, fun b hb _ => hb⟩

theorem verifiesNothing_of_noDebug {s : Session} (h : s.bridge.noDebug = true) (x : Step) :
    VerifiesNothing s x := by
  refine verifiesNothing_of_untouched ?_ (effectsSince_setting_of_noDebug h)
  obtain hdone | ⟨-, noDebug, hdesk⟩ := s.done_step x
  · exact hdone.untouched h
  · rw [hdesk]
    exact ⟨rfl, fun b hb _ => hb⟩

theorem setsBreakpoints_of_start? {config : Config} {x : Step}
    (hstart : (x.start? config).isSome) : x.setsBreakpoints = false := by
  cases x with
  | happening | edit => rfl
  | operation operation =>
      cases operation <;> simp_all [Step.start?, Operation.start?, Step.setsBreakpoints]

/-- A start verifies nothing, whatever its mode. -/
theorem verifiesNothing_of_start {s : Session} {x : Step}
    (hstart : (x.start? s.bridge.config).isSome) : VerifiesNothing s x := by
  refine verifiesNothing_of_untouched (untouched_of_start hstart) fun hsets => ?_
  rw [setsBreakpoints_of_start? hstart] at hsets
  exact absurd hsets Bool.false_ne_true

/-- The breakpoints that an entry shows, as they were when they were added. -/
def Entry.shown (e : Entry) : List Breakpoint := e.answer.shown.map Breakpoint.atFirst

/-- The mode apart, the same steps make the same of the breakpoints. -/
theorem same_breakpoints_in_any_mode {s t : Session} {steps others : List Step}
    (hregistry : t.bridge.registry = s.bridge.registry)
    (hsteps : others.map (Step.inMode true) = steps.map (Step.inMode true)) :
    (t.entries others).map Entry.shown = (s.entries steps).map Entry.shown ∧
      (t.run others).bridge.registry.atFirst = (s.run steps).bridge.registry.atFirst := by
  constructor
  · show (t.entries others).map (fun e => e.answer.shown.map Breakpoint.atFirst) =
      (s.entries steps).map (fun e => e.answer.shown.map Breakpoint.atFirst)
    rw [shown_entries, shown_entries, hregistry, ← Registry.shownIn_inMode true others, hsteps,
      Registry.shownIn_inMode]
  · rw [atFirst_run, atFirst_run, hregistry, ← Registry.run_inMode true others, hsteps,
      Registry.run_inMode]

/-- **A session whose first start is without debugging verifies nothing from then on,** whether that
start connects or fails and whatever follows. Which breakpoints it adds, lists and removes, with
which numbers, does not depend on the mode of any start: verification apart, it is the same in every
run of these steps.

Once set, the mode stays, since nothing but a first start sets it (`noDebug_step`). For the second
part the runs are compared by what they show of breakpoints when verification is left out
(`same_breakpoints_in_any_mode`), which is the same whatever the modes. -/
theorem no_debug_is_permanent (config : Config) (debuggee : Debuggee) (files : Files)
    {before after : List Step} {x : Step} {address : String} {stopOnEntry : Bool}
    (hbefore : ∀ y ∈ before, y.start? config = none)
    (hx : x.start? config = some (address, stopOnEntry, true)) :
    let s₀ := new config debuggee files
    let steps := before ++ x :: after
    (∀ first y rest, x :: after = first ++ y :: rest →
      (s₀.run (before ++ first)).VerifiesNothing y) ∧
      ∀ noDebug others, others.map (Step.inMode true) = steps.map (Step.inMode true) →
        let t₀ := new { config with noDebug } debuggee files
        (t₀.entries others).map Entry.shown = (s₀.entries steps).map Entry.shown ∧
          ∀ path, ((t₀.run others).bridge.registry.list path).map Breakpoint.atFirst =
            ((s₀.run steps).bridge.registry.list path).map Breakpoint.atFirst := by
  intro s₀ steps
  have hconfig : (s₀.run before).bridge.config = config := config_run s₀ before
  have hfresh : (s₀.run before).bridge.started = false := started_run_of_no_start before s₀ hbefore
  refine ⟨fun first y rest hsplit => ?_, fun noDebug others hothers => ?_⟩
  · cases first with
    | nil =>
        -- This is the start itself, and until now the mode may have been the other one.
        obtain ⟨rfl, -⟩ := List.cons.inj hsplit
        rw [List.append_nil]
        refine verifiesNothing_of_start ?_
        rw [hconfig, hx]
        rfl
    | cons z first =>
        obtain ⟨rfl, -⟩ := List.cons.inj hsplit
        have hwatching : Watching ((s₀.run before).step x).2 :=
          watching_of_start hfresh (hconfig.symm ▸ hx)
        rw [run_append, run_cons]
        exact verifiesNothing_of_noDebug (hwatching.run first).noDebug y
  · obtain ⟨hshown, hregistry⟩ := same_breakpoints_in_any_mode
      (t := new { config with noDebug } debuggee files) (s := s₀) rfl hothers
    refine ⟨hshown, fun path => ?_⟩
    rw [Registry.map_atFirst_list, Registry.map_atFirst_list, hregistry]

/-- A breakpoint that was verified while there was still debugging, and others after that. -/
theorem nothing_verified_after_failed_start :
    let before : List Step := [.operation (.setBreakpoint "main.nut" 0)]
    let x : Step := .operation (.start "no-port-here" false true)
    let first : List Step := [x, .operation (.start "no-port-here" false false)]
    let y : Step := .operation (.setBreakpoints "main.nut" [0, 0])
    let s₀ := new .initial ⟨"localhost", 8000, false, .refused, [], false⟩
      (.named [("main.nut", .text "local a = 1")])
    (∀ z ∈ before, z.start? .initial = none) ∧
      x.start? .initial = some ("no-port-here", false, true) ∧
      (s₀.run (before ++ first)).VerifiesNothing y ∧
      (s₀.run (before ++ first)).bridge.registry.list "main.nut" = [⟨1, "main.nut", 0, true⟩] ∧
      ((s₀.run (before ++ first)).step y).2.bridge.registry.list "main.nut" =
        [⟨2, "main.nut", 0, false⟩, ⟨3, "main.nut", 0, false⟩] := by
  intro before x first y s₀
  have hbefore : ∀ z ∈ before, z.start? .initial = none := by decide
  have hx : x.start? .initial = some ("no-port-here", false, true) := by decide
  refine ⟨hbefore, hx, ?_, by decide +kernel, by decide +kernel⟩
  have hpermanent := @no_debug_is_permanent .initial ⟨"localhost", 8000, false, .refused, [], false⟩
    (.named [("main.nut", .text "local a = 1")]) before
    [.operation (.start "no-port-here" false false), y] x _ _ hbefore hx
  exact hpermanent.1 first y [] rfl

/-- A start that asks for no debugging after another one was attempted does not count. -/
theorem later_start_does_not_change_the_mode :
    let steps : List Step := [.operation (.start "no-port-here" false false),
      .operation (.start "no-port-here" false true)]
    let s := (new .initial ⟨"localhost", 8000, false, .refused, [], false⟩
      (.named [("main.nut", .text "local a = 1")])).run steps
    (s.step (.operation (.setBreakpoint "main.nut" 0))).2.effectsSince s.log =
      [.read "main.nut", .emitted (.breakpointVerified ⟨1, "main.nut", 0, true⟩)] := by
  decide +kernel

end Session

end DebugBridge
