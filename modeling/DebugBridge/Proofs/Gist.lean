/-
What a run comes to when nothing is left of the push channel but what matters.

A frame that carries no status and a ping leave no trace but for their entry in the log, and a
binary frame counts as its text. `gist` drops the ones and rewrites the others wherever they occur:
among the steps, during the waits of an operation, in the script of the debuggee and in the log.
Whatever is done does the same to the gist of a session, so that a run and its gist answer alike.

The waits themselves stay, also those in which nothing is left to happen, because an operation takes
its asides off wait by wait and would otherwise take those of a later one. A step goes if nothing is
left of it, so the entries of the shorter run are those of the steps that stay (`gistOfEntries`).
-/
import DebugBridge.Proofs.Following
import DebugBridge.Proofs.Telling

namespace DebugBridge

/-- Whether a frame carries a status. -/
def bringsStatus (frame : String) : Bool := (Status.ofFrame frame).toOption.isSome

/-- What a happening comes to: nothing, if it neither ends the connection nor brings a status. -/
def Happening.gist? : Happening → Option Happening
  | .close => some .close
  | .drop => some .drop
  | happening => (happening.text?.filter bringsStatus).map .push

/-- Whether anything comes of an effect that is not in the log. -/
def Effect.matters : Effect → Bool
  | heard frame => bringsStatus frame
  | _ => true

def Reply.gist (r : Reply) : Reply := { r with pushes := r.pushes.filter bringsStatus }

def Debuggee.gist (d : Debuggee) : Debuggee :=
  { d with script := d.script.map (Prod.map id (List.map Reply.gist)) }

/-- What the asides of an operation come to; none of its waits is dropped. -/
def gistOf (asides : List (List Happening)) : List (List Happening) :=
  asides.map (List.filterMap Happening.gist?)

def Step.gist? : Step → Option Step
  | .operation o asides => some (.operation o (gistOf asides))
  | .happening h => h.gist?.map .happening
  | .edit path contents => some (.edit path contents)

namespace Session

/-- The session with nothing left in it of what does not matter: not in the log, not in what the
debuggee means to push, and not in what it is about to do. The bridge stays as it is, which is the
point. -/
def gist (s : Session) : Session :=
  { s with
    debuggee := s.debuggee.gist
    asides := gistOf s.asides
    log := s.log.filter Effect.matters }

def Entry.gist (e : Entry) : Entry := { e with effects := e.effects.filter Effect.matters }

end Session

/-! ### The debuggee

A debuggee answers by what its script has under the name of the request, and moves on in it.
Rewriting every reply of the script therefore rewrites each answer and leaves the order in which
they come, whatever the rewriting is, as long as it keeps the replies that stand in no script.
-/

/-- A key is looked up among changed values as it was among the values themselves. -/
theorem lookup_map_snd {α β γ : Type} [BEq α] (f : β → γ) (entries : List (α × β)) (key : α) :
    (entries.map (Prod.map id f)).lookup key = (entries.lookup key).map f := by
  induction entries with
  | nil => rfl
  | cons entry rest ih =>
      rw [List.map_cons, Prod.map_apply, id, List.lookup_cons, List.lookup_cons, ih]
      cases key == entry.1 <;> rfl

namespace Debuggee

/-- The debuggee with every reply of its script rewritten. -/
def mapReplies (f : Reply → Reply) (d : Debuggee) : Debuggee :=
  { d with script := d.script.map (Prod.map id (List.map f)) }

/-- Whoever rewrites the script rewrites the answers, and they come in the same order. -/
theorem answer_mapReplies {f : Reply → Reply} {request : Request}
    (hf : f (unscripted request) = unscripted request) (d : Debuggee) :
    (d.mapReplies f).answer request = (d.answer request).map f (mapReplies f) := by
  have hlookup : (d.mapReplies f).script.lookup request.name =
      (d.script.lookup request.name).map (List.map f) := lookup_map_snd _ _ _
  unfold answer
  rw [hlookup]
  match d.script.lookup request.name with
  | none => exact congrArg (·, d.mapReplies f) hf.symm
  | some [] => exact congrArg (·, d.mapReplies f) hf.symm
  | some [last] => rfl
  | some (first :: second :: rest) =>
      simp only [Option.map_some, List.map_cons, mapReplies, List.map_map, Prod.map_apply]
      refine Prod.ext rfl ?_
      refine congrArg (fun script => { d with script }) (List.map_congr_left fun entry _ => ?_)
      by_cases hname : entry.1 = request.name <;> simp [hname, Prod.map]

theorem gist_accept (d : Debuggee) (e : Endpoint) : d.gist.accept e = (d.accept e).map gist := by
  unfold accept
  have hlistens : d.gist.listensAt e = d.listensAt e := rfl
  have hhandshake : d.gist.handshake = d.handshake := rfl
  rw [hlistens, hhandshake]
  dsimp only
  cases d.listensAt e with
  | false => rfl
  | true => cases d.handshake <;> rfl

theorem gist_answer (d : Debuggee) (request : Request) :
    d.gist.answer request = (d.answer request).map Reply.gist gist := by
  have hunscripted : (unscripted request).gist = unscripted request := by cases request <;> rfl
  exact answer_mapReplies hunscripted d

end Debuggee

namespace Session

/-! ### The log and the push channel

A frame either brings a status, and then the session and its gist both take it, or it does not, and
then it leaves the one with an entry that the other does not have. A happening is one or the other,
so a list of happenings does to the gist what is left of the list does.
-/

theorem gist_note {e : Effect} (h : e.matters = true) (s : Session) :
    (s.note e).gist = s.gist.note e := by
  simp [gist, note, h]

theorem gist_note_heard {frame : String} (h : bringsStatus frame = false) (s : Session) :
    (s.note (.heard frame)).gist = s.gist := by
  simp [gist, note, Effect.matters, h]

theorem gist_applyStatus (s : Session) (status : Status) :
    (s.applyStatus status).gist = s.gist.applyStatus status :=
  gist_note rfl _

theorem gist_finish (s : Session) : s.finish.gist = s.gist.finish :=
  (finish_follows (f := gist) (fun _ => rfl) (fun _ => gist_note rfl _) s).symm

theorem gist_lose (s : Session) : s.lose.gist = s.gist.lose := gist_finish _

theorem gist_receive {frame : String} (h : bringsStatus frame = true) (s : Session) :
    (s.receive frame).gist = s.gist.receive frame := by
  unfold receive
  have hnote := gist_note (e := .heard frame) h s
  cases Status.ofFrame frame with
  | ok status => exact (gist_applyStatus _ status).trans (congrArg (·.applyStatus status) hnote)
  | error failure => exact hnote

theorem gist_receive_of_noise {frame : String} (h : bringsStatus frame = false) (s : Session) :
    (s.receive frame).gist = s.gist := by
  unfold receive
  have hnote := gist_note_heard h s
  cases hframe : Status.ofFrame frame with
  | ok status => simp [bringsStatus, hframe, Except.toOption] at h
  | error failure => exact hnote

theorem gist_undergo (s : Session) (happening : Happening) :
    (s.undergo happening).gist = happening.gist?.elim s.gist s.gist.undergo := by
  have htext : ∀ text? : Option String, (text?.elim s s.receive).gist =
      ((text?.filter bringsStatus).map .push).elim s.gist s.gist.undergo := by
    intro text?
    cases text? with
    | none => rfl
    | some frame =>
        cases hframe : bringsStatus frame with
        | true =>
            rw [Option.filter_some, if_pos hframe]
            exact gist_receive hframe s
        | false =>
            rw [Option.filter_some, if_neg (by simp [hframe])]
            exact gist_receive_of_noise hframe s
  cases happening with
  | close | drop => exact gist_lose s
  | push | pushBinary | ping => exact htext _

theorem gist_deliver (s : Session) (happening : Happening) :
    (s.deliver happening).gist = happening.gist?.elim s.gist s.gist.deliver := by
  have hconnected : s.gist.debuggee.connected = s.debuggee.connected := rfl
  unfold deliver
  rw [hconnected]
  split
  · exact gist_undergo s happening
  · cases happening.gist? <;> rfl

theorem gist_deliverAll (happenings : List Happening) :
    ∀ s : Session, (happenings.foldl deliver s).gist =
      (happenings.filterMap Happening.gist?).foldl deliver s.gist := by
  induction happenings with
  | nil => exact fun _ => rfl
  | cons happening rest ih =>
      intro s
      rw [List.foldl_cons, ih, gist_deliver, List.filterMap_cons]
      cases happening.gist? <;> rfl

theorem gist_wait (s : Session) : s.wait.gist = s.gist.wait := by
  unfold wait
  cases hasides : s.asides with
  | nil => simp [gist, gistOf, hasides]
  | cons now later =>
      have hgist : s.gist.asides = now.filterMap Happening.gist? :: gistOf later := by
        simp [gist, gistOf, hasides]
      rw [hgist]
      exact gist_deliverAll now _

/-! ### The command channel -/

theorem filterMap_gist_push (frames : List String) :
    (frames.map Happening.push).filterMap Happening.gist? =
      (frames.filter bringsStatus).map Happening.push := by
  induction frames with
  | nil => rfl
  | cons frame rest ih =>
      have hframe : (Happening.push frame).gist? =
          if bringsStatus frame then some (.push frame) else none := by
        simp only [Happening.gist?, Happening.text?, Option.filter_some]
        split <;> rfl
      rw [List.map_cons, List.filterMap_cons, hframe, List.filter_cons, ih]
      cases bringsStatus frame <;> rfl

theorem gist_call (s : Session) (request : Request) :
    s.gist.call request = (s.call request).map id gist := by
  have hanswer : s.gist.debuggee.answer request =
      (s.debuggee.answer request).map Reply.gist Debuggee.gist := s.debuggee.gist_answer request
  have hasked : { s.gist with debuggee := (s.debuggee.answer request).2.gist }.note
      (.requested request) =
      ({ s with debuggee := (s.debuggee.answer request).2 }.note (.requested request)).gist :=
    (gist_note rfl { s with debuggee := (s.debuggee.answer request).2 }).symm
  unfold call
  rw [hanswer]
  simp only [Prod.map_fst, Prod.map_snd, hasked, ← gist_wait]
  -- What was pushed before the reply is dropped from the script and from the deliveries alike.
  have hpushes : (s.debuggee.answer request).1.gist.pushes.map Happening.push =
      ((s.debuggee.answer request).1.pushes.map Happening.push).filterMap Happening.gist? :=
    (filterMap_gist_push _).symm
  rw [hpushes, ← gist_deliverAll]
  exact congrArg (Prod.mk _) (gist_note rfl _).symm

/-! ### Every step

With the parts settled, that operations go along with the gist is an instance of each of the two
structures of `Proofs/Following.lean`.
-/

theorem gist_connect (s : Session) (address : String) :
    s.gist.connect address = (s.connect address).map (Prod.map id gist) := by
  unfold connect
  cases Endpoint.parse address with
  | error cause => rfl
  | ok endpoint =>
      have haccept : s.gist.debuggee.accept endpoint =
          (s.debuggee.accept endpoint).map Debuggee.gist := s.debuggee.gist_accept endpoint
      dsimp only
      rw [haccept]
      cases s.debuggee.accept endpoint <;> rfl

theorem followsSession_gist : FollowsSession gist where
  course _ := rfl
  handles _ := rfl
  wait s := (gist_wait s).symm
  call := gist_call
  connect := gist_connect
  applyStatus s status := (gist_applyStatus s status).symm
  finish s := (gist_finish s).symm
  hangUp _ := rfl
  arm s := (gist_note rfl { s with bridge.entryPending := true }).symm
  announce s _ := (gist_note rfl s).symm
  attempt _ _ := rfl
  register _ _ := rfl

theorem followsDesk_gist : FollowsDesk gist where
  registry _ := rfl
  sources _ := rfl
  noDebug _ := rfl
  files _ := rfl
  setRegistry _ _ := rfl
  setSources _ _ := rfl
  read s _ := (gist_note rfl s).symm
  verified s _ := (gist_note rfl s).symm

theorem gist_operate (s : Session) (operation : Operation) :
    s.gist.operate operation = (s.operate operation).map id gist := by
  cases h : operation.onBreakpoints with
  | true => exact followsDesk_gist.operate s h
  | false => exact followsSession_gist.operate s h

/-- The gist of a step does to the gist of a session what the step does to the session. -/
theorem step_of_gist? {x y : Step} (h : x.gist? = some y) (s : Session) :
    s.gist.step y = (s.step x).map id gist := by
  cases x with
  | edit path contents =>
      cases h
      rfl
  | happening happening =>
      cases hgist : happening.gist? with
      | none => simp [Step.gist?, hgist] at h
      | some left =>
          obtain rfl : Step.happening left = y := by simpa [Step.gist?, hgist] using h
          have hdeliver := gist_deliver s happening
          rw [hgist] at hdeliver
          exact congrArg (Prod.mk _) hdeliver.symm
  | operation operation asides =>
      cases h
      exact congrArg (fun p : Answer × Session => (p.1, { p.2 with asides := [] }))
        (gist_operate { s with asides } operation)

/-- A step of which nothing is left changes nothing that matters. -/
theorem gist_step_of_noise {x : Step} (h : x.gist? = none) (s : Session) :
    (s.step x).2.gist = s.gist := by
  cases x with
  | operation | edit => simp [Step.gist?] at h
  | happening happening =>
      have hgist : happening.gist? = none := by simpa [Step.gist?] using h
      exact (gist_deliver s happening).trans (by rw [hgist]; rfl)

/-! ### Every run

The induction is over the steps. Where nothing is left of a step, the session changes in a way that
its gist does not show, and the rest of the run goes on from there.
-/

theorem gist_run (steps : List Step) :
    ∀ s : Session, (s.run steps).gist = s.gist.run (steps.filterMap Step.gist?) := by
  induction steps with
  | nil => exact fun _ => rfl
  | cons x rest ih =>
      intro s
      rw [run_cons, ih, List.filterMap_cons]
      cases h : x.gist? with
      | none => rw [gist_step_of_noise h s]
      | some y => rw [run_cons, step_of_gist? h s]; rfl

theorem gist_effectsSince (s : Session) (x : Step) :
    (s.step x).2.gist.effectsSince s.gist.log =
      ((s.step x).2.effectsSince s.log).filter Effect.matters := by
  have hgist : (s.step x).2.gist.log =
      s.gist.log ++ ((s.step x).2.effectsSince s.log).filter Effect.matters := by
    show (s.step x).2.log.filter Effect.matters = _
    rw [log_step, List.filter_append]
    rfl
  rw [effectsSince, hgist, List.drop_left]

/-- The entries of the steps of which something is left. -/
def gistOfEntries (steps : List Step) (entries : List Entry) : List Entry :=
  ((steps.zip entries).filter fun p => p.1.gist?.isSome).map fun p => p.2.gist

theorem entries_gist (steps : List Step) :
    ∀ s : Session, s.gist.entries (steps.filterMap Step.gist?) =
      gistOfEntries steps (s.entries steps) := by
  induction steps with
  | nil => exact fun _ => rfl
  | cons x rest ih =>
      intro s
      rw [List.filterMap_cons]
      cases h : x.gist? with
      | none =>
          rw [← gist_step_of_noise h s, ih]
          simp [gistOfEntries, entries, h]
      | some y =>
          have heffects := gist_effectsSince s x
          simp only [entries, step_of_gist? h s, Prod.map_fst, Prod.map_snd, ih, heffects]
          simp only [gistOfEntries, List.zip_cons_cons, List.filter_cons, h, Option.isSome_some,
            if_true, List.map_cons]
          rfl

end Session

end DebugBridge
