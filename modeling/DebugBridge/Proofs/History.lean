/-
What a bridge holds and tells is a matter of the statuses that came in.

Between the statuses and the client there are two routes and any number of calls that are under way,
but it comes down to this: each status is told once and the last one is held (`Telling`), and
whatever brings no status could as well not have happened (`gist_run`, `entries_gist`).

The statuses of a run are read off its log. What ties them to the debuggee is `statusesOf_deliver`:
a text that comes in on an open connection is entered there, and what a delivery adds to the
statuses is the one that is in its text.
-/
import DebugBridge.Proofs.Gist

namespace DebugBridge

/-- A binary frame made from a text brings that text. -/
theorem text?_pushBinary (text : String) :
    (Happening.pushBinary text.toUTF8.data.toList).text? = some text := by
  have hbytes : (⟨text.toUTF8.data.toList.toArray⟩ : ByteArray) = text.toUTF8 := rfl
  show String.fromUTF8? ⟨text.toUTF8.data.toList.toArray⟩ = some text
  rw [hbytes]
  exact dif_pos text.isValidUTF8

/-- The last of the events tells the last of the statuses. -/
theorem tells_getLast? {events : List Event} {statuses : List Status}
    (h : List.Forall₂ Tells events statuses) {event : Event}
    (hlast : events.getLast? = some event) :
    ∃ status, statuses.getLast? = some status ∧ Tells event status := by
  have hreverse := List.forall₂_reverse_iff.2 h
  rw [List.getLast?_eq_head?_reverse] at hlast ⊢
  generalize events.reverse = told at hreverse hlast
  generalize statuses.reverse = brought at hreverse ⊢
  cases hreverse with
  | nil => simp at hlast
  | cons htells _ =>
      obtain rfl := Option.some.inj hlast
      exact ⟨_, rfl, htells⟩

namespace Session

theorem deliver_pushBinary (s : Session) (text : String) :
    s.deliver (.pushBinary text.toUTF8.data.toList) = s.deliver (.push text) := by
  have hundergo : s.undergo (.pushBinary text.toUTF8.data.toList) = s.undergo (.push text) :=
    congrArg (fun text? : Option String => text?.elim s s.receive) (text?_pushBinary text)
  rw [deliver, deliver, hundergo]

/-- The event that tells a state last agrees with the state that is held. -/
theorem Telling.last {s : Session} (h : Telling s) {event : Event}
    (hlast : ((newsOf s.log).filter Event.tellsState).getLast? = some event) :
    event.isStopped = s.bridge.runState.isStopped := by
  obtain ⟨status, hstatus, htells⟩ := tells_getLast? h.labelled.told.forall₂ hlast
  rw [htells.2, Bridge.runState, h.held, List.getLastD_eq_getLast?, hstatus, Option.getD_some]

/-- **The statuses that come in decide what is held and what is told.** Each is told by one event,
in order, and the last is held. What does not bring a status and does not end the connection can be
left out of a run, and nothing else of it changes: not what the bridge holds, and not what any other
step answers and what is noticed during it. A binary frame acts as the text it encodes, and each
delivery adds to the statuses just the one that is in its text.

The events are those of a log that is told, and the status held is the last in it (`Telling`). What
can be left out is taken out of the steps and of the debuggee's script, and the two runs are then
compared step by step (`entries_gist`). -/
theorem statuses_decide_the_run (config : Config) (debuggee : Debuggee) (files : Files)
    (steps : List Step) :
    let s := (new config debuggee files).run steps
    let last := (statusesOf s.log).getLastD .initial
    let tellings := (newsOf s.log).filter Event.tellsState
    List.Forall₂ Tells tellings (statusesOf s.log) ∧
      s.bridge.runState = last.runState ∧ s.bridge.frames = last.frames ∧
      (∀ event, tellings.getLast? = some event →
        event.isStopped = s.bridge.runState.isStopped) ∧
      s.gist = (new config debuggee.gist files).run (steps.filterMap Step.gist?) ∧
      gistOfEntries steps ((new config debuggee files).entries steps) =
        (new config debuggee.gist files).entries (steps.filterMap Step.gist?) ∧
      (∀ (t : Session) (text : String),
        t.deliver (.pushBinary text.toUTF8.data.toList) = t.deliver (.push text)) ∧
      ∀ (t : Session) (happening : Happening),
        statusesOf (t.deliver happening).log = statusesOf t.log ++
          ((t.incoming? happening).bind fun text => (Status.ofFrame text).toOption).toList := by
  intro s last tellings
  have htelling : Telling s := telling_run config debuggee files steps
  refine ⟨htelling.labelled.told.forall₂, ?_, ?_, fun _ => htelling.last, ?_, ?_, ?_,
    statusesOf_deliver⟩
  · exact congrArg Status.runState htelling.held
  · exact congrArg Status.frames htelling.held
  · exact gist_run steps (new config debuggee files)
  · exact (entries_gist steps (new config debuggee files)).symm
  · exact deliver_pushBinary

end Session

end DebugBridge
