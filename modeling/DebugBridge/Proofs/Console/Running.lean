/-
What the console does to its session.

There are few ways for the console to take an input, and they are said once (`Taken`): it does
nothing, it leaves, it carries out a command, or it lets the debuggee act. So what every operation
of a bridge keeps is kept while the console runs, and the breakpoints that are there are those that
were set by commands. Everything printed belongs to one input (`mem_entries`).

The theorems on operations and steps are used as they are. A command is an operation, what the
debuggee does is a step, and leaving is to disconnect.
-/
import DebugBridge.Console.Program
import DebugBridge.Proofs.Telling
import DebugBridge.Proofs.Verification
import Mathlib.Data.List.Induction

namespace DebugBridge.Console

namespace Program

/-! ### One input

An input is looked at in several places, by what is carried out, by what is printed and by what is
recorded. They all ask for the command that it is (`order?`), so that nobody has to read the line
again.
-/

/-- The command that an input is, as long as the program runs. -/
def order? (p : Program) (input : Input) : Option Order :=
  match p.exit, input with
  | none, .line bytes =>
    (String.fromUTF8? ⟨bytes.toArray⟩).bind fun text => (Order.parse text).toOption.join
  | _, _ => none

/-- All that may come of an input: what is printed, and the program afterwards. Each way says
whether the input was a command, since what is set is counted by commands. -/
inductive Taken (p : Program) (input : Input) : List Output → Program → Prop
  /-- The program has ended, or the line is empty. -/
  | nothing (horder : p.order? input = none) : Taken p input [] p
  | puzzled (horder : p.order? input = none) (error : OrderError) :
      Taken p input [.notUnderstood error] p
  | left (horder : ∀ order, p.order? input = some order → order = .quit) :
      Taken p input p.leave.1 p.leave.2
  | obeyed {order : Order} (horder : p.order? input = some order) :
      Taken p input (execute p.session order).1 { p with session := (execute p.session order).2 }
  | happened (horder : p.order? input = none) (happening : Happening) :
      Taken p input (p.undergo happening).1 (p.undergo happening).2

theorem taken_obey {p : Program} {bytes : List UInt8} {text : String} (hexit : p.exit = none)
    (htext : String.fromUTF8? ⟨bytes.toArray⟩ = some text) :
    Taken p (.line bytes) (p.obey text).1 (p.obey text).2 := by
  have horder : p.order? (.line bytes) = (Order.parse text).toOption.join := by
    simp [order?, hexit, htext]
  unfold obey
  split
  · rename_i error hparse
    exact .puzzled (by simp [horder, hparse, Except.toOption]) error
  · rename_i hparse
    exact .nothing (by simp [horder, hparse, Except.toOption])
  · rename_i hparse
    refine .left fun order h => ?_
    simpa [horder, hparse, Except.toOption] using h.symm
  · rename_i order _ hparse
    exact .obeyed (by simp [horder, hparse, Except.toOption])

theorem taken_feed (p : Program) (input : Input) :
    Taken p input (p.feed input).1 (p.feed input).2 := by
  cases hexit : p.exit with
  | some code =>
      have hfeed : p.feed input = ([], p) := by simp [feed, hexit]
      rw [hfeed]
      exact .nothing (by simp [order?, hexit])
  | none =>
      cases input with
      | endOfInput =>
          have hfeed : p.feed .endOfInput = p.leave := by simp [feed, hexit]
          rw [hfeed]
          exact .left (by simp [order?, hexit])
      | happening happening =>
          have hfeed : p.feed (.happening happening) = p.undergo happening := by simp [feed, hexit]
          rw [hfeed]
          exact .happened (by simp [order?, hexit]) happening
      | line bytes =>
          cases htext : String.fromUTF8? ⟨bytes.toArray⟩ with
          | none =>
              have hfeed : p.feed (.line bytes) = p.leave := by simp [feed, hexit, htext]
              rw [hfeed]
              exact .left (by simp [order?, hexit, htext])
          | some text =>
              have hfeed : p.feed (.line bytes) = p.obey text := by simp [feed, hexit, htext]
              rw [hfeed]
              exact taken_obey hexit htext

/-- Where a command sets a breakpoint, if an input is one. -/
def set? (p : Program) (input : Input) : Option (String × UInt32) :=
  match p.order? input with
  | some (.setBreakpoint path line) => some (path, line)
  | _ => none

/-- What a command does to breakpoints and sources. -/
def deeds (p : Program) (input : Input) : List Deed :=
  ((p.order? input).bind Order.operation?).elim [] Operation.deeds

theorem filterMap_deeds (p : Program) (input : Input) :
    (p.deeds input).filterMap Deed.place? = (p.set? input).toList := by
  unfold deeds set?
  cases p.order? input with
  | none => rfl
  | some order => cases order <;> rfl

open Session (Done Path)

theorem done_leave (p : Program) : Done p.session [] p.leave.2.session :=
  Done.of_holdings (Session.holdings_disconnect p.session)

theorem done_execute (s : Session) (order : Order) :
    Done s (order.operation?.elim [] Operation.deeds) (execute s order).2 := by
  have hno_start : ∀ operation, order.operation? = some operation →
      operation.start? s.bridge.config = none := by
    cases order <;> simp [Order.operation?, Operation.start?]
  unfold execute
  cases hoperation : order.operation? with
  | none => exact Done.refl s
  | some operation => exact Session.done_operate s operation (hno_start operation hoperation)

theorem Taken.done {p q : Program} {input : Input} {outputs : List Output}
    (h : Taken p input outputs q) : Done p.session (p.deeds input) q.session := by
  cases h with
  | nothing horder | puzzled horder =>
      rw [deeds, horder]
      exact Done.refl _
  | left horder =>
      have hnone : p.deeds input = [] := by
        unfold deeds
        cases hquit : p.order? input with
        | none => rfl
        | some order =>
            rw [horder order hquit]
            rfl
      rw [hnone]
      exact done_leave p
  | @obeyed order horder =>
      rw [deeds, horder]
      exact done_execute p.session order
  | happened horder happening =>
      have hdeliver : Done p.session [] (p.session.deliver happening) :=
        Done.of_holdings (Session.holdings_deliver p.session happening)
      rw [deeds, horder]
      unfold undergo
      dsimp only
      split
      · exact hdeliver.trans (done_leave { p with session := p.session.deliver happening })
      · exact hdeliver

theorem Taken.path {p q : Program} {input : Input} {outputs : List Output}
    (h : Taken p input outputs q) : Path p.session q.session := by
  cases h with
  | nothing | puzzled => exact .refl
  | left => exact Session.path_disconnect p.session
  | @obeyed order horder =>
      unfold execute
      cases order.operation? with
      | none => exact .refl
      | some operation => exact Session.path_operate p.session operation
  | happened horder happening =>
      have hdeliver := (Session.drift_deliver p.session happening).path
      unfold undergo
      dsimp only
      split
      · exact hdeliver.trans (Session.path_disconnect _)
      · exact hdeliver

/-! ### What is printed

Of an output one has to know where it comes from. Events are in the log, and a report is made of the
answer to a command and of the session before it.
-/

theorem mem_eventsOf {s : Session} {before : List Effect} {o : Output}
    (h : o ∈ eventsOf (s.effectsSince before)) :
    ∃ event, o = .event event ∧ .emitted event ∈ s.log := by
  obtain ⟨event, hevent, rfl⟩ := List.mem_map.1 h
  obtain ⟨effect, heffect, hemitted⟩ := List.mem_filterMap.1 hevent
  refine ⟨event, rfl, ?_⟩
  have hmem : effect ∈ s.log := List.mem_of_mem_drop heffect
  cases effect with
  | emitted other =>
      obtain rfl : other = event := by simpa [Effect.event?] using hemitted
      exact hmem
  | _ => simp [Effect.event?] at hemitted

/-- What is printed is an event that is in the log, a complaint about a line, or the report about
the answer to a command. -/
theorem Taken.mem {p q : Program} {input : Input} {outputs : List Output} {o : Output}
    (h : Taken p input outputs q) (ho : o ∈ outputs) :
    (∃ event, o = .event event ∧ .emitted event ∈ q.session.log) ∨
      (∃ error, o = .notUnderstood error) ∨
      ∃ order answer, p.order? input = some order ∧ o ∈ order.report p.session answer ∧
        ∀ operation, order.operation? = some operation →
          p.session.operate operation = (answer, q.session) := by
  cases h with
  | nothing => simp at ho
  | puzzled _ error => exact Or.inr (Or.inl ⟨error, by simpa using ho⟩)
  | left => exact Or.inl (mem_eventsOf ho)
  | @obeyed order horder =>
      unfold execute at ho ⊢
      cases hoperation : order.operation? with
      | none =>
          rw [hoperation] at ho
          exact Or.inr (Or.inr ⟨order, .done, horder, ho, by simp [hoperation]⟩)
      | some operation =>
          rw [hoperation] at ho
          rcases List.mem_append.1 ho with hevent | hreport
          · exact Or.inl (mem_eventsOf hevent)
          · refine Or.inr (Or.inr ⟨order, (p.session.operate operation).1, horder, hreport, ?_⟩)
            intro other hother
            obtain rfl : operation = other := Option.some.inj (hoperation.symm.trans hother)
            rfl
  | happened horder happening =>
      unfold undergo at ho ⊢
      dsimp only at ho ⊢
      split at ho
      · rename_i hended
        rw [if_pos hended]
        rcases List.mem_append.1 ho with hfirst | hlast
        · obtain ⟨event, rfl, hmem⟩ := mem_eventsOf hfirst
          exact Or.inl ⟨event, rfl, (Session.path_disconnect _).log_grows.subset hmem⟩
        · exact Or.inl (mem_eventsOf hlast)
      · rename_i hended
        rw [if_neg hended]
        exact Or.inl (mem_eventsOf ho)

/-! ### Many inputs

The program handles inputs one by one, from the first. What was set by them is told from the last
one backwards as well, since a breakpoint is traced to the input before which the others come.
-/

/-- The program after these inputs. -/
def after (p : Program) (inputs : List Input) : Program :=
  inputs.foldl (fun p input => (p.feed input).2) p

theorem after_concat (p : Program) (inputs : List Input) (input : Input) :
    p.after (inputs ++ [input]) = ((p.after inputs).feed input).2 := by
  rw [after, List.foldl_append]
  rfl

/-- The places at which these inputs set breakpoints, in order. -/
def setBy (p : Program) : List Input → List (String × UInt32)
  | [] => []
  | input :: rest => (p.set? input).toList ++ (p.feed input).2.setBy rest

theorem setBy_concat (inputs : List Input) (input : Input) :
    ∀ p : Program,
      p.setBy (inputs ++ [input]) = p.setBy inputs ++ ((p.after inputs).set? input).toList := by
  induction inputs with
  | nil =>
      intro p
      exact List.append_nil _
  | cons first rest ih =>
      intro p
      rw [List.cons_append, setBy, ih, setBy, List.append_assoc]
      rfl

theorem path_after (inputs : List Input) :
    ∀ p : Program, Path p.session (p.after inputs).session := by
  induction inputs with
  | nil => exact fun _ => .refl
  | cons input rest ih => exact fun p => (p.taken_feed input).path.trans (ih (p.feed input).2)

theorem recorded_after (inputs : List Input) :
    ∀ {p : Program} {places : List (String × UInt32)}, Recorded p.session.desk places →
      Recorded (p.after inputs).session.desk (places ++ p.setBy inputs) := by
  induction inputs with
  | nil =>
      intro p places h
      rw [setBy, List.append_nil]
      exact h
  | cons input rest ih =>
      intro p places h
      have hstep := (p.taken_feed input).done.recorded h
      rw [filterMap_deeds] at hstep
      rw [setBy, ← List.append_assoc]
      exact ih hstep

/-- Every breakpoint that was added was added by a command. The induction goes from the last input
backwards, because the number of a breakpoint counts those that were added before it. -/
theorem set_of_mem_addedAt (inputs : List Input) (p : Program) {b : Breakpoint}
    (h : b ∈ addedAt (p.setBy inputs)) :
    ∃ earlier input later, inputs = earlier ++ input :: later ∧
      (p.after earlier).order? input = some (.setBreakpoint b.path b.line) ∧
      b.id = UInt64.ofNat ((p.setBy earlier).length + 1) := by
  induction inputs using List.reverseRecOn with
  | nil => simp [setBy, addedAt] at h
  | append_singleton inputs input ih =>
      have hbefore : b ∈ addedAt (p.setBy inputs) →
          ∃ earlier x later, inputs ++ [input] = earlier ++ x :: later ∧
            (p.after earlier).order? x = some (.setBreakpoint b.path b.line) ∧
            b.id = UInt64.ofNat ((p.setBy earlier).length + 1) := by
        intro hmem
        obtain ⟨earlier, x, later, rfl, hset⟩ := ih hmem
        exact ⟨earlier, x, later ++ [input], by simp, hset⟩
      rw [setBy_concat] at h
      unfold set? at h
      split at h
      · rename_i path line horder
        rw [Option.toList_some, addedAt_concat] at h
        rcases List.mem_append.1 h with hold | hnew
        · exact hbefore hold
        · rw [List.mem_singleton.1 hnew]
          exact ⟨inputs, input, [], rfl, horder, rfl⟩
      · rw [Option.toList_none, List.append_nil] at h
        exact hbefore h

/-- Every entry is about one input, taken by a program that has not ended. The end of input is one
more input here, which stands behind all others. -/
theorem mem_entries (inputs : List Input) :
    ∀ {p : Program} {entry : Entry}, entry ∈ (p.entries inputs).1 →
      ∃ earlier input later, inputs ++ [.endOfInput] = earlier ++ input :: later ∧
        (p.after earlier).exit = none ∧
        entry.outputs = ((p.after earlier).feed input).1 := by
  induction inputs with
  | nil =>
      intro p entry h
      unfold entries at h
      cases hexit : p.exit with
      | some code => simp [hexit] at h
      | none =>
          refine ⟨[], .endOfInput, [], rfl, hexit, ?_⟩
          simp only [hexit, Option.isSome_none, Bool.false_eq_true, if_false,
            List.mem_singleton] at h
          rw [h]
          rfl
  | cons first rest ih =>
      intro p entry h
      unfold entries at h
      cases hexit : p.exit with
      | some code => simp [hexit] at h
      | none =>
          simp only [hexit, Option.isSome_none, Bool.false_eq_true, if_false, List.mem_cons] at h
          rcases h with rfl | hrest
          · exact ⟨[], first, rest ++ [.endOfInput], rfl, hexit, rfl⟩
          · obtain ⟨earlier, input, later, hinputs, hgoing, houtputs⟩ := ih hrest
            exact ⟨first :: earlier, input, later, by rw [List.cons_append, hinputs]; rfl, hgoing,
              houtputs⟩

end Program

end DebugBridge.Console
