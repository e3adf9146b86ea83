/-
Breakpoints without a look at whether they are verified.

Verification takes no breakpoint away, moves none and gives none another number. So if one does not
look at it (`Registry.atFirst`), a registry takes the steps of a run by itself (`Registry.step`): no
mode, no source and no debuggee has a part in what is added, listed and removed.

This is what makes the breakpoints of a run independent of whether it debugs. Two runs with the same
steps list the same breakpoints with the same numbers, and can differ in nothing but the marks for
those that are verified.
-/
import DebugBridge.Proofs.Verification

namespace DebugBridge

namespace Registry

/-- The registry as it would be if nothing had ever been verified. -/
def atFirst (r : Registry) : Registry :=
  { r with breakpoints := r.breakpoints.map Breakpoint.atFirst }

/-! ### Each call

Forgetting what is verified commutes with every call of a registry. A verification itself comes to
nothing, since it only sets marks that are forgotten.
-/

theorem atFirst_add (r : Registry) (path : String) (line : UInt32) :
    (r.add path line).2.atFirst = (r.atFirst.add path line).2 := by
  simp [atFirst, add, Breakpoint.atFirst]

theorem atFirst_fst_remove (r : Registry) (path : String) (line : UInt32) :
    (r.remove path line).1.map Breakpoint.atFirst = (r.atFirst.remove path line).1 := by
  simp only [remove, atFirst, List.find?_map]
  rfl

theorem atFirst_remove (r : Registry) (path : String) (line : UInt32) :
    (r.remove path line).2.atFirst = (r.atFirst.remove path line).2 := by
  simp only [remove, atFirst, List.eraseP_map]
  rfl

theorem atFirst_clear (r : Registry) (path : String) :
    (r.clear path).atFirst = r.atFirst.clear path := by
  simp only [clear, atFirst, List.filter_map]
  rfl

theorem map_atFirst_list (r : Registry) (path : String) :
    (r.list path).map Breakpoint.atFirst = r.atFirst.list path := by
  simp only [list, atFirst, List.filter_map]
  rfl

theorem map_atFirst_get? (r : Registry) (path : String) (id : UInt64) :
    (r.get? path id).map Breakpoint.atFirst = r.atFirst.get? path id := by
  rw [get?, get?, ← map_atFirst_list, List.find?_map]
  rfl

theorem atFirst_verifyOne (path : String) (lineCount : Nat) (b : Breakpoint) :
    (verifyOne path lineCount b).atFirst = b.atFirst := by
  unfold verifyOne
  split <;> rfl

theorem atFirst_verify (r : Registry) (path : String) (lineCount : Nat) :
    (r.verify path lineCount).2.atFirst = r.atFirst := by
  rw [verify_eq, atFirst, List.map_map]
  congr 1
  exact List.map_congr_left fun b _ => atFirst_verifyOne path lineCount b

/-! ### Steps without verification

The same steps, taken by a registry that has no session around it. The operations add, remove and
list as they do in a session, and nothing is ever verified.
-/

/-- Adds a breakpoint and returns it as it is then. -/
def put (r : Registry) (path : String) (line : UInt32) : Breakpoint × Registry :=
  let (b, r) := r.add path line
  ((r.get? path b.id).getD b, r)

/-- Adds one breakpoint after the other. -/
def putAll (r : Registry) (path : String) : List UInt32 → List Breakpoint × Registry
  | [] => ([], r)
  | line :: lines =>
    let (b, r) := r.put path line
    let (bs, r) := r.putAll path lines
    (b :: bs, r)

/-- Does what an operation asks of the breakpoints, without verifying any, and shows those it is
about. -/
def operate (r : Registry) : Operation → List Breakpoint × Registry
  | .setBreakpoint path line => (r.put path line).map ([·]) id
  | .setBreakpoints path lines => (r.clear path).putAll path lines
  | .clearBreakpoint path line => (r.remove path line).map Option.toList id
  | .clearBreakpoints path => ([], r.clear path)
  | .breakpoints path => (r.list path, r)
  | _ => ([], r)

/-- Takes the part of a step that is about breakpoints. -/
def step (r : Registry) : Step → List Breakpoint × Registry
  | .operation operation _ => r.operate operation
  | .happening _ | .edit _ _ => ([], r)

/-- The registry after these steps. -/
def run (r : Registry) (steps : List Step) : Registry :=
  steps.foldl (fun r x => (r.step x).2) r

/-- What each of these steps shows. -/
def shownIn (r : Registry) : List Step → List (List Breakpoint)
  | [] => []
  | x :: rest => (r.step x).1 :: (r.step x).2.shownIn rest

end Registry

/-- The breakpoints in an answer. -/
def Answer.shown : Answer → List Breakpoint
  | .breakpoint b => [b]
  | .breakpoints bs => bs
  | _ => []

theorem Answer.shown_ofResult {α : Type} {make : α → Answer} (h : ∀ a, (make a).shown = [])
    (result : Except Failure α) : (ofResult make result).shown = [] := by
  cases result with
  | ok a => exact h a
  | error failure => rfl

namespace Session

/-! ### Each operation

Of an operation two things are compared at once: the breakpoints in its answer and the registry that
it leaves. They have to go together, as the number that an addition returns is taken from the
registry it leaves.
-/

theorem atFirst_verify (s : Session) (path : String) :
    (s.verify path).bridge.registry.atFirst = s.bridge.registry.atFirst := by
  obtain ⟨-, hdesk⟩ | ⟨-, -, hdesk⟩ | ⟨-, source, -, hdesk⟩ := s.verify_cases path
  · exact congrArg (fun desk => desk.registry.atFirst) hdesk
  · exact congrArg (fun desk => desk.registry.atFirst) hdesk
  · refine (congrArg (fun desk => desk.registry.atFirst) hdesk).trans ?_
    exact Registry.atFirst_verify _ path source.lineCount

theorem atFirst_setBreakpoint (s : Session) (path : String) (line : UInt32) :
    ((s.setBreakpoint path line).1.atFirst, (s.setBreakpoint path line).2.bridge.registry.atFirst) =
      s.bridge.registry.atFirst.put path line := by
  have hregistry : (s.setBreakpoint path line).2.bridge.registry.atFirst =
      (s.bridge.registry.atFirst.add path line).2 :=
    (atFirst_verify _ path).trans (Registry.atFirst_add _ path line)
  have hreturned : (s.setBreakpoint path line).1 =
      ((s.setBreakpoint path line).2.bridge.registry.get? path
        (s.bridge.registry.add path line).1.id).getD (s.bridge.registry.add path line).1 := rfl
  refine Prod.ext ?_ hregistry
  show (s.setBreakpoint path line).1.atFirst = (s.bridge.registry.atFirst.put path line).1
  rw [hreturned, ← Option.getD_map Breakpoint.atFirst, Registry.map_atFirst_get?, hregistry]
  rfl

theorem atFirst_addBreakpoints (path : String) (lines : List UInt32) :
    ∀ s : Session, ((s.addBreakpoints path lines).1.map Breakpoint.atFirst,
        (s.addBreakpoints path lines).2.bridge.registry.atFirst) =
      s.bridge.registry.atFirst.putAll path lines := by
  induction lines with
  | nil => exact fun s => rfl
  | cons line rest ih =>
      intro s
      have hfirst := s.atFirst_setBreakpoint path line
      have hrest := ih (s.setBreakpoint path line).2
      rw [Registry.putAll, ← hfirst]
      dsimp only
      rw [← hrest]
      rfl

/-- An operation that shows no breakpoint and keeps them all. -/
theorem atFirst_of_kept {r : Registry} {answer : Answer} {s : Session} (hshown : answer.shown = [])
    (hkept : s.bridge.registry = r) :
    (answer.shown.map Breakpoint.atFirst, s.bridge.registry.atFirst) = ([], r.atFirst) := by
  rw [hshown, hkept]
  rfl

theorem registry_start (s : Session) (address : String) (stopOnEntry noDebug : Bool) :
    (s.start address stopOnEntry noDebug).2.bridge.registry = s.bridge.registry :=
  congrArg Holdings.registry (holdings_start s address stopOnEntry noDebug)

theorem atFirst_operate (s : Session) (operation : Operation) :
    ((s.operate operation).1.shown.map Breakpoint.atFirst,
        (s.operate operation).2.bridge.registry.atFirst) =
      s.bridge.registry.atFirst.operate operation := by
  cases operation with
  | start address stopOnEntry noDebug =>
      exact atFirst_of_kept (Answer.shown_ofResult (fun _ => rfl) _) (registry_start s _ _ _)
  | startConfigured =>
      exact atFirst_of_kept (Answer.shown_ofResult (fun _ => rfl) _) (registry_start s _ _ _)
  | disconnect =>
      exact atFirst_of_kept rfl (congrArg Holdings.registry (holdings_disconnect s))
  | execute control =>
      exact atFirst_of_kept rfl (congrArg Holdings.registry (holdings_dispatch s control))
  | setBreakpoint path line =>
      show _ = (s.bridge.registry.atFirst.put path line).map ([·]) id
      rw [← atFirst_setBreakpoint]
      rfl
  | setBreakpoints path lines =>
      show _ = (s.bridge.registry.atFirst.clear path).putAll path lines
      rw [← Registry.atFirst_clear]
      exact atFirst_addBreakpoints path lines (s.clearBreakpoints path)
  | clearBreakpoint path line =>
      refine Prod.ext ?_ (Registry.atFirst_remove _ path line)
      show _ = (s.bridge.registry.atFirst.remove path line).1.toList
      rw [← Registry.atFirst_fst_remove]
      show ((s.bridge.registry.remove path line).1.elim Answer.done .breakpoint).shown.map _ = _
      cases (s.bridge.registry.remove path line).1 <;> rfl
  | clearBreakpoints path => exact Prod.ext rfl (Registry.atFirst_clear _ path)
  | breakpoints path => exact Prod.ext (Registry.map_atFirst_list _ path) rfl
  | breakColumns path line =>
      exact atFirst_of_kept (Answer.shown_ofResult (fun _ => rfl) _)
        (congrArg Desk.registry (desk_load s path))
  | runState | stack | stackPage | threads | scopes => exact atFirst_of_kept rfl rfl
  | expandReference reference =>
      exact atFirst_of_kept (Answer.shown_ofResult (fun _ => rfl) _)
        (congrArg Desk.registry (desk_expandReference s reference))
  | expandHandle handle =>
      exact atFirst_of_kept (Answer.shown_ofResult (fun _ => rfl) _)
        (congrArg Desk.registry (desk_expandHandle s handle))

/-! ### Every run -/

theorem atFirst_step (s : Session) (x : Step) :
    ((s.step x).1.shown.map Breakpoint.atFirst, (s.step x).2.bridge.registry.atFirst) =
      s.bridge.registry.atFirst.step x := by
  cases x with
  | operation operation asides => exact atFirst_operate { s with asides } operation
  | happening happening =>
      exact atFirst_of_kept rfl (congrArg Holdings.registry (holdings_deliver s happening))
  | edit => exact atFirst_of_kept rfl rfl

/-- **Verification apart, the breakpoints of a run are those of its steps.** What the debuggee does,
what is in the files and whether the client debugs can be told from the marks alone. -/
theorem atFirst_run (steps : List Step) :
    ∀ s : Session, (s.run steps).bridge.registry.atFirst = s.bridge.registry.atFirst.run steps := by
  induction steps with
  | nil => exact fun s => rfl
  | cons x rest ih =>
      intro s
      rw [run_cons, ih, Registry.run, Registry.run, List.foldl_cons, ← atFirst_step]

theorem shown_entries (steps : List Step) :
    ∀ s : Session, (s.entries steps).map (fun e => e.answer.shown.map Breakpoint.atFirst) =
      s.bridge.registry.atFirst.shownIn steps := by
  induction steps with
  | nil => exact fun s => rfl
  | cons x rest ih =>
      intro s
      rw [Registry.shownIn, ← atFirst_step]
      exact congrArg _ (ih (s.step x).2)

end Session

end DebugBridge
