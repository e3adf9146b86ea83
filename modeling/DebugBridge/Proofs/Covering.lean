/-
Relations between a session and what operations on breakpoints make of it.

What is done to breakpoints and their sources has few parts: a source is loaded, the registry
changes, and a verified breakpoint is announced. A relation that holds across each of these, and
across one after the other, holds across every such operation (`CoversLoads.operate`).

A load has parts of its own, the cache takes in a source and the reading is noted, and most
relations hold across those (`CoversDesk`). That something stays as it is, is the relation of having
it in common (`CoversDesk.same`). So a fact about all operations on breakpoints costs one instance
of a structure with six fields, whether it says that the course drifts, that no request is made or
that a source once loaded stays.
-/
import DebugBridge.Session.Run

namespace DebugBridge

/-- Whether an operation deals with breakpoints or their sources. -/
def Operation.onBreakpoints : Operation → Bool
  | .setBreakpoint _ _ | .setBreakpoints _ _ | .clearBreakpoint _ _ | .clearBreakpoints _
  | .breakpoints _ | .breakColumns _ _ => true
  | _ => false

namespace Session

/-- A relation that holds across the parts of what is done to breakpoints, with a load for one part.
It is a preorder, so that parts can be put one after the other, and it holds across a load, a change
of the registry and an announcement. -/
structure CoversLoads (R : Session → Session → Prop) : Prop where
  refl : ∀ s, R s s
  trans : ∀ {s t u}, R s t → R t u → R s u
  load : ∀ s path, R s (s.load path).2
  registry : ∀ s registry, R s { s with bridge := { s.bridge with registry } }
  verified : ∀ s b, R s (s.note (.emitted (.breakpointVerified b)))

namespace CoversLoads

variable {R : Session → Session → Prop} (hR : CoversLoads R)
include hR

theorem noteVerified (bs : List Breakpoint) :
    ∀ s : Session, R s (bs.foldl (fun s b => s.note (.emitted (.breakpointVerified b))) s) := by
  induction bs with
  | nil => exact hR.refl
  | cons b rest ih => exact fun s => hR.trans (hR.verified s b) (ih _)

theorem verify (s : Session) (path : String) : R s (s.verify path) := by
  unfold Session.verify
  split
  · exact hR.refl s
  · have hload := hR.load s path
    split
    · rename_i hloaded
      rwa [hloaded] at hload
    · rename_i hloaded
      rw [hloaded] at hload
      exact hR.trans (hR.trans hload (hR.registry _ _)) (hR.noteVerified _ _)

theorem setBreakpoint (s : Session) (path : String) (line : UInt32) :
    R s (s.setBreakpoint path line).2 :=
  hR.trans (hR.registry s _) (hR.verify _ path)

theorem addBreakpoints (path : String) (lines : List UInt32) :
    ∀ s : Session, R s (s.addBreakpoints path lines).2 := by
  induction lines with
  | nil => exact hR.refl
  | cons line rest ih => exact fun s => hR.trans (hR.setBreakpoint s path line) (ih _)

/-- What covers the parts covers every operation that deals with breakpoints. -/
theorem operate (s : Session) {operation : Operation} (h : operation.onBreakpoints = true) :
    R s (s.operate operation).2 := by
  cases operation with
  | setBreakpoint path line => exact hR.setBreakpoint s path line
  | setBreakpoints path lines =>
      exact hR.trans (hR.registry s (s.bridge.registry.clear path)) (hR.addBreakpoints path lines _)
  | clearBreakpoint | clearBreakpoints => exact hR.registry s _
  | breakpoints path => exact hR.refl s
  | breakColumns path line => exact hR.load s path
  | _ => simp [Operation.onBreakpoints] at h

end CoversLoads

/-- A relation that holds across the parts of what is done to breakpoints and sources. Here a load
is no part any more: the cache takes in what the file holds, and that the file was read is noted. -/
structure CoversDesk (R : Session → Session → Prop) : Prop where
  refl : ∀ s, R s s
  trans : ∀ {s t u}, R s t → R t u → R s u
  sources : ∀ s path, R s
    { s with bridge := { s.bridge with sources := (s.bridge.sources.load s.files path).cache } }
  read : ∀ s path, R s (s.note (.read path))
  registry : ∀ s registry, R s { s with bridge := { s.bridge with registry } }
  verified : ∀ s b, R s (s.note (.emitted (.breakpointVerified b)))

namespace CoversDesk

theorem same {α : Type} {f : Session → α}
    (hsources : ∀ s sources, f { s with bridge := { s.bridge with sources } } = f s)
    (hregistry : ∀ s registry, f { s with bridge := { s.bridge with registry } } = f s)
    (hread : ∀ s path, f (s.note (.read path)) = f s)
    (hverified : ∀ s b, f (s.note (.emitted (.breakpointVerified b))) = f s) :
    CoversDesk fun s t => f t = f s where
  refl _ := rfl
  trans h h' := h'.trans h
  sources s _ := hsources s _
  read := hread
  registry := hregistry
  verified := hverified

variable {R : Session → Session → Prop} (hR : CoversDesk R)
include hR

theorem load (s : Session) (path : String) : R s (s.load path).2 := by
  have hsources := hR.sources s path
  unfold Session.load
  dsimp only
  split
  · exact hR.trans hsources (hR.read _ path)
  · exact hsources

theorem loads : CoversLoads R where
  refl := hR.refl
  trans := hR.trans
  load := hR.load
  registry := hR.registry
  verified := hR.verified

theorem operate (s : Session) {operation : Operation} (h : operation.onBreakpoints = true) :
    R s (s.operate operation).2 :=
  hR.loads.operate s h

end CoversDesk

end Session

end DebugBridge
