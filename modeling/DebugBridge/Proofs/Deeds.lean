/-
What a client does to its breakpoints and their sources.

There are four things to do, the `Deed`s, and every operation comes down to some of them, or to
none. What they act on is the `Desk`: the breakpoints, the sources and the mode, and the breakpoints
that were announced as verified. Nothing else touches it, except that a start sets the mode
(`done_step`). Adding a breakpoint verifies those on its path, and what that does is said once
(`verify_cases`).

An invariant of the desk is therefore shown of four deeds (`Done.preserves`). Replacing the
breakpoints of a path is no deed of its own: it is a sweep with an addition for each line behind it,
and so is what it does to the sources and what it announces.
-/
import DebugBridge.Proofs.Holdings

namespace DebugBridge

/-- The breakpoint that was announced as verified. -/
def Effect.verified? : Effect → Option Breakpoint
  | emitted (.breakpointVerified b) => some b
  | _ => none

/-- The breakpoints that were announced as verified, in order. -/
def verifiedIn (log : List Effect) : List Breakpoint := log.filterMap Effect.verified?

/-- The announcement of a breakpoint that was verified. -/
def announced (b : Breakpoint) : Effect := .emitted (.breakpointVerified b)

theorem verifiedIn_announced (bs : List Breakpoint) : verifiedIn (bs.map announced) = bs := by
  rw [verifiedIn, List.filterMap_map]
  exact List.filterMap_some

@[simp] theorem verifiedIn_append (log more : List Effect) :
    verifiedIn (log ++ more) = verifiedIn log ++ verifiedIn more :=
  List.filterMap_append

theorem verifiedIn_recordOf (log : List Effect) : verifiedIn (recordOf log) = verifiedIn log :=
  filterMap_recordOf
    (fun e he => by unfold Effect.verified?; split <;> simp_all [Effect.isRecord]) log

/-- Breakpoints, their sources and the mode, with what was announced. It is what a client sees of
its breakpoints, and all that operations on them look at or change, but for the files. -/
structure Desk where
  registry : Registry
  sources : SourceCache
  noDebug : Bool
  told : List Breakpoint

/-- Something done to the breakpoints or sources. -/
inductive Deed where
  /-- A breakpoint is added. -/
  | put (path : String) (line : UInt32)
  /-- The oldest breakpoint at a place is removed. -/
  | take (path : String) (line : UInt32)
  /-- All breakpoints on a path are removed. -/
  | sweep (path : String)
  /-- A source is loaded. -/
  | look (path : String)

/-- What an operation does to the breakpoints and sources, in order. -/
def Operation.deeds : Operation → List Deed
  | .setBreakpoint path line => [.put path line]
  | .setBreakpoints path lines => .sweep path :: lines.map (.put path)
  | .clearBreakpoint path line => [.take path line]
  | .clearBreakpoints path => [.sweep path]
  | .breakColumns path _ => [.look path]
  | _ => []

/-- What a step does to the breakpoints and sources, in order. -/
def Step.deeds : Step → List Deed
  | .operation asked _ => asked.deeds
  | .happening _ | .edit _ _ => []

theorem Operation.deeds_of_start? {operation : Operation} {config : Config}
    {arguments : String × Bool × Bool} (h : operation.start? config = some arguments) :
    operation.deeds = [] := by
  cases operation <;> simp_all [Operation.start?, deeds]

namespace Session

def desk (s : Session) : Desk :=
  ⟨s.bridge.registry, s.bridge.sources, s.bridge.noDebug, verifiedIn s.log⟩

theorem desk_of_holdings {s t : Session} {noDebug : Bool}
    (h : t.holdings = { s.holdings with noDebug }) : t.desk = { s.desk with noDebug } := by
  have htold : verifiedIn t.log = verifiedIn s.log := by
    rw [← verifiedIn_recordOf t.log, ← verifiedIn_recordOf s.log]
    exact congrArg (fun holdings => verifiedIn holdings.record) h
  simp only [holdings, Holdings.mk.injEq] at h
  simp [desk, h, htold]

/-- Whoever has the same holdings has the same desk. -/
theorem desk_eq_of_holdings {s t : Session} (h : t.holdings = s.holdings) : t.desk = s.desk :=
  desk_of_holdings h

/-! ### Variables -/

theorem desk_call (s : Session) (request : Request) : (s.call request).2.desk = s.desk := by
  have hcall := s.holdings_call request
  have htold : verifiedIn (s.call request).2.log = verifiedIn s.log := by
    rw [← verifiedIn_recordOf (s.call request).2.log, ← verifiedIn_recordOf s.log]
    have hrecord : recordOf (s.call request).2.log = recordOf s.log ++
        recordOf [.requested request, .answered request (s.call request).1] :=
      congrArg Holdings.record hcall
    rw [hrecord, verifiedIn_append, verifiedIn_recordOf [_, _]]
    exact List.append_nil _
  simp only [holdings, Holdings.mk.injEq] at hcall
  simp [desk, hcall, htold]

theorem desk_expandHandle (s : Session) (handle : VariableHandle) :
    (s.expandHandle handle).2.desk = s.desk := by
  unfold expandHandle
  split
  · rfl
  · rename_i query _
    split
    · dsimp only
      split
      · exact desk_call s _
      · exact desk_call s (.get query)
    · rfl

theorem desk_expandReference (s : Session) (reference : Int64) :
    (s.expandReference reference).2.desk = s.desk := by
  unfold expandReference
  split
  · rfl
  · exact desk_expandHandle s _

/-! ### Loading and verifying

A breakpoint is verified when its source is had and has its line. The source is loaded for this on
every addition, from the cache if it is there, and every breakpoint on the path is looked at again,
not only the new one.
-/

theorem desk_load (s : Session) (path : String) :
    (s.load path).2.desk =
      { s.desk with sources := (s.bridge.sources.load s.files path).cache } := by
  unfold load
  dsimp only
  split
  · simp [desk, note, verifiedIn, Effect.verified?]
  · rfl

/-- Breakpoints are announced one after the other. -/
theorem noteVerified_eq (bs : List Breakpoint) :
    ∀ s : Session, bs.foldl (fun s b => s.note (.emitted (.breakpointVerified b))) s =
      { s with log := s.log ++ bs.map announced } := by
  induction bs with
  | nil => exact fun s => by simp
  | cons b rest ih =>
      intro s
      rw [List.foldl_cons, ih]
      simp [note, announced]

theorem desk_noteVerified (bs : List Breakpoint) (s : Session) :
    (bs.foldl (fun s b => s.note (.emitted (.breakpointVerified b))) s).desk =
      { s.desk with told := s.desk.told ++ bs } := by
  rw [noteVerified_eq, desk, verifiedIn_append, verifiedIn_announced]
  rfl

/-- Verification does nothing without debugging. Else it loads the source, and if that can be had,
verifies the breakpoints in it and announces them. If it cannot, they stay as they are, and all that
is left behind is the attempt to read. -/
theorem verify_cases (s : Session) (path : String) :
    let loaded := s.bridge.sources.load s.files path
    s.bridge.noDebug = true ∧ (s.verify path).desk = s.desk ∨
      s.bridge.noDebug = false ∧ (∃ failure, loaded.result = .error failure) ∧
        (s.verify path).desk = { s.desk with sources := loaded.cache } ∨
      s.bridge.noDebug = false ∧ ∃ source, loaded.result = .ok source ∧
        (s.verify path).desk =
          { s.desk with
            registry := (s.bridge.registry.verify path source.lineCount).2
            sources := loaded.cache
            told := s.desk.told ++ (s.bridge.registry.verify path source.lineCount).1 } := by
  intro loaded
  have hload := s.desk_load path
  unfold verify
  cases hmode : s.bridge.noDebug with
  | true => exact Or.inl ⟨rfl, rfl⟩
  | false =>
      refine Or.inr ?_
      rw [if_neg nofun]
      split
      · rename_i failure t hloaded
        rw [hloaded] at hload
        exact Or.inl ⟨rfl, ⟨failure, congrArg Prod.fst hloaded⟩, hload⟩
      · rename_i source t hloaded
        rw [hloaded] at hload
        refine Or.inr ⟨rfl, source, congrArg Prod.fst hloaded, ?_⟩
        have hregistry : t.bridge.registry = s.bridge.registry := congrArg Desk.registry hload
        rw [desk_noteVerified, hregistry]
        simp only [desk, Desk.mk.injEq] at hload ⊢
        simp [hload, loaded]

/-- A breakpoint is added, and verified with those that are there. The whole path is verified, so
breakpoints that could not be verified earlier may become so along with the new one. -/
theorem setBreakpoint_cases (s : Session) (path : String) (line : UInt32) :
    let registry := (s.bridge.registry.add path line).2
    let loaded := s.bridge.sources.load s.files path
    s.bridge.noDebug = true ∧ (s.setBreakpoint path line).2.desk = { s.desk with registry } ∨
      s.bridge.noDebug = false ∧ (∃ failure, loaded.result = .error failure) ∧
        (s.setBreakpoint path line).2.desk =
          { s.desk with registry, sources := loaded.cache } ∨
      s.bridge.noDebug = false ∧ ∃ source, loaded.result = .ok source ∧
        (s.setBreakpoint path line).2.desk =
          { s.desk with
            registry := (registry.verify path source.lineCount).2
            sources := loaded.cache
            told := s.desk.told ++ (registry.verify path source.lineCount).1 } :=
  verify_cases { s with bridge := { s.bridge with
    registry := (s.bridge.registry.add path line).2 } } path

/-! ### Deeds

The deeds say what an operation comes to without the connection in between. What is done during a
step is their succession, with stretches in which the desk is left alone, and that is what `Done` is
the closure of.
-/

/-- Does one thing to the breakpoints or sources. -/
def perform (s : Session) : Deed → Session
  | .put path line => (s.setBreakpoint path line).2
  | .take path line => (s.clearBreakpoint path line).2
  | .sweep path => s.clearBreakpoints path
  | .look path => (s.load path).2

/-- The session goes on, these deeds are done in it, and nothing else is done to its desk. -/
inductive Done : Session → List Deed → Session → Prop
  | refl (s : Session) : Done s [] s
  | still {s t u : Session} {deeds : List Deed} (h : Done s deeds t) (hdesk : u.desk = t.desk) :
      Done s deeds u
  | deed {s t : Session} {deeds : List Deed} (h : Done s deeds t) (d : Deed) :
      Done s (deeds ++ [d]) (t.perform d)

namespace Done

theorem of_eq {s t : Session} (hdesk : t.desk = s.desk) : Done s [] t := (refl s).still hdesk

theorem of_holdings {s t : Session} (h : t.holdings = s.holdings) : Done s [] t :=
  of_eq (desk_eq_of_holdings h)

theorem one (s : Session) (d : Deed) : Done s [d] (s.perform d) := (refl s).deed d

theorem trans {s t u : Session} {deeds more : List Deed} (h : Done s deeds t)
    (h' : Done t more u) : Done s (deeds ++ more) u := by
  induction h' with
  | refl => simpa using h
  | still _ hdesk ih => exact ih.still hdesk
  | deed _ d ih =>
      rw [← List.append_assoc]
      exact ih.deed d

theorem preserves {P : List Deed → Session → Prop} {s t : Session} {deeds : List Deed}
    (h : Done s deeds t)
    (hdesk : ∀ {deeds t u}, u.desk = t.desk → P deeds t → P deeds u)
    (hdeed : ∀ {deeds t} d, P deeds t → P (deeds ++ [d]) (t.perform d)) (hs : P [] s) :
    P deeds t := by
  induction h with
  | refl => exact hs
  | still _ heq ih => exact hdesk heq ih
  | deed _ d ih => exact hdeed d ih

end Done

theorem done_addBreakpoints (path : String) (lines : List UInt32) :
    ∀ s : Session, Done s (lines.map (.put path)) (s.addBreakpoints path lines).2 := by
  induction lines with
  | nil => exact Done.refl
  | cons line rest ih => exact fun s => (Done.one s (.put path line)).trans (ih _)

/-- What an operation does to the desk of a session, unless it is a start. -/
theorem done_operate (s : Session) (operation : Operation)
    (hstart : operation.start? s.bridge.config = none) :
    Done s operation.deeds (s.operate operation).2 := by
  cases operation with
  | start | startConfigured => simp [Operation.start?] at hstart
  | disconnect => exact Done.of_holdings (holdings_disconnect s)
  | execute control => exact Done.of_holdings (holdings_dispatch s control)
  | setBreakpoint path line => exact Done.one s (.put path line)
  | setBreakpoints path lines =>
      exact (Done.one s (.sweep path)).trans (done_addBreakpoints path lines _)
  | clearBreakpoint path line => exact Done.one s (.take path line)
  | clearBreakpoints path => exact Done.one s (.sweep path)
  | breakColumns path => exact Done.one s (.look path)
  | breakpoints | runState | stack | stackPage | threads => exact Done.refl s
  | scopes => exact Done.of_eq rfl
  | expandReference reference => exact Done.of_eq (desk_expandReference s reference)
  | expandHandle handle => exact Done.of_eq (desk_expandHandle s handle)

/-- A start sets the mode and leaves the rest of the desk. -/
theorem desk_operate_of_start? {s : Session} {operation : Operation} {address : String}
    {stopOnEntry noDebug : Bool}
    (h : operation.start? s.bridge.config = some (address, stopOnEntry, noDebug)) :
    (s.operate operation).2.desk =
      { s.desk with noDebug := if s.bridge.started then s.bridge.noDebug else noDebug } := by
  rw [operate_of_start? h]
  exact desk_of_holdings (holdings_start s address stopOnEntry noDebug)

/-- **Either a step does its deeds to the desk and nothing else, or it sets the mode.** -/
theorem done_step (s : Session) (x : Step) :
    Done s x.deeds (s.step x).2 ∨
      x.deeds = [] ∧ ∃ noDebug, (s.step x).2.desk = { s.desk with noDebug } := by
  cases x with
  | happening happening => exact Or.inl (Done.of_holdings (holdings_deliver s happening))
  | edit path contents => exact Or.inl (Done.of_eq rfl)
  | operation operation asides =>
      cases hstart : operation.start? s.bridge.config with
      | none =>
          have hset : Done s [] { s with asides } := Done.of_eq rfl
          exact Or.inl ((hset.trans (done_operate _ operation hstart)).still rfl)
      | some arguments =>
          have hdesk := desk_operate_of_start? (s := { s with asides }) hstart
          exact Or.inr ⟨Operation.deeds_of_start? hstart, _, hdesk⟩

end Session

end DebugBridge
