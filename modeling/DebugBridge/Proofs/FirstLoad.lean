/-
Where the sources in the cache come from.

A source enters the cache in one step, from what its file holds then, and it never leaves or changes
(`LoadedFrom`). Files change between steps only, so the contents that a source was loaded from are
those that could be read right before that step.

So the cache of a run is known from the files over its course, whatever was done in between: an
entry is there exactly if some step has found the path without one and the file readable
(`get?_run_eq_some_iff`).
-/
import DebugBridge.Proofs.Deeds
import Mathlib.Data.List.Infix

namespace DebugBridge

/-- What the cache has of a path is what it had, or it had nothing and the file was read. -/
def SourceCache.Grows (files : Files) (path : String) (before after : SourceCache) : Prop :=
  after.get? path = before.get? path ∨
    before.get? path = none ∧ ∃ contents, files.read path = .ok contents ∧
      after.get? path = some (.ofContents path contents)

namespace SourceCache.Grows

variable {files : Files} {path : String} {before between after : SourceCache}

theorem refl (cache : SourceCache) : Grows files path cache cache := .inl rfl

theorem of_eq (h : after = before) : Grows files path before after := .inl (by rw [h])

theorem trans (h : Grows files path before between) (h' : Grows files path between after) :
    Grows files path before after := by
  rcases h' with h' | ⟨hnone, contents, hread, h'⟩
  · rcases h with h | ⟨hnone, contents, hread, h⟩
    · exact .inl (h'.trans h)
    · exact .inr ⟨hnone, contents, hread, h'.trans h⟩
  · rcases h with h | ⟨-, _, -, h⟩
    · exact .inr ⟨h ▸ hnone, contents, hread, h'⟩
    · simp [hnone] at h

theorem load (cache : SourceCache) (files : Files) (other path : String) :
    Grows files path cache (cache.load files other).cache := by
  by_cases hpath : path = other
  · subst hpath
    cases hcached : cache.get? path with
    | some source => exact .inl (by rw [load_of_get?_eq_some hcached])
    | none =>
        cases hread : files.read path with
        | error fault => exact .of_eq (by rw [load_of_unreadable hcached hread])
        | ok contents =>
            exact .inr ⟨hcached, contents, hread,
              get?_load_self (by rw [load_of_readable hcached hread])⟩
  · exact .inl (by rw [get?_load, if_neg hpath])

end SourceCache.Grows

open SourceCache (Grows)

namespace Session

/-! ### One load

A load has three outcomes, and each is an equation for the whole session: the source is in the
cache, and nothing changes; the file cannot be read, and the attempt is noted; or it is read and
taken in.
-/

section Load

variable {s : Session} {path : String}

theorem load_of_cached {source : SourceText} (h : s.bridge.sources.get? path = some source) :
    s.load path = (.ok source, s) := by
  rw [load, SourceCache.load_of_get?_eq_some h]
  rfl

/-- The session when a source was read into its cache. -/
def takeIn (s : Session) (path contents : String) : Session :=
  { s with
    bridge := { s.bridge with sources := ⟨s.bridge.sources.texts ++ [.ofContents path contents]⟩ }
    log := s.log ++ [.read path] }

section Uncached

variable (hnone : s.bridge.sources.get? path = none)
include hnone

theorem load_of_unreadable {fault : SourceFault} (hread : s.files.read path = .error fault) :
    s.load path = (.error (.io fault), s.note (.read path)) := by
  rw [load, SourceCache.load_of_unreadable hnone hread]
  rfl

theorem get?_takeIn {contents : String} :
    (s.takeIn path contents).bridge.sources.get? path = some (.ofContents path contents) := by
  show SourceCache.get? ⟨s.bridge.sources.texts ++ [_]⟩ path = _
  rw [SourceCache.get?_add, hnone, Option.none_or, if_pos]
  rfl

theorem load_of_readable {contents : String} (hread : s.files.read path = .ok contents) :
    s.load path = (.ok (.ofContents path contents), s.takeIn path contents) := by
  rw [load, SourceCache.load_of_readable hnone hread]
  rfl

end Uncached

end Load

/-! ### Every step

That a path grows is a preorder, so it carries over from a load to every operation on breakpoints by
`Proofs/Covering.lean`. The other operations have no part in it, since they leave the desk as it is.
-/

theorem coversDesk_grows (path : String) : CoversDesk fun s t =>
    t.files = s.files ∧ Grows s.files path s.bridge.sources t.bridge.sources where
  refl _ := ⟨rfl, .refl _⟩
  trans h h' := ⟨h'.1.trans h.1, h.2.trans (h.1 ▸ h'.2)⟩
  sources _ other := ⟨rfl, .load _ _ other path⟩
  read _ _ := ⟨rfl, .refl _⟩
  registry _ _ := ⟨rfl, .refl _⟩
  verified _ _ := ⟨rfl, .refl _⟩

/-- Nothing done to a desk leaves it as it is. -/
theorem Done.desk_eq {s t : Session} (h : Done s [] t) : t.desk = s.desk := by
  generalize hdeeds : ([] : List Deed) = deeds at h
  induction h with
  | refl => rfl
  | still _ hdesk ih => exact hdesk.trans (ih hdeeds)
  | deed => simp at hdeeds

theorem grows_operate (s : Session) (operation : Operation) (path : String) :
    Grows s.files path s.bridge.sources (s.operate operation).2.bridge.sources := by
  cases hstart : operation.start? s.bridge.config with
  | some arguments =>
      exact .of_eq (congrArg Desk.sources (desk_operate_of_start? hstart))
  | none =>
      have hdone := done_operate s operation hstart
      cases operation with
      | setBreakpoint | setBreakpoints | clearBreakpoint | clearBreakpoints | breakpoints
      | breakColumns => exact ((coversDesk_grows path).operate s rfl).2
      | _ => exact .of_eq (congrArg Desk.sources hdone.desk_eq)

/-- A step loads sources from the files as they are before it. -/
theorem grows_step (s : Session) (x : Step) (path : String) :
    Grows s.files path s.bridge.sources (s.step x).2.bridge.sources := by
  cases x with
  | operation operation asides => exact grows_operate { s with asides } operation path
  | happening happening =>
      exact .of_eq (congrArg Desk.sources (desk_eq_of_holdings (s.holdings_deliver happening)))
  | edit => exact .refl _

/-! ### Every run

A source that is there stays, by induction over the run. Where one comes from is shown from the end
of the run: either it was there before the last step, or the last step has brought it in.
-/

theorem get?_step {s : Session} {path : String} {source : SourceText}
    (h : s.bridge.sources.get? path = some source) (x : Step) :
    (s.step x).2.bridge.sources.get? path = some source := by
  rcases s.grows_step x path with hsame | ⟨hnone, -⟩
  · exact hsame.trans h
  · simp [hnone] at h

/-- What is in the cache stays there. -/
theorem get?_run {s : Session} {path : String} {source : SourceText}
    (h : s.bridge.sources.get? path = some source) (steps : List Step) :
    (s.run steps).bridge.sources.get? path = some source := by
  induction steps generalizing s with
  | nil => exact h
  | cons x rest ih => exact ih (get?_step h x)

/-- In this run, the source of a path was loaded from these contents: there was none, the file could
be read, and the next step brought in what it held. -/
def LoadedFrom (s : Session) (steps : List Step) (path contents : String) : Prop :=
  ∃ before x, before ++ [x] <+: steps ∧
    (s.run before).bridge.sources.get? path = none ∧
    (s.run before).files.read path = .ok contents ∧
    (s.run (before ++ [x])).bridge.sources.get? path = some (.ofContents path contents)

namespace LoadedFrom

variable {s : Session} {steps more : List Step} {path contents : String}

theorem mono (h : s.LoadedFrom steps path contents) (hmore : steps <+: more) :
    s.LoadedFrom more path contents := by
  obtain ⟨before, x, hbefore, hload⟩ := h
  exact ⟨before, x, hbefore.trans hmore, hload⟩

theorem get? (h : s.LoadedFrom steps path contents) :
    (s.run steps).bridge.sources.get? path = some (.ofContents path contents) := by
  obtain ⟨before, x, ⟨after, rfl⟩, -, -, hloaded⟩ := h
  rw [run_append]
  exact get?_run hloaded after

end LoadedFrom

/-- **What is in the cache was loaded in some step, from what the file held then.** And what was
loaded so is in the cache, however the run goes on and whatever becomes of the file. -/
theorem get?_run_eq_some_iff {s : Session} {path : String}
    (hnone : s.bridge.sources.get? path = none) (steps : List Step) {source : SourceText} :
    (s.run steps).bridge.sources.get? path = some source ↔
      ∃ contents, s.LoadedFrom steps path contents ∧ source = .ofContents path contents := by
  constructor
  · intro hsource
    induction steps using List.reverseRecOn with
    | nil => simp [hnone] at hsource
    | append_singleton before x ih =>
        have hstep : s.run (before ++ [x]) = ((s.run before).step x).2 := by rw [run_append]; rfl
        rw [hstep] at hsource
        rcases (s.run before).grows_step x path with hsame | ⟨hempty, contents, hread, hloaded⟩
        · obtain ⟨contents, hloaded, rfl⟩ := ih (hsame ▸ hsource)
          exact ⟨contents, hloaded.mono (List.prefix_append before [x]), rfl⟩
        · rw [hloaded] at hsource
          refine ⟨contents, ⟨before, x, List.prefix_rfl, hempty, hread, ?_⟩, ?_⟩
          · rw [hstep, hloaded]
          · exact (Option.some.inj hsource).symm
  · rintro ⟨contents, hloaded, rfl⟩
    exact hloaded.get?

end Session

end DebugBridge
