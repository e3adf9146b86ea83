/-
How often a file is read.

A cache asks for a file until it has been read once. What was read then is the source from there on,
whatever becomes of the file (`Settles`). So of the loads of one path those count that fail before
one succeeds, and that one (`readsToSettle`), and the loads of other paths have nothing to do with
it.

A bridge loads its sources through one cache. The files change between the steps of a run only, so a
reading succeeds exactly if the file can be read in that step, and that happens once for a path.
Here the log is the witness: it has an entry for each time a file was asked for, and these are
counted.
-/
import DebugBridge.Proofs.FirstLoad
import DebugBridge.Proofs.Independence
import Mathlib.Algebra.BigOperators.Group.Finset.Piecewise

namespace DebugBridge

/-! ### Loads

The first part is about a cache alone and about any sequence of loads, with files that may be
different at each of them. Nothing is assumed of how they change, so it covers files that appear,
change or go while a client works.
-/

/-- A load: what is loaded, and the cache and the files as they are then. -/
structure Visit where
  cache : SourceCache
  files : Files
  path : String

namespace Visit

def loaded (v : Visit) : SourceCache.Load := v.cache.load v.files v.path

def failed (v : Visit) : Bool := v.loaded.result.toOption.isNone

end Visit

/-- The loads of these paths one after the other, each with the files as they have become by then.
-/
def SourceCache.visits (cache : SourceCache) : List (Files × String) → List Visit
  | [] => []
  | (files, path) :: later => ⟨cache, files, path⟩ :: (cache.load files path).cache.visits later

/-- The loads of one path. As long as its file cannot be read, each of them asks for it, gives the
fault and leaves the cache as it is. The first that can read it takes in what the file holds then.
All later ones give that, ask for nothing and leave the cache as it is. -/
inductive Settles (path : String) : List Visit → Prop
  | nil : Settles path []
  | failed {v : Visit} {later : List Visit} {fault : SourceFault}
      (hread : v.files.read path = .error fault)
      (hload : v.loaded = ⟨.error (.io fault), v.cache, true⟩) (h : Settles path later) :
      Settles path (v :: later)
  | found {v : Visit} {later : List Visit} {contents : String}
      (hread : v.files.read path = .ok contents)
      (hload : v.loaded =
        ⟨.ok (.ofContents path contents), ⟨v.cache.texts ++ [.ofContents path contents]⟩, true⟩)
      (hlater : ∀ w ∈ later, w.loaded = ⟨.ok (.ofContents path contents), w.cache, false⟩) :
      Settles path (v :: later)

/-- The loads that fail before the first that succeeds, and that one if there is one. -/
def readsToSettle (visits : List Visit) : Nat :=
  (visits.takeWhile Visit.failed).length + (visits.any fun v => !v.failed).toNat

namespace SourceCache

/-- What is in the cache is given to every load. -/
theorem loaded_of_get?_eq_some {path : String} {source : SourceText}
    (loads : List (Files × String)) :
    ∀ {cache : SourceCache}, cache.get? path = some source →
      ∀ v ∈ cache.visits loads, v.path = path → v.loaded = ⟨.ok source, v.cache, false⟩ := by
  induction loads with
  | nil => exact fun _ _ hv => absurd hv List.not_mem_nil
  | cons load later ih =>
      obtain ⟨files, other⟩ := load
      intro cache hcached v hv hpath
      rcases List.mem_cons.1 hv with rfl | hv
      · subst hpath
        exact load_of_get?_eq_some hcached files
      · exact ih (get?_load_of_get?_eq_some hcached files other) v hv hpath

/-- As long as there is no source, the next load of the path asks for it. Loads of other paths may
come in between; they leave the entry of this path as it is, and are filtered out of what is said
about it. -/
theorem settles_visits {path : String} (loads : List (Files × String)) :
    ∀ {cache : SourceCache}, cache.get? path = none →
      Settles path ((cache.visits loads).filter fun v => v.path = path) := by
  induction loads with
  | nil => exact fun _ => .nil
  | cons load later ih =>
      obtain ⟨files, other⟩ := load
      intro cache hnone
      by_cases hother : other = path
      · subst hother
        rw [visits, List.filter_cons_of_pos (by simp)]
        cases hread : files.read other with
        | error fault =>
            have hload := load_of_unreadable hnone hread
            rw [hload]
            exact .failed hread hload (ih hnone)
        | ok contents =>
            have hload := load_of_readable hnone hread
            refine .found hread hload fun w hw => ?_
            obtain ⟨hw, hpath⟩ := List.mem_filter.1 hw
            have hcached : (cache.load files other).cache.get? other =
                some (.ofContents other contents) := get?_load_self (by rw [hload])
            exact loaded_of_get?_eq_some later hcached w hw (of_decide_eq_true hpath)
      · rw [visits, List.filter_cons_of_neg (by simpa using hother)]
        refine ih ?_
        rw [get?_load, if_neg fun h => hother h.symm, hnone]

end SourceCache

theorem Settles.countP_asked {path : String} {visits : List Visit} (h : Settles path visits) :
    visits.countP (·.loaded.asked) = readsToSettle visits := by
  induction h with
  | nil => rfl
  | @failed v later fault hread hload _ ih =>
      have hfailed : v.failed = true := by
        rw [Visit.failed, hload]
        rfl
      rw [List.countP_cons_of_pos (by rw [hload]), ih, readsToSettle, readsToSettle,
        List.takeWhile_cons_of_pos hfailed, List.length_cons, List.any_cons, hfailed]
      simp only [Bool.not_true, Bool.false_or]
      omega
  | @found v later contents hread hload hlater =>
      have hfound : v.failed = false := by
        rw [Visit.failed, hload]
        rfl
      have hnone : later.countP (·.loaded.asked) = 0 := by
        rw [List.countP_eq_zero]
        intro w hw
        simp [hlater w hw]
      rw [List.countP_cons_of_pos (by rw [hload]), hnone, readsToSettle,
        List.takeWhile_cons_of_neg (by simp [hfound]), List.any_cons, hfound]
      rfl

/-- What is counted in a list is counted in the parts of it that have one key each. -/
theorem countP_eq_sum {α β : Type} [DecidableEq β] (key : α → β) (p : α → Bool) (keys : Finset β)
    (as : List α) (hkeys : ∀ a ∈ as, key a ∈ keys) :
    as.countP p = ∑ k ∈ keys, (as.filter fun a => key a = k).countP p := by
  induction as with
  | nil => simp
  | cons a rest ih =>
      obtain ⟨ha, hrest⟩ := List.forall_mem_cons.1 hkeys
      have hpart : ∀ k, ((a :: rest).filter fun a => key a = k).countP p =
          (rest.filter fun a => key a = k).countP p + if key a = k then [a].countP p else 0 := by
        intro k
        by_cases hk : key a = k
        · rw [List.filter_cons_of_pos (by simpa using hk), if_pos hk, List.countP_cons,
            List.countP_singleton]
        · rw [List.filter_cons_of_neg (by simpa using hk), if_neg hk, Nat.add_zero]
      simp only [hpart]
      rw [Finset.sum_add_distrib, ← ih hrest, Finset.sum_ite_eq, if_pos ha, List.countP_cons,
        List.countP_singleton]

namespace Session

/-! ### A bridge

In a session a load is one part of an operation among others, and one operation may load the same
path many times. That a successful reading and the entry of the source into the cache come together
is an equation between counts, so it adds up over the parts of an operation and over the steps of a
run.
-/

/-- How often a file is read with success in a step. -/
def readsAt (path : String) (s : Session) (x : Step) : Nat :=
  if (s.files.read path).toOption.isSome then ((s.step x).2.effectsSince s.log).count (.read path)
  else 0

/-- How often a file is read with success in a run. -/
def readsIn (path : String) (s : Session) : List Step → Nat
  | [] => 0
  | x :: steps => readsAt path s x + readsIn path (s.step x).2 steps

/-- Whether the cache has a source for a path, as a number. -/
def sourcesOf (s : Session) (path : String) : Nat := (s.bridge.sources.get? path).isSome.toNat

/-- A load of a file that can be read asks for it exactly if that brings the source in. -/
theorem coversLoads_reads (path : String) : CoversLoads fun s t =>
    t.files = s.files ∧ ∀ contents, s.files.read path = .ok contents →
      t.log.count (.read path) + s.sourcesOf path =
        s.log.count (.read path) + t.sourcesOf path where
  refl _ := ⟨rfl, fun _ _ => rfl⟩
  trans := by
    intro s t u h h'
    refine ⟨h'.1.trans h.1, fun contents hread => ?_⟩
    have hfirst := h.2 contents hread
    have hsecond := h'.2 contents (h.1 ▸ hread)
    omega
  load s other := by
    cases hcached : s.bridge.sources.get? other with
    | some source =>
        rw [load_of_cached hcached]
        exact ⟨rfl, fun _ _ => rfl⟩
    | none =>
        cases hother : s.files.read other with
        | error fault =>
            rw [load_of_unreadable hcached hother]
            refine ⟨rfl, fun contents hread => ?_⟩
            have hne : other ≠ path := by
              intro hsame
              rw [← hsame, hother] at hread
              cases hread
            simp [note, sourcesOf, hne]
        | ok contents =>
            rw [load_of_readable hcached hother]
            refine ⟨rfl, fun _ _ => ?_⟩
            by_cases hpath : other = path
            · subst hpath
              simp [takeIn, sourcesOf, hcached, SourceCache.get?_add, SourceText.ofContents]
            · simp [takeIn, sourcesOf, hpath, SourceCache.get?_add, SourceText.ofContents]
  registry _ _ := ⟨rfl, fun _ _ => rfl⟩
  verified s b := by
    refine ⟨rfl, fun _ _ => ?_⟩
    simp [note, sourcesOf]

/-- A step that does not deal with breakpoints loads no source and reads no file. -/
theorem loads_nothing (s : Session) {x : Step} (h : x.onBreakpoints = false) :
    (s.step x).2.bridge.sources = s.bridge.sources ∧ deskOf (s.step x).2.log = deskOf s.log := by
  by_cases hsession : x.onSession = true
  · have hdesk := deskOnly_step_of_onSession s hsession
    exact ⟨(congrArg (fun u : Session => u.bridge.sources) hdesk :), (congrArg log hdesk :)⟩
  · cases x with
    | happening => exact absurd rfl hsession
    | edit => exact ⟨rfl, rfl⟩
    | operation operation asides =>
        cases hstart : operation.start? s.bridge.config with
        | some arguments =>
            have hdesk : (({ s with asides } : Session).operate operation).2.deskOnly =
                ({ s with asides } : Session).deskOnly.attempted arguments.2.2 := by
              rw [operate_of_start? (s := { s with asides }) hstart]
              exact deskOnly_start _ _ _ _
            exact ⟨(congrArg (fun u : Session => u.bridge.sources) hdesk :), (congrArg log hdesk :)⟩
        | none =>
            cases operation with
            | runState => exact ⟨rfl, rfl⟩
            | start | startConfigured => simp [Operation.start?] at hstart
            | setBreakpoint | setBreakpoints | clearBreakpoint | clearBreakpoints | breakpoints
            | breakColumns => exact absurd h.symm Bool.false_ne_true
            | _ => exact absurd rfl hsession

theorem count_read_deskOf (log : List Effect) (path : String) :
    (deskOf log).count (.read path) = log.count (.read path) := by
  rw [deskOf, List.count_filter rfl]

/-- In a step a file is read with success exactly if that brings its source in. -/
theorem readsAt_add_sourcesOf (path : String) (s : Session) (x : Step) :
    readsAt path s x + s.sourcesOf path = (s.step x).2.sourcesOf path := by
  cases hread : s.files.read path with
  | error fault =>
      have hsame : (s.step x).2.bridge.sources.get? path = s.bridge.sources.get? path := by
        rcases s.grows_step x path with hsame | ⟨-, contents, hcontents, -⟩
        · exact hsame
        · simp [hread] at hcontents
      simp [readsAt, hread, Except.toOption, sourcesOf, hsame]
  | ok contents =>
      -- Until the step is over the file stays as it is, so whoever asks for it reads it.
      have hlog : (s.step x).2.log.count (.read path) = s.log.count (.read path) +
          readsAt path s x := by
        rw [log_step, List.count_append, readsAt, hread]
        rfl
      have hbalance : (s.step x).2.log.count (.read path) + s.sourcesOf path =
          s.log.count (.read path) + (s.step x).2.sourcesOf path := by
        cases h : x.onBreakpoints with
        | true =>
            cases x with
            | happening | edit => simp [Step.onBreakpoints] at h
            | operation operation asides =>
                exact ((coversLoads_reads path).operate { s with asides } h).2 contents hread
        | false =>
            obtain ⟨hsources, hdesk⟩ := s.loads_nothing h
            rw [← count_read_deskOf, hdesk, count_read_deskOf, sourcesOf, sourcesOf, hsources]
      omega

/-- In a run, too: a path that was not in the cache and is in it afterwards was read once, and any
other path was not. -/
theorem readsIn_add_sourcesOf (path : String) (steps : List Step) :
    ∀ s : Session, readsIn path s steps + s.sourcesOf path = (s.run steps).sourcesOf path := by
  induction steps with
  | nil => exact fun s => Nat.zero_add _
  | cons x rest ih =>
      intro s
      have hfirst := readsAt_add_sourcesOf path s x
      have hrest := ih (s.step x).2
      rw [readsIn, run_cons]
      omega

/-- **A source is read once.** In every sequence of loads, with the files in any state at each of
them, the first load of a path that succeeds fixes its source, and those before fail with the fault
of the file and leave no trace. So the files are asked for as often as there are loads that fail
before the first success of their path, and once more for each path that has one. In every run of a
bridge, a file is read with success as often as its source enters the cache, and that is once at
most.

The first part is about a cache on its own and any loads, and the last about sessions, where loads
come with operations. Both rest on what one load does, which is to bring in the source or to leave
the cache as it is. -/
theorem sources_are_read_once (loads : List (Files × String)) (s : Session) (steps : List Step) :
    let visits := SourceCache.empty.visits loads
    (∀ path, Settles path (visits.filter fun v => v.path = path)) ∧
      visits.countP (·.loaded.asked) =
        ∑ path ∈ (visits.map Visit.path).toFinset,
          readsToSettle (visits.filter fun v => v.path = path) ∧
      ∀ path, readsIn path s steps + s.sourcesOf path = (s.run steps).sourcesOf path ∧
        readsIn path s steps ≤ 1 := by
  intro visits
  have hsettles : ∀ path, Settles path (visits.filter fun v => v.path = path) :=
    fun path => SourceCache.settles_visits loads rfl
  refine ⟨hsettles, ?_, fun path => ?_⟩
  · -- The count is split by path, and for each path its loads settle.
    have hpaths : ∀ v ∈ visits, v.path ∈ (visits.map Visit.path).toFinset :=
      fun v hv => List.mem_toFinset.2 (List.mem_map_of_mem hv)
    rw [countP_eq_sum Visit.path (·.loaded.asked) _ visits hpaths]
    exact Finset.sum_congr rfl fun path _ => (hsettles path).countP_asked
  · have hrun := readsIn_add_sourcesOf path steps s
    have hone : (s.run steps).sourcesOf path ≤ 1 := Bool.toNat_le _
    refine ⟨hrun, ?_⟩
    omega

/-- A file that is missing at first, and changes once it has been read. -/
example :
    (SourceCache.empty.visits
      [(.named [], "a"), (.named [("a", .text "1")], "a"), (.named [("a", .text "2")], "a")]).map
        Visit.loaded =
      [⟨.error (.io (.notFound "a")), ⟨[]⟩, true⟩, ⟨.ok ⟨"a", ["1"]⟩, ⟨[⟨"a", ["1"]⟩]⟩, true⟩,
        ⟨.ok ⟨"a", ["1"]⟩, ⟨[⟨"a", ["1"]⟩]⟩, false⟩] := by
  rfl

end Session

end DebugBridge
