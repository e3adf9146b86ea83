/-
Breakpoints in sources that are in the cache.

While a client debugs, one expects of these that they are verified exactly if the source has their
line (`Desk.UpToDate`). Adding a breakpoint sees to that for its path. But a source can also come
into the cache because its columns are asked for, and that verifies nothing: a breakpoint that was
added when the source could not be read goes on waiting, with its source in the cache. Such a step
`LoadsLate`, and nothing else breaks the rule.

What is proved is an equivalence over all states of a run, so it says when the expectation can be
relied on and not just that it can fail. A client that never asks for columns before it could read
the file is on the safe side, and one that did can add its breakpoint again.
-/
import DebugBridge.Proofs.Verification
import Mathlib.Data.List.Infix

namespace DebugBridge

/-- Of the breakpoints on a path, those are verified whose line the source in the cache has. Where
there is no source in the cache, anything goes. -/
def Desk.UpToDate (d : Desk) (path : String) : Prop :=
  ∀ source, d.sources.get? path = some source → ∀ b ∈ d.registry.list path,
    (b.verified = true ↔ b.line.toNat < source.lineCount)

/-- Breakpoints may go. -/
theorem Desk.UpToDate.of_subset {d e : Desk} {path : String} (h : d.UpToDate path)
    (hlist : e.registry.list path ⊆ d.registry.list path)
    (hsource : e.sources.get? path = d.sources.get? path) : e.UpToDate path :=
  fun source hget b hb => h source (hsource ▸ hget) b (hlist hb)

theorem Desk.UpToDate.of_eq {d e : Desk} {path : String} (h : d.UpToDate path)
    (hlist : e.registry.list path = d.registry.list path)
    (hsource : e.sources.get? path = d.sources.get? path) : e.UpToDate path :=
  h.of_subset (by rw [hlist]; exact List.Subset.refl _) hsource

namespace Recorded

variable {d : Desk} {places : List (String × UInt32)}

/-- What is verified was found in the source that the cache has. -/
theorem line_lt (h : Recorded d places) {b : Breakpoint} (hb : b ∈ d.registry.breakpoints)
    (hverified : b.verified = true) :
    ∃ source, d.sources.get? b.path = some source ∧ b.line.toNat < source.lineCount :=
  (h.seen b (h.told b hb hverified)).2

/-- Where the source is in the cache, verifying the path brings all of its breakpoints up to date,
also those that were added before the source could be read. -/
theorem upToDate_verify (h : Recorded d places) {path : String} {source : SourceText}
    (hsource : d.sources.get? path = some source) (told : List Breakpoint) :
    Desk.UpToDate
      { d with registry := (d.registry.verify path source.lineCount).2, told } path := by
  intro source' hsource' b hb
  obtain rfl : source = source' := Option.some.inj (hsource.symm.trans hsource')
  rw [Registry.list_verify] at hb
  obtain ⟨a, ha, rfl⟩ := List.mem_map.1 hb
  obtain ⟨hmem, hpath⟩ := Registry.mem_list.1 ha
  cases hchanged : Registry.becomesVerified path source.lineCount a with
  | true =>
      rw [Registry.verifyOne_of_becomesVerified hchanged]
      simpa using (Registry.verified_of_becomesVerified hchanged).2.1
  | false =>
      rw [Registry.verifyOne_of_not hchanged]
      refine ⟨fun hverified => ?_, fun hline => ?_⟩
      · obtain ⟨source', hsource', hline⟩ := h.line_lt hmem hverified
        rw [hpath, hsource] at hsource'
        rwa [Option.some.inj hsource']
      · simpa [Registry.becomesVerified, hpath, hline] using hchanged

end Recorded

namespace Session

variable {s : Session} {places : List (String × UInt32)}

/-! ### What keeps breakpoints up to date

Adding a breakpoint looks at all breakpoints on its path and leaves those on other paths as they
are. Taking breakpoints away keeps what is said of those that stay. What is said of a path does not
depend on any other, so each deed is checked on its own path and on the others.
-/

theorem upToDate_setBreakpoint (h : Recorded s.desk places) (hmode : s.bridge.noDebug = false)
    (path : String) (line : UInt32) : (s.setBreakpoint path line).2.desk.UpToDate path := by
  obtain ⟨hdebug, -⟩ | ⟨-, ⟨failure, hfailed⟩, hdesk⟩ | ⟨-, source, hsource, hdesk⟩ :=
    s.setBreakpoint_cases path line
  · exact absurd (hmode.symm.trans hdebug) nofun
  · intro source hcached
    rw [hdesk] at hcached
    simp [SourceCache.get?_load, hfailed, Except.toOption] at hcached
  · have hloaded := (h.add path line).load s.files path
    rw [hdesk]
    exact hloaded.upToDate_verify (SourceCache.get?_load_self hsource) _

theorem upToDate_setBreakpoint_of_ne {path other : String} (hne : other ≠ path)
    (hup : s.desk.UpToDate other) (line : UInt32) :
    (s.setBreakpoint path line).2.desk.UpToDate other := by
  have hlist : (s.bridge.registry.add path line).2.list other = s.bridge.registry.list other := by
    rw [Registry.list_add, if_neg fun h => hne h.symm, List.append_nil]
  have hsources : (s.bridge.sources.load s.files path).cache.get? other =
      s.bridge.sources.get? other := by
    rw [SourceCache.get?_load, if_neg hne]
  obtain ⟨-, hdesk⟩ | ⟨-, -, hdesk⟩ | ⟨-, source, -, hdesk⟩ := s.setBreakpoint_cases path line
  · rw [hdesk]
    exact hup.of_eq hlist rfl
  · rw [hdesk]
    exact hup.of_eq hlist hsources
  · rw [hdesk]
    exact hup.of_eq ((Registry.list_verify_of_ne _ hne _).trans hlist) hsources

/-- Every deed but a look keeps the breakpoints on all paths up to date. -/
theorem upToDate_perform (h : Recorded s.desk places) (hmode : s.bridge.noDebug = false)
    (hup : ∀ path, s.desk.UpToDate path) {d : Deed} (hd : ∀ path, d ≠ .look path) (path : String) :
    (s.perform d).desk.UpToDate path := by
  cases d with
  | put other line =>
      by_cases hpath : path = other
      · rw [hpath]
        exact upToDate_setBreakpoint h hmode other line
      · exact upToDate_setBreakpoint_of_ne hpath (hup path) line
  | take other line =>
      exact (hup path).of_subset (List.eraseP_sublist.filter _).subset rfl
  | sweep other =>
      exact (hup path).of_subset (List.filter_sublist.filter _).subset rfl
  | look other => exact absurd rfl (hd other)

theorem coversDesk_noDebug : CoversDesk fun s t => t.bridge.noDebug = s.bridge.noDebug :=
  .same (fun _ _ => rfl) (fun _ _ => rfl) (fun _ _ => rfl) (fun _ _ => rfl)

theorem noDebug_perform (s : Session) (d : Deed) :
    (s.perform d).bridge.noDebug = s.bridge.noDebug := by
  cases d with
  | put path line => exact coversDesk_noDebug.loads.setBreakpoint s path line
  | take | sweep => rfl
  | look path => exact coversDesk_noDebug.load s path

theorem Done.upToDate {t : Session} {deeds : List Deed} (hdone : Done s deeds t)
    (h : Recorded s.desk places) (hmode : s.bridge.noDebug = false)
    (hup : ∀ path, s.desk.UpToDate path) (hdeeds : ∀ path, .look path ∉ deeds) :
    ∀ path, t.desk.UpToDate path := by
  suffices key : (∀ path, .look path ∉ deeds) → t.bridge.noDebug = false ∧
      Recorded t.desk (places ++ deeds.filterMap Deed.place?) ∧ ∀ path, t.desk.UpToDate path from
    (key hdeeds).2.2
  refine hdone.preserves
    (P := fun deeds t => (∀ path, .look path ∉ deeds) → t.bridge.noDebug = false ∧
      Recorded t.desk (places ++ deeds.filterMap Deed.place?) ∧ ∀ path, t.desk.UpToDate path)
    ?_ ?_ ?_
  · intro deeds t u hdesk ht hdeeds
    obtain ⟨hmode, hrest⟩ := ht hdeeds
    exact ⟨(congrArg Desk.noDebug hdesk).trans hmode, hdesk ▸ hrest⟩
  · intro deeds t d ht hdeeds
    obtain ⟨hmode, hrecorded, hup⟩ := ht fun path hmem => hdeeds path (by simp [hmem])
    refine ⟨(noDebug_perform t d).trans hmode, ?_, ?_⟩
    · have hone := (Done.one t d).recorded hrecorded
      rwa [List.append_assoc, ← List.filterMap_append] at hone
    · refine upToDate_perform hrecorded hmode hup fun path hd => ?_
      exact hdeeds path (by simp [hd])
  · intro _
    exact ⟨hmode, by simpa using h, hup⟩

/-! ### What does not

Asking for columns loads the source like an addition does, and stops there. It does no harm if the
source is in the cache, or cannot be read, or if no breakpoint waits for a line that it has; in
every other case the rule is broken right after it.
-/

/-- A step that brings a source into the cache without a look at the breakpoints that wait for it.
-/
def LoadsLate (s : Session) (x : Step) : Prop :=
  ∃ path line asides contents, x = .operation (.breakColumns path line) asides ∧
    s.bridge.sources.get? path = none ∧ s.files.read path = .ok contents ∧
    ∃ b ∈ s.bridge.registry.list path, b.line.toNat <
      (SourceText.ofContents path contents).lineCount

/-- Where nothing is in the cache, nothing is verified. -/
theorem not_verified_of_get?_eq_none (h : Recorded s.desk places) {path : String}
    (hnone : s.bridge.sources.get? path = none) {b : Breakpoint}
    (hb : b ∈ s.bridge.registry.list path) : b.verified = false := by
  obtain ⟨hmem, hpath⟩ := Registry.mem_list.1 hb
  refine Bool.eq_false_iff.2 fun hverified => ?_
  obtain ⟨source, hsource, -⟩ := h.line_lt hmem hverified
  have hcached : s.bridge.sources.get? path = some source := hpath ▸ hsource
  exact absurd (hnone.symm.trans hcached) nofun

/-- To look for columns leaves every path up to date, unless a source comes in for which breakpoints
are waiting. -/
theorem upToDate_breakColumns (h : Recorded s.desk places) (hup : ∀ path, s.desk.UpToDate path)
    {path : String} {line : UInt32} {asides : List (List Happening)}
    (hlate : ¬ s.LoadsLate (.operation (.breakColumns path line) asides)) (other : String) :
    (s.load path).2.desk.UpToDate other := by
  rw [desk_load]
  by_cases hother : other = path
  · subst hother
    cases hcached : s.bridge.sources.get? other with
    | some source =>
        refine (hup other).of_eq rfl ?_
        exact (SourceCache.get?_load_of_get?_eq_some hcached _ _).trans hcached.symm
    | none =>
        intro source hsource b hb
        have hwaits : b.verified = false := not_verified_of_get?_eq_none h hcached hb
        rw [SourceCache.get?_load, if_pos rfl] at hsource
        cases hread : s.files.read other with
        | error fault =>
            rw [SourceCache.load, hcached, hread] at hsource
            cases hsource
        | ok contents =>
            rw [SourceCache.load_of_readable hcached hread] at hsource
            obtain rfl := Option.some.inj hsource
            have hline := fun hline =>
              hlate ⟨other, line, asides, contents, rfl, hcached, hread, b, hb, hline⟩
            exact iff_of_false (by simp [hwaits]) hline
  · refine (hup other).of_eq rfl ?_
    show (s.bridge.sources.load s.files path).cache.get? other = s.bridge.sources.get? other
    rw [SourceCache.get?_load, if_neg hother]

/-- A step keeps the breakpoints up to date unless it loads a source late. -/
theorem upToDate_step (h : Recorded s.desk places) (hmode : s.bridge.noDebug = false)
    (hup : ∀ path, s.desk.UpToDate path) {x : Step} (hlate : ¬ s.LoadsLate x) :
    ∀ path, (s.step x).2.desk.UpToDate path := by
  by_cases hlook : ∃ path, .look path ∈ x.deeds
  · obtain ⟨path, hlook⟩ := hlook
    cases x with
    | happening | edit => simp [Step.deeds] at hlook
    | operation operation asides =>
        cases operation <;> simp [Step.deeds, Operation.deeds] at hlook
        subst hlook
        exact upToDate_breakColumns (s := { s with asides }) h hup hlate
  · obtain hdone | ⟨-, noDebug, hdesk⟩ := s.done_step x
    · exact hdone.upToDate h hmode hup fun path hmem => hlook ⟨path, hmem⟩
    · rw [hdesk]
      exact hup

theorem not_upToDate_of_late (h : Recorded s.desk places) {x : Step} (hlate : s.LoadsLate x) :
    ∃ path, ¬ (s.step x).2.desk.UpToDate path := by
  obtain ⟨path, line, asides, contents, rfl, hnone, hread, b, hb, hline⟩ := hlate
  refine ⟨path, fun hup => ?_⟩
  have hload := desk_load { s with asides } path
  have hcached := SourceCache.get?_load_self (by rw [SourceCache.load_of_readable hnone hread])
  change ({ s with asides }.load path).2.desk.UpToDate path at hup
  rw [hload] at hup
  have hverified := (hup _ hcached b hb).2 hline
  rw [not_verified_of_get?_eq_none h hnone hb] at hverified
  exact absurd hverified nofun

/-! ### Every run

Up to the first late load each state follows from the one before. The converse needs one step only:
the state behind a late load is not up to date.
-/

theorem upToDate_run (steps : List Step) :
    ∀ (s : Session) (places : List (String × UInt32)), Recorded s.desk places →
      (∀ path, s.desk.UpToDate path) →
      (∀ before, before <+: steps → (s.run before).bridge.noDebug = false) →
      (∀ before x, before ++ [x] <+: steps → ¬ (s.run before).LoadsLate x) →
      ∀ path, (s.run steps).desk.UpToDate path := by
  induction steps with
  | nil => exact fun s _ _ hup _ _ => hup
  | cons x rest ih =>
      intro s places h hup hmode hlate
      have hfirst : ¬ s.LoadsLate x := hlate [] x (by simp)
      have hrecorded := recorded_run [x] s places h
      refine ih (s.step x).2 _ hrecorded (upToDate_step h (hmode [] List.nil_prefix) hup hfirst)
        ?_ ?_
      · exact fun before hbefore => hmode (x :: before) (List.cons_prefix_cons.2 ⟨rfl, hbefore⟩)
      · exact fun before y hbefore => hlate (x :: before) y (List.cons_prefix_cons.2 ⟨rfl, hbefore⟩)

/-- **While a client debugs, its breakpoints are up to date in every state exactly when no step
loads a source late.** Whatever was loaded late, adding a breakpoint brings its path up to date, and
that goes for all breakpoints on the path and not just for the one that is added.

Any other step keeps every path up to date (`upToDate_step`). One that loads late leaves a
breakpoint behind that is in the source and not verified, and this can be seen in the state right
after it (`not_upToDate_of_late`). -/
theorem up_to_date_iff_never_loads_late (config : Config) (debuggee : Debuggee) (files : Files)
    (steps : List Step)
    (hmode : ∀ before, before <+: steps →
      ((new config debuggee files).run before).bridge.noDebug = false) :
    ((∀ before, before <+: steps → ∀ path,
        ((new config debuggee files).run before).desk.UpToDate path) ↔
      ∀ before x, before ++ [x] <+: steps →
        ¬ ((new config debuggee files).run before).LoadsLate x) ∧
      ∀ path line asides,
        (((new config debuggee files).run steps).step
          (.operation (.setBreakpoint path line) asides)).2.desk.UpToDate path := by
  have hnew := recorded_new config debuggee files
  have hrecorded := fun steps => recorded_run steps _ _ hnew
  refine ⟨⟨fun hup before x hbefore hlate => ?_, fun hlate before hbefore => ?_⟩, ?_⟩
  · obtain ⟨path, hnot⟩ := not_upToDate_of_late (hrecorded before) hlate
    have hafter := hup (before ++ [x]) hbefore path
    rw [run_append] at hafter
    exact hnot hafter
  · refine upToDate_run before _ _ hnew (fun _ _ hsource => absurd hsource nofun) ?_ ?_
    · exact fun first hfirst => hmode first (hfirst.trans hbefore)
    · exact fun first x hfirst => hlate first x (hfirst.trans hbefore)
  · intro path line asides
    exact upToDate_setBreakpoint
      (s := { (new config debuggee files).run steps with asides }) (hrecorded steps)
      (hmode steps List.prefix_rfl) path line

/-- A file that cannot be read at first, and is then looked at for its columns. -/
theorem late_load_leaves_waiting :
    let steps : List Step :=
      [.operation (.setBreakpoint "main.nut" 0), .edit "main.nut" (some (.text "local a = 1")),
        .operation (.breakColumns "main.nut" 0)]
    let s₀ := new .initial ⟨"localhost", 8000, false, .refused, [], false⟩ (.named [])
    (∀ before ∈ steps.inits, (s₀.run before).bridge.noDebug = false) ∧
      ¬ (s₀.run steps).desk.UpToDate "main.nut" := by
  refine ⟨by decide +kernel, fun hup => ?_⟩
  have hverified := hup ⟨"main.nut", ["local a = 1"]⟩ (by decide +kernel)
    ⟨1, "main.nut", 0, false⟩ (by decide +kernel)
  exact absurd hverified (by decide)

/-- A client that adds its breakpoint again when the file can be read, and then looks at it. -/
theorem up_to_date_after_adding_again :
    let steps : List Step :=
      [.operation (.setBreakpoint "main.nut" 0), .edit "main.nut" (some (.text "local a = 1")),
        .operation (.setBreakpoint "main.nut" 0), .operation (.breakColumns "main.nut" 0)]
    let s₀ := new .initial ⟨"localhost", 8000, false, .refused, [], false⟩ (.named [])
    (∀ before, before <+: steps → (s₀.run before).bridge.noDebug = false) ∧
      ∀ before, before <+: steps → ∀ path, (s₀.run before).desk.UpToDate path := by
  intro steps s₀
  have hmode : ∀ before, before <+: steps → (s₀.run before).bridge.noDebug = false := by
    have hinits : ∀ before ∈ steps.inits, (s₀.run before).bridge.noDebug = false := by
      decide +kernel
    exact fun before hbefore => hinits before ((List.mem_inits _ _).2 hbefore)
  refine ⟨hmode, (up_to_date_iff_never_loads_late _ _ _ steps hmode).1.2 ?_⟩
  rintro before x hbefore ⟨path, line, asides, contents, rfl, hnone, -⟩
  -- The only look is the last step, and by then the source is in the cache.
  have hlook : before ++ [.operation (.breakColumns path line) asides] = steps := by
    have hmem := (List.mem_inits _ _).2 hbefore
    have hlast := List.getLast?_concat (l := before)
      (a := Step.operation (.breakColumns path line) asides)
    generalize before ++ [.operation (.breakColumns path line) asides] = first at hmem hlast
    simp only [steps, List.inits, List.map_cons, List.map_nil, List.mem_cons] at hmem
    rcases hmem with rfl | rfl | rfl | rfl | rfl | hnot <;> simp_all [steps]
  have hbefore : before = steps.dropLast := by rw [← hlook, List.dropLast_concat]
  have hpath : path = "main.nut" := by
    have hlast := congrArg List.getLast? hlook
    have heq : (path = "main.nut" ∧ line = 0) ∧ asides = [] := by simpa [steps] using hlast
    exact heq.1.1
  rw [hbefore, hpath] at hnone
  exact absurd hnone (by decide +kernel)

end Session

end DebugBridge
