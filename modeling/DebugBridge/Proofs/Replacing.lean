/-
Replacing the breakpoints on a path.

The new breakpoints are added one after the other, and each time all of those on the path are
verified. But those that were added before are verified by then if they can be, so only the newest
one changes (`Registry.verifyBy_add`), and what was returned for it stays true. What they are
verified against is the same throughout the call: nothing, or one source (`Session.Sees`).

The first addition may still bring the source into the cache, and with that the call is cut in two:
behind it the source is there and nothing is read any more. A file that cannot be read is asked for
at each addition, which is why the number of readings is part of what is stated (`readCount`).

A run comes in for two things only. What the cache holds was loaded from contents that a file had at
some time (`LoadedFrom`), and the numbers of the breakpoints on the path are below those still to
come (`Recorded.id_le`).
-/
import DebugBridge.Proofs.FirstLoad
import DebugBridge.Proofs.Verification

namespace DebugBridge

/-- Whether a line is in the source that is gone by, if there is one. -/
def inSource (source? : Option SourceText) (line : UInt32) : Bool :=
  source?.any fun source => line.toNat < source.lineCount

/-- The effect of asking for a file, if it is asked for. -/
def readings (path : String) (asks : Bool) : List Effect := if asks then [.read path] else []

/-- The effects of adding one breakpoint on a path, given as it is afterwards. -/
def effectsOf (path : String) (asks : Bool) (b : Breakpoint) : List Effect :=
  readings path asks ++ if b.verified then [announced b] else []

/-- New breakpoints on a path, one for each line, numbered from `id` on. Whether one is verified
depends on its own line and the source, and not on the others. -/
def newOnes (path : String) (source? : Option SourceText) : UInt64 → List UInt32 → List Breakpoint
  | _, [] => []
  | id, line :: lines =>
    ⟨id, path, line, inSource source? line⟩ :: newOnes path source? (id + 1) lines

section NewOnes

variable {path : String} {source? : Option SourceText} {id : UInt64}

theorem lines_newOnes (lines : List UInt32) :
    (newOnes path source? id lines).map (·.line) = lines := by
  induction lines generalizing id with
  | nil => rfl
  | cons line rest ih => rw [newOnes, List.map_cons, ih]

theorem length_newOnes (lines : List UInt32) :
    (newOnes path source? id lines).length = lines.length := by
  rw [← List.length_map (·.line), lines_newOnes]

theorem ids_newOnes (lines : List UInt32) :
    (newOnes path source? id lines).map (·.id) =
      (List.range lines.length).map fun i => id + UInt64.ofNat i := by
  induction lines generalizing id with
  | nil => rfl
  | cons line rest ih =>
      rw [newOnes, List.map_cons, ih, List.length_cons, List.range_succ_eq_map, List.map_cons,
        List.map_map]
      simp [UInt64.add_assoc, UInt64.add_comm]

/-- Their numbers go on from the first one. -/
theorem ids_newOnes_ofNat (first : Nat) (lines : List UInt32) :
    (newOnes path source? (UInt64.ofNat first) lines).map (·.id) =
      (List.range lines.length).map fun i => UInt64.ofNat (first + i) := by
  rw [ids_newOnes]
  exact List.map_congr_left fun i _ => (UInt64.ofNat_add first i).symm

theorem toNat_ids_newOnes {first : Nat} {lines : List UInt32}
    (hfew : first + lines.length ≤ UInt64.size) :
    (newOnes path source? (UInt64.ofNat first) lines).map (·.id.toNat) =
      List.range' first lines.length := by
  have hnat : (newOnes path source? (UInt64.ofNat first) lines).map (·.id.toNat) =
      ((newOnes path source? (UInt64.ofNat first) lines).map (·.id)).map UInt64.toNat := by
    rw [List.map_map]
    rfl
  rw [hnat, ids_newOnes_ofNat, List.map_map, List.range'_eq_map_range]
  refine List.map_congr_left fun i hi => ?_
  have hsize : UInt64.size = 2 ^ 64 := rfl
  have hi := List.mem_range.1 hi
  rw [Function.comp, UInt64.toNat_ofNat', Nat.mod_eq_of_lt (by omega)]

theorem of_mem_newOnes {lines : List UInt32} {b : Breakpoint}
    (h : b ∈ newOnes path source? id lines) :
    b.path = path ∧ b.verified = inSource source? b.line := by
  induction lines generalizing id with
  | nil => simp [newOnes] at h
  | cons line rest ih =>
      rcases List.mem_cons.1 h with rfl | h
      · exact ⟨rfl, rfl⟩
      · exact ih h

end NewOnes

/-- A number on the list was given to one of those that were added. -/
theorem Recorded.id_le {d : Desk} {places : List (String × UInt32)} (h : Recorded d places)
    {b : Breakpoint} (hb : b ∈ d.registry.breakpoints) : b.id.toNat ≤ places.length := by
  have hadded : b.atFirst ∈ addedAt places := by
    refine h.once.subset ?_
    cases hverified : b.verified with
    | true => exact List.mem_append_left _ (List.mem_map_of_mem (h.told b hb hverified))
    | false =>
        have hsame : b.atFirst = b := by rw [Breakpoint.atFirst, ← hverified]
        rw [hsame]
        exact List.mem_append_right _ (List.mem_filter.2 ⟨hb, by simp [hverified]⟩)
  have hid : b.atFirst.id ∈ (addedAt places).map (·.id) := List.mem_map_of_mem hadded
  rw [ids_addedAt] at hid
  obtain ⟨n, hn, hid⟩ := List.mem_map.1 hid
  have hnat : b.id.toNat = (n + 1) % 2 ^ 64 := by
    rw [← UInt64.toNat_ofNat', hid]
    rfl
  rw [hnat]
  exact (Nat.mod_le _ _).trans (List.mem_range.1 hn)

namespace Registry

/-- All breakpoints on a path whose line is in the source are verified. -/
def Settled (r : Registry) (path : String) (source? : Option SourceText) : Prop :=
  ∀ b ∈ r.list path, inSource source? b.line = true → b.verified = true

/-- Verifies the breakpoints on a path against a source, if there is one. -/
def verifyBy (r : Registry) (path : String) : Option SourceText → List Breakpoint × Registry
  | none => ([], r)
  | some source => r.verify path source.lineCount

theorem Settled.not_becomesVerified {r : Registry} {path : String} {source : SourceText}
    (h : r.Settled path (some source)) {b : Breakpoint} (hb : b ∈ r.list path) :
    becomesVerified path source.lineCount b = false := by
  cases hbecomes : becomesVerified path source.lineCount b with
  | false => rfl
  | true =>
      obtain ⟨-, hline, hwaits⟩ := verified_of_becomesVerified hbecomes
      have hverified := h b hb (by simpa [inSource] using hline)
      rw [hwaits] at hverified
      exact absurd hverified Bool.false_ne_true

/-- A new breakpoint is verified exactly if the source has its line. -/
theorem verifyOne_new (id : UInt64) (path : String) (line : UInt32) (source : SourceText) :
    verifyOne path source.lineCount ⟨id, path, line, false⟩ =
      ⟨id, path, line, inSource (some source) line⟩ := by
  by_cases hline : line.toNat < source.lineCount <;>
    simp [verifyOne, becomesVerified, inSource, hline]

/-- Where all others are settled, only the newest one changes. This is what keeps the answers of
earlier additions true, as each addition verifies the whole path again. -/
theorem verifyBy_add {r : Registry} {path : String} {source? : Option SourceText}
    (h : r.Settled path source?) (line : UInt32) :
    let b : Breakpoint := ⟨r.nextId, path, line, inSource source? line⟩
    let verified := (r.add path line).2.verifyBy path source?
    verified.1 = (if b.verified then [b] else []) ∧ verified.2.nextId = r.nextId + 1 ∧
      verified.2.list path = r.list path ++ [b] ∧
      ∀ other, other ≠ path → verified.2.list other = r.list other := by
  intro b verified
  have hlist : (r.add path line).2.list path = r.list path ++ [⟨r.nextId, path, line, false⟩] := by
    rw [list_add, if_pos rfl]
    rfl
  have hother : ∀ other, other ≠ path → (r.add path line).2.list other = r.list other := by
    intro other hne
    rw [list_add, if_neg hne.symm, List.append_nil]
  cases source? with
  | none => exact ⟨rfl, rfl, hlist, hother⟩
  | some source =>
      have hnew :
          becomesVerified path source.lineCount ⟨r.nextId, path, line, false⟩ = b.verified := by
        simp [becomesVerified, b, inSource]
      have hnone : (r.list path).filter (becomesVerified path source.lineCount) = [] :=
        List.filter_eq_nil_iff.2 fun c hc => by simp [h.not_becomesVerified hc]
      have hsame : (r.list path).map (verifyOne path source.lineCount) = r.list path :=
        (List.map_congr_left fun c hc => verifyOne_of_not (h.not_becomesVerified hc)).trans
          (List.map_id _)
      refine ⟨?_, rfl, ?_, fun other hne => ?_⟩
      · show ((r.add path line).2.verify path source.lineCount).1 = _
        rw [verify_fst, hlist, List.filter_append, hnone, List.nil_append, List.filter_singleton,
          hnew]
        cases hb : b.verified with
        | false => rfl
        | true => exact congrArg (fun c => [c]) (verifyOne_new r.nextId path line source)
      · show ((r.add path line).2.verify path source.lineCount).2.list path = _
        rw [list_verify, hlist, List.map_append, hsame, List.map_singleton, verifyOne_new]
      · exact (list_verify_of_ne _ hne _).trans (hother other hne)

end Registry

namespace Session

/-- What a path is verified against throughout, and whether its file is asked for each time. The
three cases exclude a source that is still to be read in, which is dealt with below. -/
inductive Sees (s : Session) (path : String) : Option SourceText → Bool → Prop
  | nothing (h : s.bridge.noDebug = true) : Sees s path none false
  | unreadable {fault : SourceFault} (hmode : s.bridge.noDebug = false)
      (hnone : s.bridge.sources.get? path = none) (hread : s.files.read path = .error fault) :
      Sees s path none true
  | cached {source : SourceText} (hmode : s.bridge.noDebug = false)
      (hsource : s.bridge.sources.get? path = some source) : Sees s path (some source) false

variable {s : Session} {path : String} {source? : Option SourceText} {asks : Bool}

/-- What verification does to a session. -/
theorem verify_of_sees (h : s.Sees path source? asks) :
    s.verify path =
      { s with
        bridge := { s.bridge with registry := (s.bridge.registry.verifyBy path source?).2 }
        log := s.log ++ readings path asks ++
          (s.bridge.registry.verifyBy path source?).1.map announced } := by
  cases h with
  | nothing h =>
      rw [verify, if_pos h]
      simp [Registry.verifyBy, readings]
  | unreadable hmode hnone hread =>
      rw [verify, hmode, if_neg Bool.false_ne_true, load_of_unreadable hnone hread]
      simp [Registry.verifyBy, readings, note]
  | cached hmode hsource =>
      rw [verify, hmode, if_neg Bool.false_ne_true, load_of_cached hsource]
      simp [noteVerified_eq, Registry.verifyBy, readings]

/-- What a path is verified against depends on neither the breakpoints nor the log. -/
theorem Sees.of_registry (h : s.Sees path source? asks) (registry : Registry) (log : List Effect) :
    ({ s with bridge := { s.bridge with registry }, log } : Session).Sees path source? asks := by
  cases h with
  | nothing h => exact .nothing h
  | unreadable hmode hnone hread => exact .unreadable hmode hnone hread
  | cached hmode hsource => exact .cached hmode hsource

/-- The session with one more breakpoint, which is still to be verified. -/
def withNew (s : Session) (path : String) (line : UInt32) : Session :=
  { s with bridge := { s.bridge with registry := (s.bridge.registry.add path line).2 } }

theorem setBreakpoint_snd (s : Session) (path : String) (line : UInt32) :
    (s.setBreakpoint path line).2 = (s.withNew path line).verify path := rfl

theorem setBreakpoint_fst (s : Session) (path : String) (line : UInt32) :
    (s.setBreakpoint path line).1 =
      ((s.setBreakpoint path line).2.bridge.registry.get? path s.bridge.registry.nextId).getD
        (s.bridge.registry.add path line).1 := rfl

/-- One more breakpoint on a path. -/
theorem setBreakpoint_of_sees (h : s.Sees path source? asks)
    (hsettled : s.bridge.registry.Settled path source?) (line : UInt32) :
    let b : Breakpoint := ⟨s.bridge.registry.nextId, path, line, inSource source? line⟩
    ∃ registry, (s.setBreakpoint path line).2 =
        { s with
          bridge := { s.bridge with registry }
          log := s.log ++ effectsOf path asks b } ∧
      registry.nextId = s.bridge.registry.nextId + 1 ∧
      registry.list path = s.bridge.registry.list path ++ [b] ∧
      ∀ other, other ≠ path → registry.list other = s.bridge.registry.list other := by
  intro b
  obtain ⟨hchanged, hnext, hlist, hother⟩ := Registry.verifyBy_add hsettled line
  have hadded := verify_of_sees (h.of_registry (s.bridge.registry.add path line).2 s.log)
  have hannounced : ((s.bridge.registry.add path line).2.verifyBy path source?).1.map announced =
      if b.verified then [announced b] else [] := by
    rw [hchanged]
    split <;> rfl
  refine ⟨_, hadded.trans ?_, hnext, hlist, hother⟩
  dsimp only
  rw [hannounced, List.append_assoc]
  rfl

/-- What is returned for it, unless its number is taken. -/
theorem setBreakpoint_fst_of_sees (h : s.Sees path source? asks)
    (hsettled : s.bridge.registry.Settled path source?) (line : UInt32)
    (hfree : ∀ c ∈ s.bridge.registry.list path, c.id ≠ s.bridge.registry.nextId) :
    (s.setBreakpoint path line).1 =
      ⟨s.bridge.registry.nextId, path, line, inSource source? line⟩ := by
  obtain ⟨registry, hset, -, hlist, -⟩ := setBreakpoint_of_sees h hsettled line
  have hnone : (s.bridge.registry.list path).find?
      (fun c => c.id = s.bridge.registry.nextId) = none :=
    List.find?_eq_none.2 fun c hc => by simpa using hfree c hc
  rw [setBreakpoint_fst, hset, Registry.get?, hlist, List.find?_append, hnone]
  simp

theorem settled_concat {r registry : Registry} (h : r.Settled path source?) {b : Breakpoint}
    (hb : b.verified = inSource source? b.line)
    (hlist : registry.list path = r.list path ++ [b]) : registry.Settled path source? := by
  intro c hc hline
  rw [hlist] at hc
  rcases List.mem_append.1 hc with hc | hc
  · exact h c hc hline
  · obtain rfl := List.mem_singleton.1 hc
    exact hb.trans hline

/-- Many more breakpoints on a path. -/
theorem addBreakpoints_of_sees (lines : List UInt32) :
    ∀ {s : Session}, s.Sees path source? asks → s.bridge.registry.Settled path source? →
      let bs := newOnes path source? s.bridge.registry.nextId lines
      ∃ registry, (s.addBreakpoints path lines).2 =
          { s with
            bridge := { s.bridge with registry }
            log := s.log ++ bs.flatMap (effectsOf path asks) } ∧
        registry.list path = s.bridge.registry.list path ++ bs ∧
        ∀ other, other ≠ path → registry.list other = s.bridge.registry.list other := by
  induction lines with
  | nil =>
      intro s _ _
      exact ⟨s.bridge.registry, by simp [addBreakpoints, newOnes], by simp [newOnes],
        fun _ _ => rfl⟩
  | cons line rest ih =>
      intro s h hsettled
      obtain ⟨registry, hset, hnext, hlist, hother⟩ := setBreakpoint_of_sees h hsettled line
      obtain ⟨after, hrest, hlistRest, hotherRest⟩ :=
        ih (h.of_registry registry _) (settled_concat hsettled rfl hlist)
      have hadd : (s.addBreakpoints path (line :: rest)).2 =
          ((s.setBreakpoint path line).2.addBreakpoints path rest).2 := rfl
      refine ⟨after, ?_, ?_, fun other hne => (hotherRest other hne).trans (hother other hne)⟩
      · rw [hadd, hset, hrest, hnext]
        simp only [newOnes, List.flatMap_cons, List.append_assoc]
      · rw [hlistRest, hlist, hnext, List.append_assoc]
        rfl

/-- A number is not reached again before all others were. -/
theorem ne_add_ofNat (id : UInt64) {n : Nat} (hpos : 0 < n) (hfew : n < UInt64.size) :
    id ≠ id + UInt64.ofNat n := by
  intro heq
  have hnat := congrArg UInt64.toNat heq
  have hid := id.toNat_lt_size
  rw [UInt64.toNat_add, UInt64.toNat_ofNat'] at hnat
  have hsize : UInt64.size = 2 ^ 64 := rfl
  omega

/-- What is returned for them, as long as there are numbers for all. -/
theorem addBreakpoints_fst_of_sees (lines : List UInt32) :
    ∀ {s : Session}, s.Sees path source? asks → s.bridge.registry.Settled path source? →
      (∀ c ∈ s.bridge.registry.list path, ∀ i < lines.length,
        c.id ≠ s.bridge.registry.nextId + UInt64.ofNat i) →
      lines.length ≤ UInt64.size →
      (s.addBreakpoints path lines).1 = newOnes path source? s.bridge.registry.nextId lines := by
  induction lines with
  | nil => exact fun _ _ _ _ => rfl
  | cons line rest ih =>
      intro s h hsettled hfree hfew
      obtain ⟨registry, hset, hnext, hlist, hother⟩ := setBreakpoint_of_sees h hsettled line
      have hfirst := setBreakpoint_fst_of_sees h hsettled line fun c hc => by
        simpa using hfree c hc 0 (Nat.succ_pos _)
      have hadd : (s.addBreakpoints path (line :: rest)).1 =
          (s.setBreakpoint path line).1 ::
            ((s.setBreakpoint path line).2.addBreakpoints path rest).1 :=
        rfl
      rw [hadd, hfirst, hset]
      refine congrArg (List.cons _) ?_
      rw [ih (h.of_registry registry _) (settled_concat hsettled rfl hlist) ?_
        (Nat.le_of_succ_le hfew), hnext]
      intro c hc i hi
      have hsum : registry.nextId + UInt64.ofNat i =
          s.bridge.registry.nextId + UInt64.ofNat (i + 1) := by
        rw [hnext, UInt64.ofNat_add, UInt64.add_assoc, UInt64.add_comm 1]
        rfl
      rw [hlist] at hc
      rw [hsum]
      rcases List.mem_append.1 hc with hc | hc
      · exact hfree c hc (i + 1) (Nat.succ_lt_succ hi)
      · obtain rfl := List.mem_singleton.1 hc
        exact ne_add_ofNat _ (Nat.succ_pos i) (Nat.lt_of_lt_of_le (Nat.succ_lt_succ hi) hfew)

/-! ### A source that is not in the cache yet

Adding a breakpoint when the file can be read does what it would do if the source had been taken in
right before. So this case comes down to the one of a cached source, with one more reading in front.
-/

section Readable

variable {contents : String} (hmode : s.bridge.noDebug = false)
  (hnone : s.bridge.sources.get? path = none) (hread : s.files.read path = .ok contents)

include hmode hnone hread

/-- A verification brings the source in, and then it is as if it had been there. -/
theorem verify_of_readable : s.verify path = (s.takeIn path contents).verify path := by
  have hafter : (s.takeIn path contents).bridge.noDebug = false := hmode
  rw [verify, verify, hmode, hafter, if_neg Bool.false_ne_true, if_neg Bool.false_ne_true,
    load_of_readable hnone hread, load_of_cached (get?_takeIn hnone)]

theorem setBreakpoint_of_readable (line : UInt32) :
    s.setBreakpoint path line = (s.takeIn path contents).setBreakpoint path line := by
  have hafter : (s.setBreakpoint path line).2 =
      ((s.takeIn path contents).setBreakpoint path line).2 := by
    rw [setBreakpoint_snd, setBreakpoint_snd]
    exact verify_of_readable (s := s.withNew path line) hmode hnone hread
  refine Prod.ext ?_ hafter
  rw [setBreakpoint_fst, setBreakpoint_fst, hafter]
  rfl

end Readable

/-! ### A path without breakpoints

Replacing starts by clearing the path, so the additions begin on an empty list, on which everything
is settled. What they add up to is collected in one structure, once for each way in which the source
can be had, and these are then put together.
-/

theorem flatMap_announced (bs : List Breakpoint) :
    bs.flatMap (effectsOf path false) = (bs.filter (·.verified)).map announced := by
  induction bs with
  | nil => rfl
  | cons b rest ih =>
      rw [List.flatMap_cons, ih]
      cases hb : b.verified <;> simp [effectsOf, readings, hb]

theorem flatMap_asking {bs : List Breakpoint} (h : ∀ b ∈ bs, b.verified = false) :
    bs.flatMap (effectsOf path true) =
      List.replicate bs.length (.read path) ++ (bs.filter (·.verified)).map announced := by
  induction bs with
  | nil => rfl
  | cons b rest ih =>
      obtain ⟨hb, hrest⟩ := List.forall_mem_cons.1 h
      rw [List.flatMap_cons, ih hrest]
      simp [effectsOf, readings, hb, List.replicate_succ]

/-- What comes of adding breakpoints on a path that has none: they are listed, those that are
verified are announced, and they are returned unless there are not enough numbers for all. -/
structure Adds (s : Session) (path : String) (lines : List UInt32) (source? : Option SourceText)
    (reads : Nat) : Prop where
  returned : lines.length ≤ UInt64.size →
    (s.addBreakpoints path lines).1 = newOnes path source? s.bridge.registry.nextId lines
  listed : (s.addBreakpoints path lines).2.bridge.registry.list path =
    newOnes path source? s.bridge.registry.nextId lines
  others : ∀ other, other ≠ path →
    (s.addBreakpoints path lines).2.bridge.registry.list other = s.bridge.registry.list other
  log : (s.addBreakpoints path lines).2.log = s.log ++ (List.replicate reads (.read path) ++
    ((newOnes path source? s.bridge.registry.nextId lines).filter (·.verified)).map announced)

theorem adds_of_sees (h : s.Sees path source? asks) (hempty : s.bridge.registry.list path = [])
    (lines : List UInt32) : s.Adds path lines source? (if asks then lines.length else 0) := by
  have hsettled : s.bridge.registry.Settled path source? := by
    intro b hb
    simp [hempty] at hb
  obtain ⟨registry, hadd, hlist, hother⟩ := addBreakpoints_of_sees lines h hsettled
  rw [hempty, List.nil_append] at hlist
  refine ⟨addBreakpoints_fst_of_sees lines h hsettled (by simp [hempty]), ?_,
    fun other hne => ?_, ?_⟩
  · rw [hadd]
    exact hlist
  · rw [hadd]
    exact hother other hne
  · rw [hadd]
    refine congrArg (s.log ++ ·) ?_
    cases h with
    | nothing | cached => exact flatMap_announced _
    | unreadable =>
        have hwaits : ∀ b ∈ newOnes path none s.bridge.registry.nextId lines, b.verified = false :=
          fun b hb => (of_mem_newOnes hb).2
        rw [flatMap_asking hwaits, length_newOnes]
        rfl

theorem adds_of_readable {contents : String} (hmode : s.bridge.noDebug = false)
    (hnone : s.bridge.sources.get? path = none) (hread : s.files.read path = .ok contents)
    (hempty : s.bridge.registry.list path = []) (lines : List UInt32) :
    s.Adds path lines (some (.ofContents path contents)) (min 1 lines.length) := by
  cases lines with
  | nil =>
      refine ⟨fun _ => rfl, hempty, fun _ _ => rfl, ?_⟩
      simp [addBreakpoints, newOnes]
  | cons line rest =>
      have hsees : (s.takeIn path contents).Sees path (some (.ofContents path contents)) false :=
        .cached hmode (get?_takeIn hnone)
      have h := adds_of_sees hsees hempty (line :: rest)
      have hadd : s.addBreakpoints path (line :: rest) =
          (s.takeIn path contents).addBreakpoints path (line :: rest) := by
        rw [addBreakpoints, addBreakpoints, setBreakpoint_of_readable hmode hnone hread]
      have hcount : min 1 (line :: rest).length = 1 := Nat.min_eq_left (Nat.succ_pos _)
      refine ⟨hadd ▸ h.returned, hadd ▸ h.listed, hadd ▸ h.others, ?_⟩
      rw [hadd, h.log, hcount, List.replicate_one, ← List.append_assoc s.log]
      rfl

/-- What breakpoints on a path are verified against, if they are added now. -/
def sourceFor (s : Session) (path : String) : Option SourceText :=
  if s.bridge.noDebug then none else (s.bridge.sources.load s.files path).result.toOption

/-- How often a file is asked for when so many breakpoints are added on its path: once if that
brings it into the cache, else for each. -/
def readCount (s : Session) (path : String) (n : Nat) : Nat :=
  if s.bridge.noDebug ∨ (s.bridge.sources.get? path).isSome then 0
  else if (s.files.read path).toOption.isSome then min 1 n
  else n

theorem readCount_of_cached (h : s.bridge.sources.get? path ≠ none) (n : Nat) :
    s.readCount path n = 0 :=
  if_pos (.inr (Option.isSome_iff_ne_none.2 h))

theorem readCount_le_one {contents : String} (h : s.files.read path = .ok contents) (n : Nat) :
    s.readCount path n ≤ 1 := by
  rw [readCount, h]
  split
  · exact Nat.zero_le 1
  · exact Nat.min_le_left 1 n

theorem adds_of_empty (hempty : s.bridge.registry.list path = []) (lines : List UInt32) :
    s.Adds path lines (s.sourceFor path) (s.readCount path lines.length) := by
  cases hmode : s.bridge.noDebug with
  | true =>
      have h := adds_of_sees (.nothing hmode) hempty lines
      simpa [sourceFor, readCount, hmode] using h
  | false =>
      cases hcached : s.bridge.sources.get? path with
      | some source =>
          have h := adds_of_sees (.cached hmode hcached) hempty lines
          simpa [sourceFor, readCount, hmode, hcached, SourceCache.load, Except.toOption] using h
      | none =>
          cases hread : s.files.read path with
          | error fault =>
              have h := adds_of_sees (.unreadable hmode hcached hread) hempty lines
              simpa [sourceFor, readCount, hmode, hcached, hread, SourceCache.load, Except.toOption]
                using h
          | ok contents =>
              have hsource : s.sourceFor path = some (.ofContents path contents) := by
                simp [sourceFor, hmode, hcached, hread, SourceCache.load, Except.toOption]
              have hcount : s.readCount path lines.length = min 1 lines.length := by
                simp [readCount, hmode, hcached, hread, Except.toOption]
              rw [hsource, hcount]
              exact adds_of_readable hmode hcached hread hempty lines

theorem inSource_sourceFor_iff (s : Session) (path : String) (line : UInt32) :
    inSource (s.sourceFor path) line = true ↔ s.bridge.noDebug = false ∧ ∃ source,
      (s.bridge.sources.get? path = some source ∨
        s.bridge.sources.get? path = none ∧
          ∃ contents, s.files.read path = .ok contents ∧ source = .ofContents path contents) ∧
      line.toNat < source.lineCount := by
  cases hmode : s.bridge.noDebug with
  | true => simp [sourceFor, hmode, inSource]
  | false =>
      cases hcached : s.bridge.sources.get? path with
      | some source => simp [sourceFor, hmode, hcached, SourceCache.load, Except.toOption, inSource]
      | none =>
          cases hread : s.files.read path <;>
            simp [sourceFor, hmode, hcached, hread, SourceCache.load, Except.toOption, inSource]

/-! ### Every run

In a run the source of a path is known from the contents it was loaded from, and a source has a line
exactly if its contents have as many line ends as the number of the line says. So what the client is
told can be read off the files.
-/

theorem lt_lineCount_ofContents_iff {contents : String} {n : Nat} :
    n < (SourceText.ofContents path contents).lineCount ↔ n ≤ contents.toList.count '\n' := by
  rw [SourceText.lineCount_ofContents]
  exact Nat.lt_succ_iff

/-- What is in the source of a path was in the contents it was loaded from. -/
theorem inSource_sourceFor_run_iff (hnone : s.bridge.sources.get? path = none) (steps : List Step)
    (line : UInt32) :
    inSource ((s.run steps).sourceFor path) line = true ↔
      (s.run steps).bridge.noDebug = false ∧ ∃ contents,
        (s.LoadedFrom steps path contents ∨
          (s.run steps).bridge.sources.get? path = none ∧
            (s.run steps).files.read path = .ok contents) ∧
        line.toNat ≤ contents.toList.count '\n' := by
  rw [inSource_sourceFor_iff]
  refine and_congr_right fun _ => ⟨?_, ?_⟩
  · rintro ⟨source, hcached | ⟨hempty, contents, hread, rfl⟩, hline⟩
    · obtain ⟨contents, hloaded, rfl⟩ := (get?_run_eq_some_iff hnone steps).1 hcached
      exact ⟨contents, .inl hloaded, lt_lineCount_ofContents_iff.1 hline⟩
    · exact ⟨contents, .inr ⟨hempty, hread⟩, lt_lineCount_ofContents_iff.1 hline⟩
  · rintro ⟨contents, hloaded | ⟨hempty, hread⟩, hline⟩
    · exact ⟨_, .inl hloaded.get?, lt_lineCount_ofContents_iff.2 hline⟩
    · exact ⟨_, .inr ⟨hempty, contents, hread, rfl⟩, lt_lineCount_ofContents_iff.2 hline⟩

theorem setBreakpoints_adds (s : Session) (path : String) (lines : List UInt32) :
    (s.clearBreakpoints path).Adds path lines (s.sourceFor path) (s.readCount path lines.length) :=
  adds_of_empty (s := s.clearBreakpoints path) (Registry.list_clear_self _ path) lines

/-- The numbers that were given out in a run are not greater than the number of breakpoints added.
-/
theorem id_le_of_listed {config : Config} {debuggee : Debuggee} {files : Files} {steps : List Step}
    {b : Breakpoint} (hb : b ∈ ((new config debuggee files).run steps).bridge.registry.list path) :
    b.id.toNat ≤ (placesIn steps).length := by
  have h := recorded_run steps _ [] (recorded_new config debuggee files)
  exact h.id_le (List.mem_filter.1 hb).1

/-- **Replacing the breakpoints on a path.** What is returned is what is listed afterwards, with one
breakpoint for each line, in this order. They are numbered on from those that were ever added; as
long as there are numbers, theirs are greater than all before. One is verified exactly if the client
debugs and there is a source, in the cache or else in its file, that was loaded from contents with
at least as many line ends as its line says. Each that is verified is announced once, in this order,
and nothing else is. The other paths keep their breakpoints. The file is asked for only if it is not
in the cache, and only once if it can be read.

The breakpoints are added one by one, and each time the whole path is verified. What that does is
told by three cases (`Sees`), once it is clear whether there is a source: one that can still be read
is in the cache from the first breakpoint on. -/
theorem setBreakpoints_replaces (config : Config) (debuggee : Debuggee) (files : Files)
    (steps : List Step) (path : String) (lines : List UInt32) (asides : List (List Happening)) :
    let s₀ := new config debuggee files
    let s := s₀.run steps
    let after := s.step (.operation (.setBreakpoints path lines) asides)
    let listed := after.2.bridge.registry.list path
    let count := (placesIn steps).length
    (lines.length ≤ UInt64.size → after.1 = .breakpoints listed) ∧
      (∀ b ∈ listed, b.path = path) ∧ listed.map (·.line) = lines ∧
      listed.map (·.id) = (List.range lines.length).map (fun i => UInt64.ofNat (count + 1 + i)) ∧
      (count + lines.length < UInt64.size →
        listed.map (·.id.toNat) = List.range' (count + 1) lines.length) ∧
      (∀ before, before <+: steps → ∀ other, ∀ b ∈ (s₀.run before).bridge.registry.list other,
        b.id.toNat ≤ count) ∧
      (∀ b ∈ listed, (b.verified = true ↔ s.bridge.noDebug = false ∧ ∃ contents,
        (s₀.LoadedFrom steps path contents ∨
          s.bridge.sources.get? path = none ∧ s.files.read path = .ok contents) ∧
        b.line.toNat ≤ contents.toList.count '\n')) ∧
      (∃ reads, after.2.effectsSince s.log = List.replicate reads (.read path) ++
          (listed.filter (·.verified)).map (fun b => .emitted (.breakpointVerified b)) ∧
        (s.bridge.sources.get? path ≠ none → reads = 0) ∧
        ∀ contents, s.files.read path = .ok contents → reads ≤ 1) ∧
      ∀ other, other ≠ path →
        after.2.bridge.registry.list other = s.bridge.registry.list other := by
  intro s₀ s after listed count
  have hadds : (({ s with asides } : Session).clearBreakpoints path).Adds path lines
      (s.sourceFor path) (s.readCount path lines.length) :=
    setBreakpoints_adds { s with asides } path lines
  have hnext : s.bridge.registry.nextId = UInt64.ofNat (count + 1) :=
    (recorded_run steps _ [] (recorded_new config debuggee files)).nextId
  have hlisted : listed = newOnes path (s.sourceFor path) (UInt64.ofNat (count + 1)) lines :=
    hnext ▸ hadds.listed
  refine ⟨fun hfew => ?_, fun b hb => ?_, ?_, ?_, fun hfew => ?_, ?_, fun b hb => ?_, ?_,
    fun other hne => ?_⟩
  · have hreturned : after.1 = .breakpoints
        ((({ s with asides } : Session).clearBreakpoints path).addBreakpoints path lines).1 := rfl
    rw [hreturned, hadds.returned hfew, ← hadds.listed]
    rfl
  · rw [hlisted] at hb
    exact (of_mem_newOnes hb).1
  · rw [hlisted, lines_newOnes]
  · rw [hlisted, ids_newOnes_ofNat]
  · rw [hlisted, toNat_ids_newOnes (by omega)]
  · intro before hbefore other b hb
    refine (id_le_of_listed hb).trans ?_
    obtain ⟨rest, rfl⟩ := hbefore
    simp [count, placesIn]
  · rw [hlisted] at hb
    rw [(of_mem_newOnes hb).2]
    exact inSource_sourceFor_run_iff rfl steps b.line
  · refine ⟨s.readCount path lines.length, ?_, fun hcached => readCount_of_cached hcached _,
      fun contents hread => readCount_le_one hread _⟩
    have hlog : after.2.log = s.log ++
      (List.replicate (s.readCount path lines.length) (.read path) ++
        (listed.filter (·.verified)).map announced) := by
      rw [hlisted, ← hnext]
      exact hadds.log
    rw [effectsSince, hlog, List.drop_left]
    rfl
  · exact (hadds.others other hne).trans (Registry.list_clear_of_ne _ hne)

/-- A file is put in between, and its breakpoints are set again: two of three lines are in it. -/
theorem setBreakpoints_replaces_earlier :
    let debuggee : Debuggee := ⟨"localhost", 8000, false, .refused, [], false⟩
    let steps : List Step :=
      [.operation (.setBreakpoints "main.nut" [0, 0]),
        .edit "main.nut" (some (.text "local a = 1\nlocal b = 2")),
        .operation (.setBreakpoint "other.nut" 4)]
    let x : Step := .operation (.setBreakpoints "main.nut" [1, 2, 1])
    let listed : List Breakpoint :=
      [⟨4, "main.nut", 1, true⟩, ⟨5, "main.nut", 2, false⟩, ⟨6, "main.nut", 1, true⟩]
    (((new .initial debuggee (.named [])).run steps).step x).1 = .breakpoints listed ∧
      listed.map (·.id.toNat) = List.range' (3 + 1) 3 ∧
      (((new .initial debuggee (.named [])).run steps).step x).2.bridge.registry.list "other.nut" =
        ((new .initial debuggee (.named [])).run steps).bridge.registry.list "other.nut" := by
  intro debuggee steps x listed
  have hlisted : (((new .initial debuggee (.named [])).run steps).step x).2.bridge.registry.list
      "main.nut" = listed := by decide +kernel
  have hcount : (placesIn steps).length = 3 := by decide +kernel
  obtain ⟨hreturned, -, -, -, hnumbers, -, -, -, hothers⟩ :=
    setBreakpoints_replaces .initial debuggee (.named []) steps "main.nut" [1, 2, 1] []
  rw [hcount, hlisted] at hnumbers
  rw [hlisted] at hreturned
  exact ⟨hreturned (by decide), hnumbers (by decide), hothers "other.nut" (by decide)⟩

end Session

end DebugBridge
