/-
The announcements of verified breakpoints.

A breakpoint is announced at the moment it becomes verified, and it stays verified as long as it is
there. So the breakpoints announced and those that wait unverified are all different ones of the
breakpoints that were ever added (`Recorded.once`): none is announced twice, and none that waits has
been announced. That much needs no numbers. A client tells breakpoints apart by number, which works
as long as the numbers last (`nodup_ids_addedAt_iff`).

To count without numbers, the invariant compares lists with repetitions, as sublists of a
permutation. An addition puts one more into what was added and into what waits, a verification moves
some from what waits to what was announced, and everything else can only take some of those that
wait away.
-/
import DebugBridge.Proofs.Deeds
import DebugBridge.Proofs.Registry
import Mathlib.Data.List.Indexes
import Mathlib.Data.List.Nodup
import Mathlib.Data.List.Perm.Subperm

namespace DebugBridge

/-- The breakpoint as it was when it was added. -/
def Breakpoint.atFirst (b : Breakpoint) : Breakpoint := { b with verified := false }

/-- Where a deed adds a breakpoint, if it does. -/
def Deed.place? : Deed → Option (String × UInt32)
  | put path line => some (path, line)
  | _ => none

/-- The places at which a run adds breakpoints, in order. -/
def placesIn (steps : List Step) : List (String × UInt32) :=
  (steps.flatMap Step.deeds).filterMap Deed.place?

/-- Breakpoints added at these places, one after the other, as they are at first. They are numbered
from one on, with the numbers starting over where they end. -/
def addedAt (places : List (String × UInt32)) : List Breakpoint :=
  places.mapIdx fun n place => ⟨UInt64.ofNat (n + 1), place.1, place.2, false⟩

/-! ### Numbers

Numbers have 64 bits and start over, so two breakpoints may come to share one. When that begins is
exact: the numbers of so many additions are different if and only if there are no more additions
than numbers.
-/

theorem ids_addedAt (places : List (String × UInt32)) :
    (addedAt places).map (·.id) =
      (List.range places.length).map fun n => UInt64.ofNat (n + 1) := by
  refine List.ext_getElem (by simp [addedAt]) fun n _ _ => ?_
  simp [addedAt]

/-- Breakpoints have different numbers as long as there are enough of these. -/
theorem nodup_ids_addedAt_iff {places : List (String × UInt32)} :
    ((addedAt places).map (·.id)).Nodup ↔ places.length ≤ UInt64.size := by
  rw [ids_addedAt]
  constructor
  · intro hdistinct
    by_contra hmany
    have hzero : 0 ∈ List.range places.length := List.mem_range.2 (by omega)
    have hsize : UInt64.size ∈ List.range places.length := List.mem_range.2 (by omega)
    exact absurd (List.inj_on_of_nodup_map hdistinct hzero hsize rfl) (by decide)
  · intro hfew
    refine List.Nodup.map_on (fun m hm n hn heq => ?_) List.nodup_range
    have hnat := congrArg UInt64.toNat heq
    simp only [UInt64.toNat_ofNat', List.mem_range] at hnat hm hn
    have hsize : UInt64.size = 2 ^ 64 := rfl
    omega

theorem addedAt_concat (places : List (String × UInt32)) (path : String) (line : UInt32) :
    addedAt (places ++ [(path, line)]) =
      addedAt places ++ [⟨UInt64.ofNat (places.length + 1), path, line, false⟩] :=
  List.mapIdx_concat

/-! ### One verification

A verification returns those that change, as they are afterwards. As they were at first, they are
some of those that wait before it, and those that wait behind it are the others; so the two together
are what waited.
-/

namespace Registry

/-- Those that change are as they were at first. -/
theorem atFirst_changed (r : Registry) (path : String) (lineCount : Nat) :
    (r.verify path lineCount).1.map Breakpoint.atFirst =
      r.breakpoints.filter (becomesVerified path lineCount) := by
  rw [verify_eq, List.map_map]
  refine (List.map_congr_left fun b hb => ?_).trans (List.map_id _)
  have hchanged := (List.mem_filter.1 hb).2
  have hfresh := (verified_of_becomesVerified hchanged).2.2
  rw [Function.comp, verifyOne_of_becomesVerified hchanged]
  cases b
  simp_all [Breakpoint.atFirst]

/-- Those that wait afterwards are those that waited, but for those that change. -/
theorem waiting_after_verify (r : Registry) (path : String) (lineCount : Nat) :
    (r.verify path lineCount).2.breakpoints.filter (!·.verified) =
      (r.breakpoints.filter (!·.verified)).filter (!becomesVerified path lineCount ·) := by
  rw [verify_eq, List.filter_map, List.filter_filter]
  have hsame : ∀ b ∈ r.breakpoints, ((!·.verified) ∘ verifyOne path lineCount) b =
      (!becomesVerified path lineCount b && !b.verified) := by
    intro b _
    cases h : becomesVerified path lineCount b <;> simp [verifyOne, h]
  rw [List.filter_congr hsame]
  refine (List.map_congr_left fun b hb => ?_).trans (List.map_id _)
  have hkept : becomesVerified path lineCount b = false := by
    simpa using And.left (by simpa using (List.mem_filter.1 hb).2)
  exact verifyOne_of_not hkept

/-- Those that change wait before. -/
theorem filter_changed (r : Registry) (path : String) (lineCount : Nat) :
    r.breakpoints.filter (becomesVerified path lineCount) =
      (r.breakpoints.filter (!·.verified)).filter (becomesVerified path lineCount) := by
  rw [List.filter_filter]
  refine List.filter_congr fun b _ => ?_
  cases h : becomesVerified path lineCount b with
  | false => rfl
  | true => simp [(verified_of_becomesVerified h).2.2]

end Registry

/-! ### The record -/

/-- What was announced at a desk agrees with what is on it. The second clause is what carries the
induction: it accounts for the announced and the waiting as different breakpoints among all that
were added, where neither the order of the announcements nor any removal in between matters. -/
structure Recorded (d : Desk) (places : List (String × UInt32)) : Prop where
  nextId : d.registry.nextId = UInt64.ofNat (places.length + 1)
  /-- The announced and the waiting are different ones of the added. -/
  once : (d.told.map Breakpoint.atFirst ++ d.registry.breakpoints.filter (!·.verified)).Subperm
    (addedAt places)
  told : ∀ b ∈ d.registry.breakpoints, b.verified = true → b ∈ d.told
  /-- The source of what was announced is there for good. -/
  seen : ∀ b ∈ d.told, b.verified = true ∧
    ∃ source, d.sources.get? b.path = some source ∧ b.line.toNat < source.lineCount

namespace Recorded

variable {d : Desk} {places : List (String × UInt32)}

theorem mode (h : Recorded d places) (noDebug : Bool) : Recorded { d with noDebug } places :=
  { h with }

theorem load (h : Recorded d places) (files : Files) (path : String) :
    Recorded { d with sources := (d.sources.load files path).cache } places where
  nextId := h.nextId
  once := h.once
  told := h.told
  seen := fun b hb => by
    obtain ⟨hverified, source, hsource, hline⟩ := h.seen b hb
    exact ⟨hverified, source, SourceCache.get?_load_of_get?_eq_some hsource files path, hline⟩

theorem add (h : Recorded d places) (path : String) (line : UInt32) :
    Recorded { d with registry := (d.registry.add path line).2 } (places ++ [(path, line)]) where
  nextId := by
    show d.registry.nextId + 1 = _
    rw [h.nextId, List.length_append, ← UInt64.ofNat_one, ← UInt64.ofNat_add]
    rfl
  once := by
    rw [addedAt_concat, ← h.nextId]
    have hwaiting : (d.registry.add path line).2.breakpoints.filter (!·.verified) =
        d.registry.breakpoints.filter (!·.verified) ++
          [⟨d.registry.nextId, path, line, false⟩] := by
      simp [Registry.add]
    rw [hwaiting, ← List.append_assoc]
    exact (List.subperm_append_right _).2 h.once
  told := fun b hb hverified => by
    rcases List.mem_append.1 hb with hold | hnew
    · exact h.told b hold hverified
    · rw [List.mem_singleton.1 hnew] at hverified
      exact absurd hverified Bool.false_ne_true
  seen := h.seen

/-- Breakpoints may go. -/
theorem remove (h : Recorded d places) {breakpoints : List Breakpoint}
    (hfewer : breakpoints.Sublist d.registry.breakpoints) :
    Recorded { d with registry := { d.registry with breakpoints } } places where
  nextId := h.nextId
  once := by
    have hwaiting := (hfewer.filter (!·.verified)).append_left (d.told.map Breakpoint.atFirst)
    exact hwaiting.subperm.trans h.once
  told := fun b hb => h.told b (hfewer.subset hb)
  seen := h.seen

theorem verify (h : Recorded d places) {path : String} {source : SourceText}
    (hsource : d.sources.get? path = some source) :
    Recorded
      { d with
        registry := (d.registry.verify path source.lineCount).2
        told := d.told ++ (d.registry.verify path source.lineCount).1 } places where
  nextId := h.nextId
  once := by
    rw [List.map_append, Registry.atFirst_changed, Registry.waiting_after_verify,
      Registry.filter_changed, List.append_assoc]
    exact (((List.filter_append_perm _ _).append_left _).subperm).trans h.once
  told := fun b hb hverified => by
    rw [Registry.verify_eq] at hb ⊢
    obtain ⟨a, ha, rfl⟩ := List.mem_map.1 hb
    cases hchanged : Registry.becomesVerified path source.lineCount a with
    | true =>
        exact List.mem_append_right _ (List.mem_map_of_mem (List.mem_filter.2 ⟨ha, hchanged⟩))
    | false =>
        rw [Registry.verifyOne_of_not hchanged] at hverified ⊢
        exact List.mem_append_left _ (h.told a ha hverified)
  seen := fun b hb => by
    rw [Registry.verify_eq] at hb
    rcases List.mem_append.1 hb with hold | hnew
    · exact h.seen b hold
    · obtain ⟨a, ha, rfl⟩ := List.mem_map.1 hnew
      have hchanged := (List.mem_filter.1 ha).2
      obtain ⟨hpath, hline, -⟩ := Registry.verified_of_becomesVerified hchanged
      rw [Registry.verifyOne_of_becomesVerified hchanged]
      exact ⟨rfl, source, hpath ▸ hsource, hline⟩

end Recorded

namespace Session

/-! ### Every run

The invariant is kept by each of the four deeds, with the place of an addition added to the places.
A start changes the mode, and the invariant has nothing of that.
-/

theorem recorded_new (config : Config) (debuggee : Debuggee) (files : Files) :
    Recorded (new config debuggee files).desk [] where
  nextId := rfl
  once := List.Subperm.refl []
  told := nofun
  seen := nofun

theorem recorded_verify {s : Session} {places : List (String × UInt32)}
    (h : Recorded s.desk places) (path : String) : Recorded (s.verify path).desk places := by
  have hloaded := h.load s.files path
  obtain ⟨-, hdesk⟩ | ⟨-, -, hdesk⟩ | ⟨-, source, hsource, hdesk⟩ := s.verify_cases path
  · rwa [hdesk]
  · rwa [hdesk]
  · rw [hdesk]
    exact hloaded.verify (SourceCache.get?_load_self hsource)

theorem recorded_perform {s : Session} {places : List (String × UInt32)}
    (h : Recorded s.desk places) (d : Deed) :
    Recorded (s.perform d).desk (places ++ d.place?.toList) := by
  cases d with
  | put path line =>
      have hadded := h.add path line
      exact recorded_verify
        (s := { s with bridge := { s.bridge with
          registry := (s.bridge.registry.add path line).2 } }) hadded path
  | take path line =>
      show Recorded (s.clearBreakpoint path line).2.desk (places ++ [])
      rw [List.append_nil]
      exact h.remove List.eraseP_sublist
  | sweep path =>
      show Recorded (s.clearBreakpoints path).desk (places ++ [])
      rw [List.append_nil]
      exact h.remove List.filter_sublist
  | look path =>
      show Recorded (s.load path).2.desk (places ++ [])
      rw [List.append_nil, desk_load]
      exact h.load s.files path

theorem Done.recorded {s t : Session} {deeds : List Deed} {places : List (String × UInt32)}
    (hdone : Done s deeds t) (h : Recorded s.desk places) :
    Recorded t.desk (places ++ deeds.filterMap Deed.place?) := by
  refine hdone.preserves
    (P := fun deeds t => Recorded t.desk (places ++ deeds.filterMap Deed.place?)) ?_ ?_ ?_
  · intro deeds t u hdesk ht
    rwa [hdesk]
  · intro deeds t d ht
    rw [List.filterMap_append, ← List.append_assoc]
    convert recorded_perform ht d using 2
    cases d <;> rfl
  · simpa using h

theorem recorded_run (steps : List Step) :
    ∀ (s : Session) (places : List (String × UInt32)), Recorded s.desk places →
      Recorded (s.run steps).desk (places ++ placesIn steps) := by
  induction steps with
  | nil => simp [placesIn]
  | cons x rest ih =>
      intro s places h
      have hstep : Recorded (s.step x).2.desk (places ++ x.deeds.filterMap Deed.place?) := by
        obtain hdone | ⟨hnone, noDebug, hdesk⟩ := s.done_step x
        · exact hdone.recorded h
        · rw [hdesk, hnone]
          simpa using h.mode noDebug
      have hplaces : placesIn (x :: rest) = x.deeds.filterMap Deed.place? ++ placesIn rest := by
        simp [placesIn]
      rw [run_cons, hplaces, ← List.append_assoc]
      exact ih _ _ hstep

/-- **A breakpoint is announced once, when it becomes verified.** Each announcement is about a
breakpoint that was added, as it was added, and the source it was verified against stays in the
cache. No number is announced more often than it was given, and what is listed as verified was
announced. As long as no number is given twice, which takes more breakpoints than there are numbers,
no number is announced twice, and what is listed was announced exactly if it is verified.

What carries the induction is a count: the breakpoints that were announced and those that wait make
up different ones of those that were added (`Recorded`). An announcement moves a breakpoint from the
one kind to the other, and a removal can only take away one that waits. -/
theorem announced_once_when_verified (config : Config) (debuggee : Debuggee) (files : Files)
    (steps : List Step) :
    let s := (new config debuggee files).run steps
    let told := verifiedIn s.log
    let added := addedAt (placesIn steps)
    (∀ b ∈ told, b.verified = true ∧ b.atFirst ∈ added ∧
      ∃ source, s.bridge.sources.get? b.path = some source ∧ b.line.toNat < source.lineCount) ∧
      (∀ id, (told.map (·.id)).count id ≤ (added.map (·.id)).count id) ∧
      (∀ path, ∀ b ∈ s.bridge.registry.list path, b.verified = true → b ∈ told) ∧
      (added.length ≤ UInt64.size →
        (told.map (·.id)).Nodup ∧ ∀ path, ∀ b ∈ s.bridge.registry.list path,
          (b.verified = true ↔ ∃ e ∈ told, e.id = b.id)) := by
  intro s told added
  have h : Recorded s.desk ([] ++ placesIn steps) :=
    recorded_run steps _ [] (recorded_new config debuggee files)
  rw [List.nil_append] at h
  have hids : (told.map (·.id) ++
      (s.bridge.registry.breakpoints.filter (!·.verified)).map (·.id)).Subperm
      (added.map (·.id)) := by
    obtain ⟨some, hperm, hsome⟩ := h.once
    have hids := hperm.map (·.id)
    rw [List.map_append, List.map_map] at hids
    exact ⟨_, hids, hsome.map _⟩
  have hlisted : ∀ path, ∀ b ∈ s.bridge.registry.list path, b ∈ s.bridge.registry.breakpoints :=
    fun path b hb => (List.mem_filter.1 hb).1
  refine ⟨fun b hb => ?_, fun id => ?_, fun path b hb => h.told b (hlisted path b hb), ?_⟩
  · obtain ⟨hverified, hsource⟩ := h.seen b hb
    exact ⟨hverified, h.once.subset (List.mem_append_left _ (List.mem_map_of_mem hb)), hsource⟩
  · have htold := (List.sublist_append_left (told.map (·.id))
      ((s.bridge.registry.breakpoints.filter (!·.verified)).map (·.id))).count_le id
    exact Nat.le_trans htold (hids.count_le id)
  · intro hfew
    have hadded : (added.map (·.id)).Nodup :=
      nodup_ids_addedAt_iff.2 (by simpa [added, addedAt] using hfew)
    obtain ⟨some, hperm, hsome⟩ := hids
    obtain ⟨hnodup, -, hapart⟩ := List.nodup_append.1 (hperm.nodup_iff.1 (hadded.sublist hsome))
    refine ⟨hnodup, fun path b hb => ⟨fun hverified => ?_, ?_⟩⟩
    · exact ⟨b, h.told b (hlisted path b hb) hverified, rfl⟩
    · rintro ⟨e, he, hid⟩
      by_contra hwaits
      have hwaiting : b ∈ s.bridge.registry.breakpoints.filter (!·.verified) :=
        List.mem_filter.2 ⟨hlisted path b hb, by simpa using hwaits⟩
      exact hapart e.id (List.mem_map_of_mem he) b.id (List.mem_map_of_mem hwaiting) hid

end Session

end DebugBridge
