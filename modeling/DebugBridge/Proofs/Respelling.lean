/-
Files matter to a session only line by line.

Wherever a file is written, its text can be changed to another one that has the same lines
(`respell`). A session then does the same: it is answered the same and notices the same, and all
that differs is what its files hold. So of two texts that have the same lines it does not matter
which one a file holds.

Two texts with the same lines need not be changes of each other. They are compared through a third
one: the change takes both to the same text, so both sessions do what the session with that text
does (`same_run_of_respell_eq`).
-/
import DebugBridge.Proofs.InFlight
import DebugBridge.Proofs.LineEnds

namespace DebugBridge

/-- Whatever text is changed to has the same lines. -/
def KeepsLines (g : String → String) : Prop :=
  ∀ path text, SourceText.ofContents path (g text) = SourceText.ofContents path text

/-! ### Files

Changing the text of a file leaves where it is found, so a path that leads to a file leads to the
changed one, and a path that leads nowhere still does. Bytes that are no text stay as they are, and
with them the fault that reading them gives.
-/

/-- The contents with their text changed. Bytes that are not text stay. -/
def FileContents.respell (g : String → String) (c : FileContents) : FileContents :=
  match c.read with
  | .ok t => .text (g t)
  | .error _ => c

theorem FileContents.read_respell (g : String → String) (c : FileContents) :
    (c.respell g).read = c.read.map g := by
  unfold respell
  cases h : c.read with
  | ok t => rfl
  | error fault => exact h

/-- Text that was held as bytes is held as text from then on. -/
theorem FileContents.respell_of_read {g : String → String} {c : FileContents} {t : String}
    (h : c.read = .ok t) : c.respell g = .text (g t) := by
  rw [respell, h]

namespace Disk

def respell (g : String → String) (disk : Disk) : Disk :=
  { disk with files := disk.files.map (Prod.map id (FileContents.respell g)) }

variable (g : String → String) (disk : Disk)

theorem enter_respell (place : Place) (part : String) :
    (disk.respell g).enter place part = disk.enter place part := by
  have hlookup : ((disk.respell g).files.lookup place).isSome =
      (disk.files.lookup place).isSome := by
    rw [respell, lookup_map_snd, Option.isSome_map]
  unfold enter
  rw [hlookup]
  rfl

theorem walk_respell (parts : List String) :
    ∀ place, (disk.respell g).walk place parts = disk.walk place parts := by
  induction parts with
  | nil => exact fun _ => rfl
  | cons part rest ih =>
      intro place
      rw [walk, walk, enter_respell]
      cases disk.enter place part with
      | error fault => rfl
      | ok next => exact ih next

theorem read_respell (path : String) : (disk.respell g).read path = (disk.read path).map g := by
  unfold read
  rw [walk_respell]
  split
  · rfl
  · split
    · rfl
    · cases disk.walk [] (pathParts path) with
      | error fault => rfl
      | ok place =>
          dsimp only
          rw [respell, lookup_map_snd]
          cases disk.files.lookup place with
          | none => rfl
          | some contents => exact contents.read_respell g

theorem set_respell (path : String) (contents : Option FileContents) :
    (disk.respell g).set path (contents.map (FileContents.respell g)) =
      (disk.set path contents).respell g := by
  unfold set
  cases (pathParts path).foldlM Place.step [] with
  | none => rfl
  | some place =>
      have hothers : (disk.respell g).files.filter (fun file => file.1 ≠ place) =
          (disk.files.filter fun file => file.1 ≠ place).map
            (Prod.map id (FileContents.respell g)) := List.filter_map ..
      dsimp only
      rw [hothers]
      cases contents <;> rfl

end Disk

namespace Files

def respell (g : String → String) : Files → Files
  | named contents => named (contents.map (Prod.map id (FileContents.respell g)))
  | onDisk disk => onDisk (disk.respell g)

variable (g : String → String) (files : Files)

theorem read_respell (path : String) : (files.respell g).read path = (files.read path).map g := by
  cases files with
  | onDisk disk => exact disk.read_respell g path
  | named contents =>
      unfold respell read
      dsimp only
      rw [lookup_map_snd]
      cases contents.lookup path with
      | none => rfl
      | some contents => exact contents.read_respell g

theorem set_respell (path : String) (contents : Option FileContents) :
    (files.respell g).set path (contents.map (FileContents.respell g)) =
      (files.set path contents).respell g := by
  cases files with
  | onDisk disk => exact congrArg onDisk (disk.set_respell g path contents)
  | named others =>
      have hothers : (others.map (Prod.map id (FileContents.respell g))).filter
          (fun file => file.1 ≠ path) = (others.filter fun file => file.1 ≠ path).map
            (Prod.map id (FileContents.respell g)) := List.filter_map ..
      unfold respell set
      dsimp only
      rw [hothers]
      cases contents <;> rfl

end Files

/-- The cache takes in lines, so it takes in the same. -/
theorem SourceCache.load_respell {g : String → String} (hg : KeepsLines g) (cache : SourceCache)
    (files : Files) (path : String) :
    cache.load (files.respell g) path = cache.load files path := by
  unfold load
  rw [Files.read_respell]
  cases cache.get? path with
  | some source => rfl
  | none =>
      cases files.read path with
      | error fault => rfl
      | ok text =>
          show Load.mk (.ok (.ofContents path (g text)))
            ⟨cache.texts ++ [.ofContents path (g text)]⟩ true = _
          rw [hg path text]

/-- A step that writes a file writes the changed text. -/
def Step.respell (g : String → String) : Step → Step
  | .edit path contents => .edit path (contents.map (FileContents.respell g))
  | x => x

namespace Session

def respell (g : String → String) (s : Session) : Session := { s with files := s.files.respell g }

variable {g : String → String}

/-! ### The debuggee's side

Nothing on this side looks at the files. The clauses of the structure hold because the session is
changed in a field that they do not touch.
-/

theorem respell_deliverAll (s : Session) (happenings : List Happening) :
    happenings.foldl deliver (s.respell g) = (happenings.foldl deliver s).respell g := by
  have hsame : (s.respell g).absorb { s with log := [] } = s.respell g := by simp [absorb, respell]
  rw [deliverAll_of_absorb hsame, deliverAll_eq s]
  rfl

theorem followsCalls_respell : FollowsCalls (respell g) where
  debuggee _ := rfl
  asides _ := rfl
  setDebuggee _ _ := rfl
  setAsides _ _ := rfl
  opened _ := rfl
  requested _ _ := rfl
  answered _ _ _ := rfl
  deliverAll := respell_deliverAll

theorem followsSession_respell : FollowsSession (respell g) where
  course _ := rfl
  handles _ := rfl
  wait := followsCalls_respell.wait
  call := followsCalls_respell.call
  connect := followsCalls_respell.connect
  applyStatus _ _ := rfl
  finish := finish_follows (fun _ => rfl) (fun _ => rfl)
  hangUp _ := rfl
  arm _ := rfl
  announce _ _ := rfl
  attempt _ _ := rfl
  register _ _ := rfl

/-! ### Breakpoints and sources

A source is loaded by its lines, so what the cache takes in from the changed file is what it takes
in from the file. After that the operations on breakpoints go along as with any other map.
-/

theorem load_respell (hg : KeepsLines g) (s : Session) (path : String) :
    (s.respell g).load path = (s.load path).map id (respell g) := by
  have hloaded : (s.respell g).bridge.sources.load (s.respell g).files path =
      s.bridge.sources.load s.files path := SourceCache.load_respell hg _ _ _
  unfold load
  dsimp only
  rw [hloaded]
  split <;> rfl

theorem followsLoads_respell (hg : KeepsLines g) : FollowsLoads (respell g) where
  registry _ := rfl
  noDebug _ := rfl
  load := load_respell hg
  setRegistry _ _ := rfl
  verified _ _ := rfl

/-! ### Every step -/

theorem step_respell (hg : KeepsLines g) (s : Session) (x : Step) :
    (s.respell g).step (x.respell g) = (s.step x).map id (respell g) := by
  cases x with
  | happening happening =>
      exact congrArg (Prod.mk _) (respell_deliverAll s [happening])
  | edit path contents =>
      have hset := s.files.set_respell g path contents
      exact congrArg (fun files => (Answer.done, { s with files })) hset
  | operation operation asides =>
      have hoperate : (respell g { s with asides }).operate operation =
          ({ s with asides }.operate operation).map id (respell g) := by
        cases h : operation.onBreakpoints with
        | true => exact (followsLoads_respell hg).operate { s with asides } h
        | false => exact followsSession_respell.operate { s with asides } h
      exact congrArg (fun p : Answer × Session => (p.1, { p.2 with asides := [] })) hoperate

/-! ### Every run -/

theorem run_respell (hg : KeepsLines g) (steps : List Step) :
    ∀ s : Session, (s.respell g).run (steps.map (Step.respell g)) = (s.run steps).respell g := by
  induction steps with
  | nil => exact fun _ => rfl
  | cons x rest ih =>
      intro s
      rw [List.map_cons, run_cons, run_cons, step_respell hg]
      exact ih _

theorem entries_respell (hg : KeepsLines g) (steps : List Step) :
    ∀ s : Session, (s.respell g).entries (steps.map (Step.respell g)) = s.entries steps := by
  induction steps with
  | nil => exact fun _ => rfl
  | cons x rest ih =>
      intro s
      simp only [List.map_cons, entries, step_respell hg, Prod.map_fst, Prod.map_snd, ih]
      rfl

/-- Where files hold texts that can be changed to one and the same, a run goes the same way. -/
theorem same_run_of_respell_eq (hg : KeepsLines g) {s t : Session} (h : s.respell g = t.respell g)
    (steps : List Step) :
    s.entries steps = t.entries steps ∧ (s.run steps).bridge = (t.run steps).bridge := by
  constructor
  · rw [← entries_respell hg steps s, h, entries_respell hg]
  · have hrun : (s.run steps).respell g = (t.run steps).respell g := by
      rw [← run_respell hg, h, run_respell hg]
    show ((s.run steps).respell g).bridge = ((t.run steps).respell g).bridge
    rw [hrun]

/-- **Line ends do not matter.** A text without carriage returns has one line more than it has line
feeds, and it keeps its lines when carriage returns are put before any of its line feeds. So
whichever of the two texts is written to a file: from then on every run answers the same, notices
the same and leaves the same bridge behind. In particular, the same breakpoints are verified, and
the same columns found.

The two texts are not compared with each other. Both are changed into the second, wherever they are
written, and a session does the same with a text that is changed to one with the same lines
(`same_run_of_respell_eq`). -/
theorem line_ends_do_not_matter {t t' : String} (hplain : '\r' ∉ t.toList)
    (h : Respelled t.toList t'.toList) :
    (∀ path, SourceText.ofContents path t = SourceText.ofContents path t' ∧
      (SourceText.ofContents path t).lineCount = t.toList.count '\n' + 1) ∧
    ∀ (s : Session) (path : String) (contents contents' : FileContents),
      contents.read = .ok t → contents'.read = .ok t' → ∀ steps,
        let held := (s.step (.edit path (some contents))).2
        let held' := (s.step (.edit path (some contents'))).2
        held.entries steps = held'.entries steps ∧
          (held.run steps).bridge = (held'.run steps).bridge := by
  have hlines := h.ofContents_eq hplain
  refine ⟨fun path => ⟨hlines path, SourceText.lineCount_ofContents path t⟩, ?_⟩
  intro s path contents contents' hread hread' steps held held'
  -- Both texts are changed to the second.
  let g : String → String := fun text => if text = t then t' else text
  have hg : KeepsLines g := by
    intro path text
    by_cases htext : text = t
    · rw [htext, hlines path]
      exact congrArg _ (if_pos rfl)
    · exact congrArg _ (if_neg htext)
  have hsecond : g t' = t' := by
    by_cases htext : t' = t
    · exact if_pos htext
    · exact if_neg htext
  have hcontents : contents.respell g = contents'.respell g := by
    rw [FileContents.respell_of_read hread, FileContents.respell_of_read hread', hsecond]
    exact congrArg _ (if_pos rfl)
  refine same_run_of_respell_eq hg ?_ steps
  have hset := s.files.set_respell g path (some contents)
  have hset' := s.files.set_respell g path (some contents')
  rw [Option.map_some, hcontents] at hset
  exact congrArg (fun files => { s with files }) (hset.symm.trans hset')

/-- A file of three lines, and the same file with a carriage return at the end of the first. -/
theorem one_line_end_does_not_matter :
    let debuggee : Debuggee := ⟨"localhost", 8000, false, .refused, [], false⟩
    let held (text : String) : Session :=
      ((new .initial debuggee (.named [])).step (.edit "main.nut" (some (.text text)))).2
    let t := "a\n  b\n"
    let t' := "a\r\n  b\n"
    let steps : List Step :=
      [.operation (.setBreakpoint "main.nut" 2), .operation (.breakColumns "main.nut" 1)]
    '\r' ∉ t.toList ∧ Respelled t.toList t'.toList ∧
      ((held t).entries steps).map Entry.answer =
        [.breakpoint ⟨1, "main.nut", 2, true⟩, .columns [2]] ∧
      (held t).entries steps = (held t').entries steps := by
  intro debuggee held t t' steps
  have hplain : '\r' ∉ t.toList := by decide +kernel
  have hrespelled : Respelled t.toList t'.toList := by
    have ht : t.toList = 'a' :: '\n' :: "  b\n".toList := by decide +kernel
    have ht' : t'.toList = 'a' :: '\r' :: '\n' :: "  b\n".toList := by decide +kernel
    rw [ht, ht']
    exact .same 'a' (.returned (.refl _))
  obtain ⟨-, hsame⟩ := line_ends_do_not_matter hplain hrespelled
  obtain ⟨hentries, -⟩ :=
    hsame (new .initial debuggee (.named [])) "main.nut" (.text t) (.text t') rfl rfl steps
  exact ⟨hplain, hrespelled, by decide +kernel, hentries⟩

end Session

end DebugBridge
