/-
The stack, page by page.

What is on a page depends on the frames and on two numbers, and not on the pages that were asked for
before. So a page can be asked for in two parts at any place (`StackPage.frames_of_add`), and pages
of one length, each where the one before it ends, are the beginning of the stack
(`StackPage.flatMap_pages`). Nothing is said of the size of the numbers: a page may begin or end
beyond everything there is.

A frame says where it stands in the whole stack, on whatever page it is shown. That is so because
all frames are made before a page is cut out of them.
-/
import DebugBridge.Session.Run
import Mathlib.Data.List.Forall2

namespace DebugBridge

/-! ### Frames

A frame and an entry of the stack are compared field by field. The line is the one field that
changes: debuggees count from one and clients from zero, and a line of zero stays where it is.
-/

/-- A client is shown this frame for the entry at a position of the stack. Positions are counted in
words. -/
structure StackFrame.Shows (f : StackFrame) (position : Nat) (entry : StackEntry) : Prop where
  index : position < UInt64.size → f.index.toNat = position
  function : f.function = entry.function
  file : f.file = entry.file
  line : f.line.toNat = max entry.line.toNat 1 - 1

theorem StackFrame.shows_ofEntry (position : Nat) (entry : StackEntry) :
    (ofEntry position entry).Shows position entry where
  index h := UInt64.toNat_ofNat_of_lt h
  function := rfl
  file := rfl
  line := by
    rw [ofEntry, toNat_zeroBased]
    omega

namespace Status

/-- These frames are shown for a status: one for each entry, in order, when it is stopped, and none
when it is not. -/
def IsShownAs (s : Status) (frames : List StackFrame) : Prop :=
  match s.runState with
  | .paused | .stepping =>
    List.Forall₂ (fun entry f => f.Shows entry.2 entry.1) s.stack.zipIdx frames
  | .running | .pausing => frames = []

theorem frames_of_isStopped {s : Status} (h : s.runState.isStopped = true) :
    s.frames = s.stack.zipIdx.map fun entry => StackFrame.ofEntry entry.2 entry.1 := by
  rw [frames, if_pos h, List.mapIdx_eq_zipIdx_map]

theorem isShownAs_frames (s : Status) : s.IsShownAs s.frames := by
  have hstopped (h : s.runState.isStopped = true) :
      List.Forall₂ (fun entry f => f.Shows entry.2 entry.1) s.stack.zipIdx s.frames := by
    rw [frames_of_isStopped h, List.forall₂_map_right_iff, List.forall₂_same]
    exact fun entry _ => StackFrame.shows_ofEntry entry.2 entry.1
  unfold IsShownAs
  cases hstate : s.runState with
  | paused | stepping => exact hstopped (by rw [hstate]; rfl)
  | running | pausing => exact frames_eq_nil (by rw [hstate]; rfl)

/-- A frame says its position. -/
theorem index_of_getElem?_frames {s : Status} {i : Nat} {f : StackFrame} (h : s.frames[i]? = some f)
    (hi : i < UInt64.size) : f.index.toNat = i := by
  cases hstopped : s.runState.isStopped with
  | false => simp [frames_eq_nil hstopped] at h
  | true =>
      rw [frames, if_pos hstopped, List.getElem?_mapIdx, Option.map_eq_some_iff] at h
      obtain ⟨entry, -, rfl⟩ := h
      exact (StackFrame.shows_ofEntry i entry).index hi

end Status

/-! ### Pages

A page is a part of a list, so what is said of pages is said of beginnings and rests of lists. The
window says the same place by place, for those who only look at one frame.
-/

namespace StackPage

/-- The page holds the frames from `start` on, as many as there are but `levels` at most, and says
how many there are in all. -/
structure IsWindow (page : StackPage) (frames : List StackFrame) (start levels : Nat) : Prop where
  total : page.total = frames.length
  frame : ∀ k, page.frames[k]? =
    if start + k < min (start + levels) frames.length then frames[start + k]? else none

theorem isWindow_of (frames : List StackFrame) (start levels : Nat) :
    (of frames start levels).IsWindow frames start levels where
  total := rfl
  frame k := by
    rw [of, List.getElem?_take, List.getElem?_drop]
    by_cases hend : start + k < frames.length
    · simp only [Nat.lt_min, hend, and_true, Nat.add_lt_add_iff_left]
    · rw [List.getElem?_eq_none (Nat.le_of_not_lt hend), ite_self, ite_self]

/-- A page in two parts. -/
theorem frames_of_add (frames : List StackFrame) (start a b : Nat) :
    (of frames start (a + b)).frames =
      (of frames start a).frames ++ (of frames (start + a) b).frames := by
  simp only [of, List.take_add, List.drop_drop]

/-- Pages one after the other are the beginning of the stack. -/
theorem flatMap_pages (frames : List StackFrame) (levels count : Nat) :
    ((List.range count).flatMap fun k => (of frames (k * levels) levels).frames) =
      frames.take (count * levels) := by
  induction count with
  | zero => simp
  | succ count ih =>
      -- The last page begins where those before it end.
      rw [List.range_succ, List.flatMap_append, ih, List.flatMap_singleton, Nat.succ_mul,
        List.take_add]
      rfl

end StackPage

/-! ### Asking for pages

Whoever asks for one page after the other does so in steps of a run. None of these changes the
status that is held, so all the pages are of one stack.
-/

/-- The frames that an answer brings, be it all of them or a page. Other answers bring none. -/
def Answer.framesOf : Answer → List StackFrame
  | .frames fs => fs
  | .page p => p.frames
  | _ => []

/-- Asks for one page after the other: for the first `count` pages of `levels` frames. -/
def pageSteps (levels count : Nat) : List Step :=
  (List.range count).map fun k => .operation (.stackPage (k * levels) levels)

namespace Session

/-- The frames that are shown in the course of a run. -/
def framesShown (s : Session) (steps : List Step) : List StackFrame :=
  (s.entries steps).flatMap fun entry => entry.answer.framesOf

/-- Pages are of the status that is held, and asking for one leaves that as it is. -/
theorem framesShown_stackPages (levels : Nat) (starts : List Nat) :
    ∀ s : Session,
      s.framesShown (starts.map fun start => .operation (.stackPage start levels)) =
        starts.flatMap fun start => (StackPage.of s.bridge.frames start levels).frames := by
  induction starts with
  | nil => exact fun _ => rfl
  | cons start rest ih =>
      intro s
      exact congrArg ((StackPage.of s.bridge.frames start levels).frames ++ ·)
        (ih (s.step (.operation (.stackPage start levels))).2)

theorem framesShown_pageSteps (s : Session) (levels count : Nat) :
    s.framesShown (pageSteps levels count) = s.bridge.frames.take (count * levels) := by
  have hshown := framesShown_stackPages levels ((List.range count).map (· * levels)) s
  rwa [List.map_map, List.flatMap_map, StackPage.flatMap_pages] at hshown

/-- **Pages tile the stack.** Of the status that is held, a client is shown one frame for each
entry, in order, with lines counted from zero, or none when it is not stopped. A page of any size
holds the frames from where it starts, as far as it and the stack reach, with their positions in the
whole stack, and the number of all frames. Two pages that meet hold what one page over both would,
and whoever asks for one page after the other, up to the number of all frames, is shown the stack.

Frames are made from the whole stack, with their positions, and a page is cut out of them. So what
is said of two pages that meet, and of many, are facts about a list and its parts. -/
theorem pages_tile_the_stack (s : Session) :
    let frames := s.bridge.frames
    let page := StackPage.of frames
    (s.operate .stack = (.frames frames, s) ∧
        ∀ start levels, s.operate (.stackPage start levels) = (.page (page start levels), s)) ∧
      s.bridge.status.IsShownAs frames ∧
      (∀ start levels, (page start levels).IsWindow frames start levels ∧
        ∀ k f, (page start levels).frames[k]? = some f → start + k < UInt64.size →
          f.index.toNat = start + k) ∧
      (∀ start a b,
        (page start (a + b)).frames = (page start a).frames ++ (page (start + a) b).frames) ∧
      (∀ levels count, s.framesShown (pageSteps levels count) = frames.take (count * levels)) ∧
      ∀ levels, 0 < levels →
        s.framesShown (pageSteps levels (frames.length / levels + 1)) = frames := by
  intro frames page
  refine ⟨⟨rfl, fun _ _ => rfl⟩, s.bridge.status.isShownAs_frames, fun start levels => ?_,
    StackPage.frames_of_add frames, framesShown_pageSteps s, fun levels hlevels => ?_⟩
  · have hwindow := StackPage.isWindow_of frames start levels
    refine ⟨hwindow, fun k f hframe hword => ?_⟩
    rw [hwindow.frame] at hframe
    split at hframe
    · exact Status.index_of_getElem?_frames hframe hword
    · cases hframe
  · have hreach : frames.length < levels * (frames.length / levels + 1) :=
      Nat.lt_mul_div_succ _ hlevels
    rw [Nat.mul_comm] at hreach
    rw [framesShown_pageSteps, List.take_of_length_le (Nat.le_of_lt hreach)]

/-- A page that would end beyond every word. -/
example :
    let status : Status := ⟨.paused, [⟨"a.nut", 0, "inner"⟩, ⟨"b.nut", 7, "main"⟩]⟩
    StackPage.of status.frames 1 18446744073709551615 = ⟨[⟨1, "main", "b.nut", 6⟩], 2⟩ := by
  decide

end Session

end DebugBridge
