/-
The two formats.

Columns are brought to count from one before they are written in either format. Lines are not: the
text adds one where it writes a line, while JSON writes breakpoints and frames as the bridge holds
them. So the formats tell the same positions as long as no breakpoint and no frame is printed, and
no longer. Of what they say about the same line the number in JSON is the smaller by one.

The numbers have to be found in what is printed, or nothing would be said about it. In JSON they
stand under a key, and are looked for there (`Json.Value.under`). A text has no keys, so it is
described with the numbers taken out (`Output.textWith`) and shown to be that with its own numbers
put in.

That a line in the text is the one that was typed is known from `Proofs/Console/Lines.lean`. What is
added here is how far the other format is from it.
-/
import DebugBridge.Proofs.Console.Lines

namespace DebugBridge

open Json (Value Wire)

namespace Json.Value

def natural? : Value → Option Nat
  | .number (.integer (.ofNat n)) => some n
  | _ => none

mutual

/-- The natural numbers under `key`, at whatever depth, from left to right. -/
def under (key : String) : Value → List Nat
  | .array items => underItems key items
  | .object members => underMembers key members
  | _ => []

@[inherit_doc under]
def underItems (key : String) : List Value → List Nat
  | [] => []
  | v :: rest => v.under key ++ underItems key rest

@[inherit_doc under]
def underMembers (key : String) : List (String × Value) → List Nat
  | [] => []
  | (k, v) :: rest =>
    (if k = key then v.natural?.toList else v.under key) ++ underMembers key rest

end

@[simp] theorem natural?_natural (n : Nat) : (natural n).natural? = some n := rfl

@[simp] theorem under_natural (key : String) (n : Nat) : (natural n).under key = [] := rfl

@[simp] theorem under_string (key s : String) : (Value.string s).under key = [] := rfl

theorem under_list {α : Type} {key : String} {form : α → Value} {numbers : α → List Nat}
    (h : ∀ a, (form a).under key = numbers a) (items : List α) :
    (Value.list form items).under key = items.flatMap numbers := by
  rw [Value.list, under]
  induction items with
  | nil => rfl
  | cons a rest ih => rw [List.map_cons, underItems, h, ih, List.flatMap_cons]

end Json.Value

theorem Breakpoint.under_line (b : Breakpoint) :
    (Wire.encode b : Value).under "line" = [b.line.toNat] := by
  simp [Wire.encode, Value.under, Value.underMembers]

theorem StackFrame.under_line (f : StackFrame) :
    (Wire.encode f : Value).under "line" = [f.line.toNat] := by
  simp [Wire.encode, Value.under, Value.underMembers]

theorem Scope.under_line (s : Scope) : (Wire.encode s : Value).under "line" = [] := by
  simp [Wire.encode, Value.under, Value.underMembers, Value.integer]

theorem Variable.under_line (v : Variable) : (Wire.encode v : Value).under "line" = [] := by
  simp [Wire.encode, Value.under, Value.underMembers, Value.integer]

namespace Console

namespace Output

/-- The numbers of lines and columns that the text shows, in order. -/
def textPositions : Output → List Nat
  | .columns cs => cs.map (· + 1)
  | o => o.lines.map oneBased

/-- The words about a verified breakpoint, with this number for its line. -/
def verifiedAt (b : Breakpoint) (n : Nat) : String :=
  s!"Breakpoint {b.id.toNat} verified at {b.path}:{n}"

/-- The words about a breakpoint that was set, with this number for its line. -/
def setAt (b : Breakpoint) (n : Nat) : String :=
  let state := if b.verified then "verified" else "pending"
  s!"Breakpoint {b.id.toNat} at {b.path}:{n} ({state})"

/-- The words about a frame, with this number for its line. -/
def frameAt (f : StackFrame) (n : Nat) : String :=
  s!"#{f.index.toNat} {f.function} at {f.file}:{n}"

/-- The text, with these numbers where it shows its own. -/
def textWith (now : Moment) (numbers : List Nat) (o : Output) : String :=
  match o, numbers with
  | .event (.breakpointVerified b), [n] => s!"[{clockText now}] {verifiedAt b n}"
  | .breakpointSet b, [n] => setAt b n
  | .noBreakpoint path _, [n] => s!"No breakpoint at {path}:{n}"
  | .columns _, numbers =>
    let list := " ".intercalate (numbers.map toString)
    s!"Columns: {list}"
  | .frames fs, n :: numbers => "\n".intercalate (List.zipWith frameAt fs (n :: numbers))
  | o, _ => o.text now

/-- The numbers of lines and columns that the JSON shows: those called `line`, or those that an
array of columns consists of. What has no JSON form is printed as text. -/
def jsonPositions (o : Output) : List Nat :=
  match o, o.value? with
  | .columns _, some (.array items) => items.filterMap Value.natural?
  | _, some value => value.under "line"
  | o, none => o.textPositions

/-- The lines that are written in JSON as they are held. -/
def heldLines : Output → List UInt32
  | .event (.breakpointVerified b) | .breakpointSet b | .breakpointRemoved b => [b.line]
  | .frames fs => fs.map (·.line)
  | _ => []

theorem map_toString_columns (cs : List Nat) :
    cs.map (fun c => toString (c + 1)) = (cs.map (· + 1)).map toString := by
  rw [List.map_map]
  rfl

theorem map_frameLine_eq (fs : List StackFrame) :
    fs.map frameLine = List.zipWith frameAt fs (fs.map fun f => oneBased f.line) := by
  induction fs with
  | nil => rfl
  | cons f fs ih =>
      rw [List.map_cons, List.map_cons, List.zipWith_cons_cons, ← ih]
      rfl

theorem text_eq_textWith (o : Output) (now : Moment) :
    o.text now = o.textWith now o.textPositions := by
  cases o with
  | event e => cases e <;> rfl
  | columns cs =>
      show (let list := " ".intercalate (cs.map fun c => toString (c + 1)); s!"Columns: {list}") = _
      rw [map_toString_columns]
      rfl
  | frames fs =>
      cases fs with
      | nil => rfl
      | cons f fs =>
          have hpositions : (frames (f :: fs)).textPositions =
              (f :: fs).map fun f => oneBased f.line := List.map_map
          show "\n".intercalate ((f :: fs).map frameLine) = _
          rw [map_frameLine_eq, hpositions]
          rfl
  | _ => rfl

theorem under_line_event (e : Event) :
    (Wire.encode e : Value).under "line" = (event e).heldLines.map (·.toNat) := by
  cases e <;> simp [Wire.encode, Value.under, Value.underMembers, Value.integer, heldLines]

theorem jsonPositions_of_held {o : Output} (h : o.heldLines ≠ []) :
    o.jsonPositions = o.heldLines.map (·.toNat) := by
  cases o with
  | event e => exact under_line_event e
  | breakpointSet b | breakpointRemoved b => exact b.under_line
  | frames fs =>
      have hframes := Value.under_list StackFrame.under_line fs
      rw [← List.map_eq_flatMap] at hframes
      rw [heldLines, List.map_map]
      exact hframes
  | _ => exact absurd rfl h

theorem jsonPositions_of_not_held {o : Output} (h : o.heldLines = []) :
    o.jsonPositions = o.textPositions := by
  cases o with
  | event e =>
      cases e with
      | breakpointVerified b => exact absurd h (List.cons_ne_nil _ _)
      | _ => exact under_line_event _
  | breakpointSet b | breakpointRemoved b => exact absurd h (List.cons_ne_nil _ _)
  | columns cs =>
      show (cs.map fun c : Nat => Value.natural (c + 1)).filterMap Value.natural? = cs.map (· + 1)
      rw [List.filterMap_map]
      exact congrFun List.filterMap_eq_map cs
  | frames fs =>
      rw [List.map_eq_nil_iff.1 h]
      rfl
  | scopes ss =>
      exact (Value.under_list Scope.under_line ss).trans (List.flatMap_eq_nil_iff.2 fun _ _ => rfl)
  | listing vs =>
      exact (Value.under_list Variable.under_line vs).trans
        (List.flatMap_eq_nil_iff.2 fun _ _ => rfl)
  | _ => rfl

/-- Of a held line the text shows the number after it, except that a removal shows none. -/
theorem textPositions_of_held {o : Output} (h : o.heldLines ≠ []) :
    (∃ b, o = .breakpointRemoved b) ∨
      o.lines = o.heldLines ∧ o.textPositions = o.heldLines.map oneBased := by
  cases o with
  | event e =>
      cases e with
      | breakpointVerified b => exact .inr ⟨rfl, rfl⟩
      | _ => exact absurd rfl h
  | breakpointSet b | frames fs => exact .inr ⟨rfl, rfl⟩
  | breakpointRemoved b => exact .inl ⟨b, rfl⟩
  | _ => exact absurd rfl h

theorem oneBased_ne (line : UInt32) : oneBased line ≠ line.toNat := by
  have hsize : UInt32.size = 4294967296 := rfl
  have hlt := line.toNat_lt_size
  rw [oneBased, UInt32.toNat_add]
  show (line.toNat + 1) % 2 ^ 32 ≠ line.toNat
  omega

/-- The formats show the same of an output exactly if it holds no line. -/
theorem jsonPositions_eq_iff (o : Output) :
    o.jsonPositions = o.textPositions ↔ o.heldLines = [] := by
  refine ⟨fun heq => ?_, jsonPositions_of_not_held⟩
  by_contra hheld
  rw [jsonPositions_of_held hheld] at heq
  obtain ⟨line, rest, hlines⟩ := List.exists_cons_of_ne_nil hheld
  rcases textPositions_of_held hheld with ⟨b, rfl⟩ | ⟨-, htext⟩
  · exact nomatch heq
  · rw [htext, hlines, List.map_cons, List.map_cons] at heq
    exact oneBased_ne line (List.cons.inj heq).1.symm

theorem heldLines_event (e : Event) : (event e).heldLines = (event e).lines := by
  cases e <;> rfl

end Output

namespace Program

/-- A breakpoint that an input shows, with its line, was set by a command. -/
theorem mem_addedAt_of_shown {p : Program} (hp : Ready p) (earlier : List Input) (input : Input)
    {o : Output} (ho : o ∈ ((p.after earlier).feed input).1) {b : Breakpoint}
    (hb : o = .breakpointSet b ∨ o = .event (.breakpointVerified b)) :
    b.atFirst ∈ addedAt (p.setBy (earlier ++ [input])) := by
  have htaken := (p.after earlier).taken_feed input
  rw [← after_concat] at htaken
  obtain ⟨event, rfl, hevent⟩ | ⟨error, rfl⟩ | ⟨order, answer, horder, hreport, hanswer⟩ :=
    htaken.mem ho
  · obtain rfl : event = .breakpointVerified b := by simpa using hb
    have hrecorded := recorded_after (earlier ++ [input]) hp.recorded
    exact hrecorded.mem_addedAt_of_told (Session.mem_told hevent)
  · simp at hb
  · unfold Order.report at hreport
    split at hreport
    all_goals simp only [List.mem_singleton, List.not_mem_nil] at hreport
    all_goals subst hreport
    case h_1 path line b' =>
      obtain rfl : b' = b := by simpa using hb
      have hset := hanswer _ rfl
      simp only [Session.operate, Prod.map, Prod.mk.injEq, Answer.breakpoint.injEq] at hset
      obtain ⟨rfl, hafter⟩ := hset
      exact (mem_addedAt_of_set hp.recorded horder hafter.symm).1
    all_goals simp at hb

/-- How the formats are apart about an output of this input. The first field says that the numbers
compared are those that can be read, and the last one which of the two formats is right about the
line. -/
structure Apart (p : Program) (earlier : List Input) (input : Input) (o : Output) : Prop where
  shown : ∀ now, o.text now = o.textWith now o.textPositions
  /-- A removal shows its line in JSON alone. -/
  shifted : (∀ b, o ≠ .breakpointRemoved b) → o.heldLines ≠ [] →
    o.textPositions = o.jsonPositions.map (· + 1)
  /-- It is the text that shows the line as it was typed. -/
  typed : ∀ b, o = .breakpointSet b ∨ o = .event (.breakpointVerified b) →
    ∃ n, p.SetAt (earlier ++ [input]) b n ∧ o.textPositions = [n]

theorem apart_of_feed {p : Program} (hp : Ready p) (earlier : List Input) (input : Input) :
    ∀ o ∈ ((p.after earlier).feed input).1, p.Apart earlier input o := by
  intro o ho
  refine ⟨o.text_eq_textWith, ?_, ?_⟩
  · intro hkept hheld
    have hunwrapped := (exact_of_feed hp earlier input o ho).unwrapped
    obtain ⟨b, rfl⟩ | ⟨hlines, htext⟩ := Output.textPositions_of_held hheld
    · exact absurd rfl (hkept b)
    · rw [htext, Output.jsonPositions_of_held hheld, List.map_map]
      rw [hlines] at hunwrapped
      exact List.map_congr_left hunwrapped
  · intro b hb
    have hadded := mem_addedAt_of_shown hp earlier input ho hb
    obtain ⟨hset, hlt⟩ := setAt_of_mem_addedAt hp.recorded hadded
    refine ⟨_, hset, ?_⟩
    rw [← oneBased_of_lt hlt]
    rcases hb with rfl | rfl <;> rfl

theorem heldLines_start (config : Config) (debuggee : Debuggee) (files : Files)
    (asides : List (List Happening)) :
    ∀ o ∈ (start (newSession config debuggee files asides)).1, o.heldLines = [] := by
  intro o ho
  have hlines := lines_start config debuggee files asides o ho
  obtain ⟨event, rfl, -⟩ | ⟨failure, rfl⟩ := mem_start ho
  · rw [Output.heldLines_event, hlines]
  · rfl

/-- **The formats agree as long as no line is held.** What a run prints carries the same lines and
columns in both formats exactly if it prints no breakpoint, be it set, verified or removed, and no
frame. Of a breakpoint that is set or verified and of a frame the text shows the line after the one
in JSON, and for the breakpoint that is the line that was typed.

The formats are compared output by output. Where no line is held, the JSON has no number of a line
that the text would show differently, and where one is held the two numbers cannot be equal, as one
is added to it in the text, if it is shown there at all. -/
theorem formats_agree_iff_no_line_is_held (config : Config) (debuggee : Debuggee) (files : Files)
    (asides : List (List Happening)) (inputs : List Input) :
    let s := newSession config debuggee files asides
    let p := (start s).2
    ((∀ entry ∈ (run s inputs).1, ∀ o ∈ entry.outputs, o.jsonPositions = o.textPositions) ↔
        ∀ entry ∈ (run s inputs).1, ∀ o ∈ entry.outputs, o.heldLines = []) ∧
      ∀ entry ∈ (run s inputs).1,
        (entry.outputs = (start s).1 ∧ ∀ o ∈ entry.outputs, o.heldLines = []) ∨
          ∃ earlier input later, inputs ++ [.endOfInput] = earlier ++ input :: later ∧
            entry.outputs = ((p.after earlier).feed input).1 ∧
            ∀ o ∈ entry.outputs, p.Apart earlier input o := by
  intro s p
  refine ⟨?_, ?_⟩
  · simp only [Output.jsonPositions_eq_iff]
  · intro entry hentry
    rcases mem_run hentry with hstart | hlater
    · rw [hstart]
      exact .inl ⟨rfl, heldLines_start config debuggee files asides⟩
    · obtain ⟨earlier, input, later, hinputs, -, houtputs⟩ := mem_entries inputs hlater
      rw [houtputs]
      exact .inr ⟨earlier, input, later, hinputs, rfl,
        apart_of_feed (ready_start config debuggee files asides) earlier input⟩

/-- A breakpoint that is set at line 1 is at line 1 in the text and at line 0 in JSON. -/
theorem one_line_has_two_numbers :
    let s := newSession .initial ⟨"localhost", 8000, false, .accepted, [], false⟩
      (.named [("main.nut", .text "local a = 1")]) []
    let b : Breakpoint := ⟨1, "main.nut", 0, true⟩
    let o := Output.breakpointSet b
    (run s [.line "b main.nut:1".toUTF8.data.toList]).1.map Entry.outputs =
        [[.event (.started "localhost:8000")], [.event (.breakpointVerified b), o],
          [.event .ended]] ∧
      o.render .text 0 = "Breakpoint 1 at main.nut:1 (verified)" ∧
      o.render .json 0 =
        "\x7b\"id\":1,\"source_path\":\"main.nut\",\"line\":0,\"verified\":true\x7d" ∧
      o.textPositions = [1] ∧ o.jsonPositions = [0] := by
  decide +kernel

end Program

end Console

end DebugBridge
