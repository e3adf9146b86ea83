/-
The output in JSON, line by line.

Whoever reads the output in JSON cuts it at the line breaks and reads each line. That gives back
what was printed, in order, because each output but help is the compact text of a value: it has no
line break of its own, and reads as that value, and nothing else on the output reads as a value at
all (`carried_lines`). What is in the strings, which the debuggee may have sent, plays no part.
Events are printed in between the results of commands, and all of them are (`Program.events_run`).

Counts are read back as words, so they have to be words, and are: the lists that are counted lie in
memory. This is the one thing that has to be assumed of a run.
-/
import DebugBridge.Proofs.Codec
import DebugBridge.Proofs.Console.Script
import DebugBridge.Proofs.Text.Words
import Mathlib.Data.List.Forall2

namespace DebugBridge.Console

open Json (Decoder Document NoControls Value Wire nestingLimit)

/-! ### Texts and lines

The output is one text, of which only the bytes are there to read. To cut it is what a reader has to
do first, and the cuts fall where the program made them only if no output has a line break inside
(`splitLines_intercalate`).
-/

/-- The standard output for these outputs, of which each is printed at its own moment. -/
def stdoutText (format : Format) (clock : Nat → Moment) (outputs : List Output) : String :=
  String.ofList (outputs.zipIdx.flatMap fun (o, i) => (o.render format (clock i)).toList ++ ['\n'])

/-- What stands between the line breaks of a text, and before the first and behind the last. -/
def splitLines (text : String) : List String :=
  (Text.pieces (· = '\n') text.toList).map String.ofList

/-- Whether a line is JSON. -/
def isJson (line : String) : Bool := (Json.read line).complete

theorem splitLines_of_not_mem {text : String} (h : '\n' ∉ text.toList) :
    splitLines text = [text] := by
  have hwhole : Text.pieces (· = '\n') text.toList = [text.toList] := by
    refine Text.pieces_of_no_mark fun c hc => decide_eq_false ?_
    rintro rfl
    exact h hc
  rw [splitLines, hwhole, List.map_singleton, String.ofList_toList]

theorem splitLines_intercalate {lines : List String} (hne : lines ≠ [])
    (h : ∀ line ∈ lines, '\n' ∉ line.toList) : splitLines ("\n".intercalate lines) = lines := by
  have hparts : lines.map String.toList ≠ [] := by simpa using hne
  have hmark : "\n".toList = ['\n'] := rfl
  rw [splitLines, String.toList_intercalate, hmark, Text.pieces_intercalate (by decide) hparts,
    List.flatMap_map, List.map_flatMap]
  exact (List.flatMap_congr fun line hline => splitLines_of_not_mem (h line hline)).trans
    (List.flatMap_singleton' lines)

/-- Reads a word as a number. -/
def asCount : Decoder Nat := fun d => d.asUInt64.map UInt64.toNat

theorem asCount_ofValue {n : Nat} (h : n < UInt64.size) :
    asCount (.ofValue (.natural n)) = .ok n := by
  have hword := Document.asUInt64_ofValue (UInt64.ofNat n)
  rw [UInt64.toNat_ofNat_of_lt' h] at hword
  rw [asCount, hword, Except.map, UInt64.toNat_ofNat_of_lt' h]

namespace Output

/-- The lines that an output takes up in JSON: one, unless it is help. -/
def jsonLines (o : Output) : List String :=
  match o.value? with
  | some value => [value.compact]
  | none => splitLines helpText

/-- The numbers that an output counts, as they are written. -/
def counts : Output → List Nat
  | .breakpointsRemoved _ count => [count]
  | .columns cs => cs.map (· + 1)
  | _ => []

/-- What is read from the line, as the kind of thing that was printed, is what was printed. -/
def IsReadFrom (line : String) : Output → Prop
  | .event e => Wire.ofText? line = some e
  | .breakpointSet b | .breakpointRemoved b => Wire.ofText? line = some b
  | .breakpointsRemoved _ count => Wire.decodeText asCount line = .ok count
  | .columns cs => Wire.decodeText (Document.asList asCount) line = .ok (cs.map (· + 1))
  | .frames fs => Wire.decodeText (Document.asList Wire.decode) line = .ok fs
  | .scopes ss => Wire.decodeText (Document.asList Wire.decode) line = .ok ss
  | .listing vs => Wire.decodeText (Document.asList Wire.decode) line = .ok vs
  | .help | .noBreakpoint _ _ | .failed _ | .notUnderstood _ => False

/-- The line is JSON for the output, and nothing else is on it. There is a field for whoever cuts
the output at line breaks, one for whoever reads any JSON, and one for whoever knows what to expect.
-/
structure IsCarriedBy (o : Output) (line : String) : Prop where
  noControls : NoControls line.toList
  /-- Read as JSON, it is the value that was printed. -/
  value : ∃ v, o.value? = some v ∧ Json.read line = ⟨.ofValue v, true⟩
  typed : o.IsReadFrom line

/-! ### One output

There is a case for each kind of output, with the lemma about its own encoding. From there on it
does not matter which kind it is, only that there is a value and that it fits.
-/

variable {o : Output} {v : Value}

theorem value?_columns (cs : List Nat) :
    (columns cs).value? = some (Value.list Value.natural (cs.map (· + 1))) := by
  rw [Value.list, List.map_map]
  rfl

/-- Each kind of value is written such that it is read back. This is the one place where the kinds
of output are gone through. -/
theorem fits_and_isReadFrom (hv : o.value? = some v) (hwords : ∀ n ∈ o.counts, n < UInt64.size) :
    v.Fits nestingLimit ∧ o.IsReadFrom v.compact := by
  cases o with
  | event e =>
      obtain rfl := Option.some.inj hv
      exact ⟨Event.lawful.fits e, Event.lawful.ofText?_toText e⟩
  | breakpointSet b | breakpointRemoved b =>
      obtain rfl := Option.some.inj hv
      exact ⟨Breakpoint.lawful.fits b, Breakpoint.lawful.ofText?_toText b⟩
  | breakpointsRemoved path count =>
      obtain rfl := Option.some.inj hv
      have hword : count < UInt64.size := hwords count List.mem_cons_self
      have hfits : (Value.natural count).Fits nestingLimit := .natural (Nat.le_sub_one_of_lt hword)
      exact ⟨hfits, Wire.decodeText_compact hfits (asCount_ofValue hword)⟩
  | columns cs =>
      obtain rfl := Option.some.inj ((value?_columns cs).symm.trans hv)
      have hfits : (Value.list Value.natural (cs.map (· + 1))).Fits nestingLimit :=
        .list fun n hn => .natural (Nat.le_sub_one_of_lt (hwords n hn))
      exact ⟨hfits, Wire.decodeText_compact hfits
        (Document.asList_ofValue fun n hn => asCount_ofValue (hwords n hn))⟩
  | frames fs =>
      obtain rfl := Option.some.inj hv
      exact ⟨.list fun f _ => f.fits_encode _,
        StackFrame.lawful.decodeText_list (fun f => f.fits_encode _) fs⟩
  | scopes ss =>
      obtain rfl := Option.some.inj hv
      exact ⟨.list fun s _ => s.fits_encode _,
        Scope.lawful.decodeText_list (fun s => s.fits_encode _) ss⟩
  | listing vs =>
      obtain rfl := Option.some.inj hv
      exact ⟨.list fun m _ => m.fits_encode _,
        Variable.lawful.decodeText_list (fun m => m.fits_encode _) vs⟩
  | help | noBreakpoint | failed | notUnderstood => cases hv

/-- What has a value is carried by the compact text. -/
theorem isCarriedBy_compact (hv : o.value? = some v) (hwords : ∀ n ∈ o.counts, n < UInt64.size) :
    o.IsCarriedBy v.compact := by
  obtain ⟨hfits, hread⟩ := fits_and_isReadFrom hv hwords
  have htext : v.compact.toList = Json.writeValue v := String.toList_ofList
  refine ⟨?_, ⟨v, hv, Json.read_compact hfits⟩, hread⟩
  rw [htext]
  exact Json.noControls_writeValue hfits

theorem IsCarriedBy.isJson {line : String} (h : o.IsCarriedBy line) : isJson line = true := by
  obtain ⟨v, -, hread⟩ := h.value
  rw [Console.isJson, hread]

/-- Of what goes to the output only help has no value. -/
theorem eq_help (hprinted : o.isComplaint = false) (hnone : o.value? = none) : o = .help := by
  cases o with
  | help => rfl
  | noBreakpoint | failed | notUnderstood => cases hprinted
  | _ => cases hnone

/-- No line of the help can be taken for JSON. -/
theorem isJson_helpText : ∀ line ∈ splitLines helpText, Console.isJson line = false := by
  obtain ⟨lines, htext, hne, hlines⟩ : ∃ lines, helpText = "\n".intercalate lines ∧ lines ≠ [] ∧
      ∀ line ∈ lines, '\n' ∉ line.toList ∧ Console.isJson line = false :=
    ⟨_, rfl, List.cons_ne_nil _ _, by decide +kernel⟩
  rw [htext, splitLines_intercalate hne fun line hline => (hlines line hline).1]
  exact fun line hline => (hlines line hline).2

theorem splitLines_render (hprinted : o.isComplaint = false)
    (hwords : ∀ n ∈ o.counts, n < UInt64.size) (now : Moment) :
    splitLines (o.render .json now) = o.jsonLines := by
  cases hv : o.value? with
  | some v =>
      have hrender : o.render .json now = v.compact := by simp only [render, hv]
      rw [hrender, splitLines_of_not_mem
          (isCarriedBy_compact hv hwords).noControls.not_mem_lineFeed]
      simp only [jsonLines, hv]
  | none =>
      rw [eq_help hprinted hv]
      rfl

end Output

/-! ### Many outputs

The lines of help lie between those of the values. They are left out by asking of each line whether
it is JSON, which none of them is, so what is left are the outputs in their order.
-/

theorem splitLines_stdoutText {outputs : List Output}
    (hprinted : ∀ o ∈ outputs, o.isComplaint = false)
    (hwords : ∀ o ∈ outputs, ∀ n ∈ o.counts, n < UInt64.size) (clock : Nat → Moment) :
    splitLines (stdoutText .json clock outputs) = outputs.flatMap Output.jsonLines ++ [""] := by
  have hlines : ∀ x ∈ outputs.zipIdx,
      splitLines (x.1.render .json (clock x.2)) = x.1.jsonLines := by
    intro x hx
    have hmem := List.fst_mem_of_mem_zipIdx hx
    exact Output.splitLines_render (hprinted _ hmem) (hwords _ hmem) _
  rw [splitLines, stdoutText, String.toList_ofList, Text.pieces_flatMap (by decide),
    List.map_append,
    List.map_flatMap]
  refine congrArg (· ++ [""]) ?_
  refine (List.flatMap_congr hlines).trans ?_
  rw [← List.flatMap_map, List.zipIdx_map_fst]

/-- The lines that are JSON carry, in order, the outputs other than help. The outputs are filtered
by what they are and the lines by what they look like, which comes to the same. -/
theorem carried_lines {outputs : List Output} (hprinted : ∀ o ∈ outputs, o.isComplaint = false)
    (hwords : ∀ o ∈ outputs, ∀ n ∈ o.counts, n < UInt64.size) :
    List.Forall₂ Output.IsCarriedBy (outputs.filter fun o => o ≠ .help)
      ((outputs.flatMap Output.jsonLines).filter isJson) := by
  induction outputs with
  | nil => exact .nil
  | cons o rest ih =>
      obtain ⟨ho, hrest⟩ := List.forall_mem_cons.1 hprinted
      obtain ⟨howords, hrestwords⟩ := List.forall_mem_cons.1 hwords
      rw [List.flatMap_cons, List.filter_append]
      cases hv : o.value? with
      | some v =>
          have hcarried := Output.isCarriedBy_compact hv howords
          have hne : o ≠ .help := by
            rintro rfl
            cases hv
          have hline : o.jsonLines.filter isJson = [v.compact] := by
            simp only [Output.jsonLines, hv, List.filter_cons, hcarried.isJson, if_true,
              List.filter_nil]
          rw [hline, List.filter_cons_of_pos (by simpa using hne)]
          exact .cons hcarried (ih hrest hrestwords)
      | none =>
          obtain rfl := Output.eq_help ho hv
          have hnone : Output.help.jsonLines.filter isJson = [] := by
            refine List.filter_eq_nil_iff.2 fun line hline => ?_
            rw [Output.isJson_helpText line hline]
            decide
          rw [hnone, List.filter_cons_of_neg (by decide)]
          exact ih hrest hrestwords

namespace Program

theorem eventsPrinted_filter (kept : Output → Bool) (h : ∀ e, kept (.event e) = true)
    (outputs : List Output) : eventsPrinted (outputs.filter kept) = eventsPrinted outputs := by
  rw [eventsPrinted, List.filterMap_filter]
  refine List.filterMap_congr fun o _ => ?_
  cases o with
  | event e => rw [if_pos (h e)]
  | _ => exact ite_self _

/-- What a run prints on the standard output. -/
def printed (s : Session) (inputs : List Input) : List Output :=
  ((run s inputs).1.flatMap (·.outputs)).filter fun o => !o.isComplaint

/-- **The output in JSON is read line by line.** Whatever is typed and whatever the debuggee sends,
a run in JSON prints every event, and what it prints takes up one line each, apart from the lines of
help. Cutting the output at the line breaks and leaving out what is no JSON gives, in order, a line
for each event and each result that carries it: read as JSON it is the very value, and as an event,
a breakpoint, a count, or a list of columns, frames, scopes or variables it is the one that was
printed. The counts are words, as those of a list in memory are.

The three parts are one after the other what a reader has to know: that nothing is left out, where
the lines end, and what is on them. That the lines of help are no JSON is seen by reading each of
them. -/
theorem json_lines_carry_what_is_printed (config : Config) (debuggee : Debuggee) (files : Files)
    (asides : List (List Happening)) (inputs : List Input) (clock : Nat → Moment)
    (hwords : ∀ o ∈ printed (newSession config debuggee files asides) inputs,
      ∀ n ∈ o.counts, n < UInt64.size) :
    let s := newSession config debuggee files asides
    let results := (printed s inputs).filter fun o => o ≠ .help
    let lines := splitLines (stdoutText .json clock (printed s inputs))
    eventsPrinted results = eventsIn (final s inputs).session.log ∧
      lines = (printed s inputs).flatMap Output.jsonLines ++ [""] ∧
      List.Forall₂ Output.IsCarriedBy results (lines.filter isJson) := by
  intro s results lines
  have hprinted : ∀ o ∈ printed s inputs, o.isComplaint = false := by
    intro o ho
    simpa using (List.mem_filter.1 ho).2
  have hlines : lines = (printed s inputs).flatMap Output.jsonLines ++ [""] :=
    splitLines_stdoutText hprinted hwords clock
  refine ⟨?_, hlines, ?_⟩
  · have hresults : eventsPrinted results = eventsPrinted (printed s inputs) :=
      eventsPrinted_filter (fun o => o ≠ .help) (by simp) (printed s inputs)
    have hall : eventsPrinted (printed s inputs) =
        eventsPrinted ((run s inputs).1.flatMap (·.outputs)) :=
      eventsPrinted_filter (fun o => !o.isComplaint) (fun _ => rfl) _
    have hnew : eventsIn s.log = [] := rfl
    rw [hresults, hall, ← events_run s inputs, hnew, List.nil_append]
  · have hlast : [""].filter isJson = [] := by decide +kernel
    rw [hlines, List.filter_append, hlast, List.append_nil]
    exact carried_lines hprinted hwords

/-- A table whose name has a line break and whose value is a quote takes up one line. It is one of
six lines of JSON, with those of the scopes, of a breakpoint and its removal, and of the events
about the session. The lines of help, which stand among them, are not counted. -/
theorem json_lines_of_listing :
    let listing : Reply := ⟨[], .replied 200
      "\x7b\"variables\":[\x7b\"name\":\"a\\nb\",\"type\":\"table\",\"value\":\"\\\"\"\x7d]\x7d"⟩
    let debuggee : Debuggee :=
      ⟨"localhost", 8000, false, .accepted, [("StackLocals/0?path=", [listing])], false⟩
    let s := newSession .initial debuggee (.named []) []
    let inputs : List Input :=
      [.typed "scopes 0", .typed "help", .typed "v 1", .typed "b a.nut:1", .typed "bc a.nut"]
    let lines := splitLines (stdoutText .json (fun _ => 0) (printed s inputs))
    (∀ o ∈ printed s inputs, ∀ n ∈ o.counts, n < UInt64.size) ∧
      .listing [⟨"a\nb", "table", "\"", 3⟩] ∈ printed s inputs ∧
      (lines.filter isJson).length = 6 := by
  intro listing debuggee s inputs lines
  have hwords : ∀ o ∈ printed s inputs, ∀ n ∈ o.counts, n < UInt64.size := by decide +kernel
  obtain ⟨-, -, hcarried⟩ :=
    json_lines_carry_what_is_printed .initial debuggee (.named []) [] inputs (fun _ => 0) hwords
  have hsix : ((printed s inputs).filter fun o => o ≠ .help).length = 6 := by decide +kernel
  exact ⟨hwords, by decide +kernel, hcarried.length_eq.symm.trans hsix⟩

end Program

end DebugBridge.Console
