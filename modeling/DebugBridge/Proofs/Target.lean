/-
What a server makes of the target of a query.

A target is cut before anything in it is decoded: at the number sign that begins a fragment, at the
question mark that begins the parameters, and then at slashes, ampersands and equals signs. None of
these is among the characters of an encoded value (`Text.encodedMarks`), so whatever a variable is
called, the server finds the one parameter that was meant, and the bytes of the path in it.

The server is not part of what is modelled here. It is a definition that takes targets apart as the
rules for them say (`Target.ofText`), against which the client is compared.
-/
import DebugBridge.Endpoint
import DebugBridge.Proofs.Query
import DebugBridge.Proofs.Text.Words

namespace DebugBridge

namespace Text

/-! ### What an encoded value is made of

One byte is one character or three. That makes the alphabet a matter of one byte, and a percent sign
the beginning of three characters, since the other two of them are digits and letters.
-/

/-- The characters of an encoded value that are neither letters nor digits. -/
def encodedMarks : List Char := ['*', '-', '.', '_', '+', '%']

/-- The text has only letters, digits and those characters. -/
def Unreserved (cs : List Char) : Prop := ∀ c ∈ cs, c.isAlphanum = true ∨ c ∈ encodedMarks

/-- The digits of an escape. -/
def hexDigits : List Char :=
  ['0', '1', '2', '3', '4', '5', '6', '7', '8', '9', 'A', 'B', 'C', 'D', 'E', 'F']

theorem upperHexDigit_mem : ∀ n < 16, upperHexDigit n ∈ hexDigits := by
  decide

/-- A byte becomes one character, or an escape. -/
theorem encodeQueryByte_cases (byte : UInt8) :
    (∃ c, encodeQueryByte byte = [c] ∧ (isPlainInQuery c = true ∨ c = '+')) ∨
      ∃ high ∈ hexDigits, ∃ low ∈ hexDigits, encodeQueryByte byte = ['%', high, low] := by
  unfold encodeQueryByte
  dsimp only
  split
  · next hplain => exact .inl ⟨_, rfl, .inl hplain⟩
  · split
    · exact .inl ⟨'+', rfl, .inr rfl⟩
    · have hbyte := byte.toNat_lt
      exact .inr ⟨_, upperHexDigit_mem _ (by omega), _, upperHexDigit_mem _ (by omega), rfl⟩

theorem mem_encodedMarks_of_plain {c : Char} (h : isPlainInQuery c = true) :
    c.isAlphanum = true ∨ c ∈ encodedMarks := by
  simp only [isPlainInQuery, Bool.or_eq_true, beq_iff_eq] at h
  rcases h with (((h | rfl) | rfl) | rfl) | rfl
  · exact .inl h
  all_goals exact .inr (by decide)

theorem isAlphanum_of_mem_hexDigits : ∀ c ∈ hexDigits, c.isAlphanum = true :=
  List.all_eq_true.1 (by decide : hexDigits.all Char.isAlphanum = true)

theorem unreserved_encodeQuery (text : String) : Unreserved (encodeQuery text).toList := by
  intro c hc
  rw [encodeQuery, String.toList_ofList] at hc
  obtain ⟨byte, -, hc⟩ := List.mem_flatMap.1 hc
  obtain ⟨d, hd, hplain⟩ | ⟨high, hhigh, low, hlow, hescape⟩ := encodeQueryByte_cases byte
  · rw [hd, List.mem_singleton] at hc
    subst hc
    rcases hplain with hplain | rfl
    · exact mem_encodedMarks_of_plain hplain
    · exact .inr (by decide)
  · rw [hescape] at hc
    simp only [List.mem_cons, List.not_mem_nil, or_false] at hc
    rcases hc with rfl | rfl | rfl
    · exact .inr (by decide)
    · exact .inl (isAlphanum_of_mem_hexDigits _ hhigh)
    · exact .inl (isAlphanum_of_mem_hexDigits _ hlow)

/-- A percent sign in an encoded text begins an escape. -/
theorem escape_of_flatMap {bytes : List UInt8} {before after : List Char}
    (h : bytes.flatMap encodeQueryByte = before ++ '%' :: after) :
    ∃ high ∈ hexDigits, ∃ low ∈ hexDigits, ∃ rest, after = high :: low :: rest := by
  have hpercent : '%' ∉ hexDigits := by decide
  induction bytes generalizing before with
  | nil => simp at h
  | cons byte bytes ih =>
      rw [List.flatMap_cons] at h
      obtain ⟨c, hc, hplain⟩ | ⟨high, hhigh, low, hlow, hescape⟩ := encodeQueryByte_cases byte
      · rw [hc] at h
        cases before with
        | nil =>
            obtain ⟨rfl, -⟩ := List.cons.inj h
            exact absurd hplain (by decide)
        | cons d before => exact ih (List.cons.inj h).2
      · rw [hescape] at h
        rcases before with _ | ⟨d, _ | ⟨d', _ | ⟨d'', before⟩⟩⟩
        · exact ⟨high, hhigh, low, hlow, _, (List.cons.inj h).2.symm⟩
        · obtain ⟨-, rfl, -⟩ : _ ∧ high = '%' ∧ _ := by simpa using h
          exact absurd hhigh hpercent
        · obtain ⟨-, -, rfl, -⟩ : _ ∧ _ ∧ low = '%' ∧ _ := by simpa using h
          exact absurd hlow hpercent
        · exact ih (List.cons.inj (List.cons.inj (List.cons.inj h).2).2).2

theorem unreserved_of_all {cs : List Char} (h : cs.all Char.isAlphanum = true) : Unreserved cs :=
  fun c hc => .inl (List.all_eq_true.1 h c hc)

theorem unreserved_repr (n : Nat) : Unreserved n.repr.toList := by
  intro c hc
  refine .inl ?_
  rw [Char.isAlphanum, isDigit_of_mem_repr c hc, Bool.or_true]

/-- The characters that a target is cut at. -/
def cuts : List Char := ['#', '?', '&', '=', '/']

theorem Unreserved.no_cut {cs : List Char} (h : Unreserved cs) : ∀ c ∈ cs, c ∉ cuts := by
  have hcuts : cuts.all (fun c => !c.isAlphanum && !encodedMarks.contains c) = true := by decide
  intro c hc hcut
  have hnone := List.all_eq_true.1 hcuts c hcut
  rcases h c hc with hplain | hplain
  · simp [hplain] at hnone
  · simp [hplain] at hnone

theorem Unreserved.not_mem {cs : List Char} (h : Unreserved cs) {mark : Char}
    (hmark : mark ∈ cuts) :
    mark ∉ cs :=
  fun hmem => h.no_cut mark hmem hmark

theorem Unreserved.pieces_eq {cs : List Char} (h : Unreserved cs) {mark : Char}
    (hmark : mark ∈ cuts) : pieces (· == mark) cs = [cs] := by
  refine pieces_of_no_mark fun c hc => ?_
  rw [beq_eq_false_iff_ne]
  rintro rfl
  exact h.not_mem hmark hc

/-! ### Cutting once

A mark that is not in a text does not cut it. This and the equation for the first mark are all that
is used of cutting.
-/

/-- The text in front of the first `mark`, and the text behind it if there is one. -/
def cutAt (mark : Char) (cs : List Char) : List Char × Option (List Char) :=
  (cs.takeWhile (· ≠ mark), (cs.dropWhile (· ≠ mark)).tail?)

variable {mark : Char}

theorem ne_of_not_mem {cs : List Char} (h : mark ∉ cs) : ∀ c ∈ cs, decide (c ≠ mark) = true := by
  intro c hc
  refine decide_eq_true ?_
  rintro rfl
  exact h hc

theorem cutAt_append_cons {before : List Char} (h : mark ∉ before) (after : List Char) :
    cutAt mark (before ++ mark :: after) = (before, some after) := by
  rw [cutAt, List.takeWhile_append_of_pos (ne_of_not_mem h),
    List.dropWhile_append_of_pos (ne_of_not_mem h)]
  simp

theorem cutAt_of_not_mem {cs : List Char} (h : mark ∉ cs) : cutAt mark cs = (cs, none) := by
  rw [cutAt, List.takeWhile_eq_self_iff.2 (ne_of_not_mem h),
    List.dropWhile_eq_nil_iff.2 (ne_of_not_mem h)]
  rfl

end Text

/-! ### Targets

All words of the target of a query are unreserved: names of areas and kinds, the digits of a number,
and an encoded value. That is the only hypothesis of the lemmas about cutting, so they hold of any
words like that.
-/

/-- A target as a server takes it apart. Names and values of its parameters are bytes. -/
structure Target where
  segments : List (List Char)
  parameters : List (List UInt8 × List UInt8)
  fragment : Option (List Char)

namespace Target

/-- One parameter, decoded; a value that is not given is empty. -/
def parameter (cs : List Char) : List UInt8 × List UInt8 :=
  let (name, value) := Text.cutAt '=' cs
  (Text.decodeQuery name, Text.decodeQuery (value.getD []))

/-- Takes a target apart: first its fragment, then its parameters. -/
def ofText (cs : List Char) : Target :=
  let (front, fragment) := Text.cutAt '#' cs
  let (path, query) := Text.cutAt '?' front
  { segments := Text.pieces (· == '/') path
    parameters := query.elim [] fun parameters => (Text.pieces (· == '&') parameters).map parameter
    fragment }

open Text (Unreserved cuts)

section Cut

variable {area kind value name content : List Char}

theorem segments_eq (harea : Unreserved area) (hkind : Unreserved kind)
    (hvalue : Unreserved value) :
    Text.pieces (· == '/') ('/' :: (area ++ '/' :: (kind ++ '/' :: value))) =
      [[], area, kind, value] := by
  rw [Text.pieces_cons_of_pos rfl, Text.pieces_append_cons rfl, Text.pieces_append_cons rfl,
    harea.pieces_eq (by decide), hkind.pieces_eq (by decide), hvalue.pieces_eq (by decide)]
  rfl

theorem not_mem_parameter (hname : Unreserved name) (hcontent : Unreserved content) {mark : Char}
    (hmark : mark ∈ cuts) (hequals : mark ≠ '=') : mark ∉ name ++ '=' :: content := by
  simp [hequals, hname.not_mem hmark, hcontent.not_mem hmark]

theorem parameters_eq (hname : Unreserved name) (hcontent : Unreserved content) :
    (Text.pieces (· == '&') (name ++ '=' :: content)).map parameter =
      [(Text.decodeQuery name, Text.decodeQuery content)] := by
  have hpieces : Text.pieces (· == '&') (name ++ '=' :: content) = [name ++ '=' :: content] := by
    refine Text.pieces_of_no_mark fun c hc => beq_eq_false_iff_ne.2 ?_
    rintro rfl
    exact not_mem_parameter hname hcontent (by decide) (by decide) hc
  rw [hpieces, List.map_singleton, parameter, Text.cutAt_append_cons (hname.not_mem (by decide))]
  rfl

/-- A target made of unreserved words is cut between them and nowhere else. Each of the marks stands
once, between two words, so it does not matter which of the cuts is made first. -/
theorem ofText_of_unreserved (harea : Unreserved area) (hkind : Unreserved kind)
    (hvalue : Unreserved value) (hname : Unreserved name) (hcontent : Unreserved content) :
    ofText (('/' :: (area ++ '/' :: (kind ++ '/' :: value))) ++ '?' :: (name ++ '=' :: content)) =
      { segments := [[], area, kind, value]
        parameters := [(Text.decodeQuery name, Text.decodeQuery content)]
        fragment := none } := by
  have hpath : ∀ mark ∈ cuts, mark ≠ '/' →
      mark ∉ '/' :: (area ++ '/' :: (kind ++ '/' :: value)) := by
    intro mark hmark hslash
    simp [hslash, harea.not_mem hmark, hkind.not_mem hmark, hvalue.not_mem hmark]
  have hfragment : '#' ∉ ('/' :: (area ++ '/' :: (kind ++ '/' :: value))) ++
      '?' :: (name ++ '=' :: content) := by
    intro hmem
    rcases List.mem_append.1 hmem with hmem | hmem
    · exact hpath '#' (by decide) (by decide) hmem
    · rcases List.mem_cons.1 hmem with hmem | hmem
      · exact absurd hmem (by decide)
      · exact not_mem_parameter hname hcontent (by decide) (by decide) hmem
  rw [ofText, Text.cutAt_of_not_mem hfragment]
  dsimp only
  rw [Text.cutAt_append_cons (hpath '?' (by decide) (by decide))]
  simp only [Option.elim, segments_eq harea hkind hvalue, parameters_eq hname hcontent]

end Cut

end Target

theorem Endpoint.commandUrl_eq (e : Endpoint) (name : String) :
    e.commandUrl name =
      (if e.secure then "https://" else "http://") ++ e.address ++ target name := by
  have hplain : "http" ++ "://" = "http://" := by decide
  have hsecure : "https" ++ "://" = "https://" := by decide
  rw [← hplain, ← hsecure]
  cases h : e.secure <;> simp [commandUrl, h, toString]

namespace VariableHandle

/-- The target of the query for a local value. -/
theorem toList_target (frame : UInt32) (value : String) :
    (Endpoint.target ("StackLocals/" ++ frame.toNat.repr ++ "?path=" ++ value)).toList =
      ('/' :: ("DebugCommand".toList ++ '/' :: ("StackLocals".toList ++
        '/' :: frame.toNat.repr.toList))) ++ '?' :: ("path".toList ++ '=' :: value.toList) := by
  have hcommand : "/DebugCommand/".toList = '/' :: ("DebugCommand".toList ++ ['/']) := by
    decide +kernel
  have hlocals : "StackLocals/".toList = "StackLocals".toList ++ ['/'] := by decide +kernel
  have hpath : "?path=".toList = '?' :: ("path".toList ++ ['=']) := by decide +kernel
  have htarget : ∀ name : String, Endpoint.target name = "/DebugCommand/" ++ name := fun _ => rfl
  simp only [htarget, String.toList_append, hcommand, hlocals, hpath, List.append_assoc,
    List.cons_append, List.nil_append]

/-- **A server finds what was asked for.** The one parameter of the target is the path, and there is
nothing else behind the frame. -/
theorem ofText_target (frame : UInt32) (path : String) :
    Target.ofText (Endpoint.target
        ("StackLocals/" ++ frame.toNat.repr ++ "?path=" ++ Text.encodeQuery path)).toList =
      { segments := [[], "DebugCommand".toList, "StackLocals".toList, frame.toNat.repr.toList]
        parameters := [("path".toUTF8.toList, path.toUTF8.toList)]
        fragment := none } := by
  have hcommand : Text.Unreserved "DebugCommand".toList :=
    Text.unreserved_of_all (by decide +kernel)
  have hlocals : Text.Unreserved "StackLocals".toList := Text.unreserved_of_all (by decide +kernel)
  have hname : Text.Unreserved "path".toList := Text.unreserved_of_all (by decide +kernel)
  have hpath : Text.decodeQuery "path".toList = "path".toUTF8.toList := by decide +kernel
  rw [toList_target, Target.ofText_of_unreserved hcommand hlocals (Text.unreserved_repr _) hname
    (Text.unreserved_encodeQuery path), Text.decodeQuery_encodeQuery, hpath]

/-- **A query carries its path.** The query for a local value names the frame in decimal and the
path encoded. The encoded path has only letters, digits and a few marks in it, every percent sign
begins an escape of two hexadecimal digits, and decoded it is the path, byte for byte. So the target
of the request, wherever the debuggee listens, has the path as its one parameter, whatever the names
in it are.

None of the characters that a target is cut at can come out of the encoding, which is shown byte by
byte (`Text.unreserved_encodeQuery`). The rest is cutting words apart that hold no mark. -/
theorem query_carries_path (frame : UInt32) (path : List String) :
    ∃ name value : String,
      query ⟨.locals frame, path⟩ = .ok name ∧
      name = "StackLocals/" ++ frame.toNat.repr ++ "?path=" ++ value ∧
      value = Text.encodeQuery (memberPath ⟨.locals frame, path⟩) ∧
      (∀ c ∈ value.toList, c.isAlphanum = true ∨ c ∈ ['*', '-', '.', '_', '+', '%']) ∧
      (∀ before after, value.toList = before ++ '%' :: after →
        ∃ high ∈ Text.hexDigits, ∃ low ∈ Text.hexDigits, ∃ rest, after = high :: low :: rest) ∧
      Text.decodeQuery value.toList = (memberPath ⟨.locals frame, path⟩).toUTF8.toList ∧
      (∀ e : Endpoint, e.commandUrl name =
        (if e.secure then "https://" else "http://") ++ e.address ++ Endpoint.target name) ∧
      Target.ofText (Endpoint.target name).toList =
        { segments := [[], "DebugCommand".toList, "StackLocals".toList, frame.toNat.repr.toList]
          parameters := [("path".toUTF8.toList, (memberPath ⟨.locals frame, path⟩).toUTF8.toList)]
          fragment := none } := by
  refine ⟨_, Text.encodeQuery (memberPath ⟨.locals frame, path⟩), query_locals frame path, rfl, rfl,
    Text.unreserved_encodeQuery _, fun before after h => ?_, Text.decodeQuery_encodeQuery _,
    fun e => e.commandUrl_eq _, ofText_target frame _⟩
  rw [Text.encodeQuery, String.toList_ofList] at h
  exact Text.escape_of_flatMap h

/-- A name that is a percent sign itself is escaped. -/
theorem query_carries_percent :
    query ⟨.locals 3, ["%"]⟩ = .ok "StackLocals/3?path=%25" ∧
      ∃ high ∈ Text.hexDigits, ∃ low ∈ Text.hexDigits, ∃ rest,
        ['2', '5'] = high :: low :: rest := by
  obtain ⟨_, _, -, -, rfl, -, hescape, -⟩ := query_carries_path 3 ["%"]
  exact ⟨by decide +kernel, hescape [] ['2', '5'] (by decide +kernel)⟩

end VariableHandle

end DebugBridge
