/-
What a query says of the value that it asks for.

The encoding of a path loses nothing, since it can be read back (`decodeQuery_encodeQuery`), and nor
does the number of the frame. But a path is written with commas between its members, and a comma
that is part of a name looks the same. So queries tell apart exactly those local values that lie in
different frames or whose paths are written differently (`query_eq_iff`). Where names have no commas
in them these are all, but for the frame itself and a variable without a name
(`intercalate_eq_iff`).

That requests are told apart by their queries needs one thing more: a request with a query comes
from a step that asked for the value, which is known from `Proofs/Provenance.lean`.
-/
import DebugBridge.Proofs.Provenance
import Mathlib

namespace DebugBridge

namespace Text

/-! ### Reading a query parameter back

The decoder is no part of a session. It says what an encoded value stands for by the rules of forms,
where a plus sign is a space, and it is defined for every text, also for those that no encoder
writes. A byte is read back from the one or three characters it became, and the bytes of a text
determine the text.
-/

/-- The value of an upper-case hexadecimal digit. -/
def hexDigitValue (c : Char) : Nat :=
  if c.isDigit then c.toNat - '0'.toNat else c.toNat - 'A'.toNat + 10

/-- The bytes that an encoded value stands for. A percent sign with fewer than two characters behind
it stands for itself, like every other character. -/
def decodeQuery : List Char → List UInt8
  | '%' :: high :: low :: rest =>
    UInt8.ofNat (16 * hexDigitValue high + hexDigitValue low) :: decodeQuery rest
  | '+' :: rest => UInt8.ofNat ' '.toNat :: decodeQuery rest
  | c :: rest => UInt8.ofNat c.toNat :: decodeQuery rest
  | [] => []

theorem hexDigitValue_upperHexDigit : ∀ n < 16, hexDigitValue (upperHexDigit n) = n := by
  decide

theorem decodeQuery_escape (high low : Char) (rest : List Char) :
    decodeQuery ('%' :: high :: low :: rest) =
      UInt8.ofNat (16 * hexDigitValue high + hexDigitValue low) :: decodeQuery rest := by
  rw [decodeQuery]

theorem decodeQuery_of_plain {c : Char} (hplain : isPlainInQuery c = true) (rest : List Char) :
    decodeQuery (c :: rest) = UInt8.ofNat c.toNat :: decodeQuery rest := by
  have hpercent : c ≠ '%' := by rintro rfl; exact absurd hplain (by decide)
  have hplus : c ≠ '+' := by rintro rfl; exact absurd hplain (by decide)
  rw [decodeQuery]
  · exact fun high low rest' heq => absurd heq hpercent
  · exact hplus

theorem toNat_ofNat_byte (byte : UInt8) : (Char.ofNat byte.toNat).toNat = byte.toNat := by
  have hvalid : byte.toNat.isValidChar := Or.inl (by have := byte.toNat_lt; omega)
  rw [Char.toNat_ofNat, if_pos hvalid]

theorem decodeQuery_encodeQueryByte (byte : UInt8) (rest : List Char) :
    decodeQuery (encodeQueryByte byte ++ rest) = byte :: decodeQuery rest := by
  unfold encodeQueryByte
  dsimp only
  split
  · rename_i hplain
    rw [List.singleton_append, decodeQuery_of_plain hplain, toNat_ofNat_byte, UInt8.ofNat_toNat]
  · split
    · rename_i hspace
      have hbyte : byte = UInt8.ofNat ' '.toNat := by
        rw [← hspace, toNat_ofNat_byte, UInt8.ofNat_toNat]
      rw [List.singleton_append, decodeQuery, hbyte]
    · have hhigh : byte.toNat / 16 < 16 := by have := byte.toNat_lt; omega
      have hlow : byte.toNat % 16 < 16 := Nat.mod_lt _ (by decide)
      rw [List.cons_append, List.cons_append, List.cons_append, List.nil_append,
        decodeQuery_escape, hexDigitValue_upperHexDigit _ hhigh, hexDigitValue_upperHexDigit _ hlow,
        Nat.div_add_mod, UInt8.ofNat_toNat]

theorem decodeQuery_flatMap (bytes : List UInt8) :
    decodeQuery (bytes.flatMap encodeQueryByte) = bytes := by
  induction bytes with
  | nil => rfl
  | cons byte rest ih => rw [List.flatMap_cons, decodeQuery_encodeQueryByte, ih]

/-- An encoded text reads back as its bytes. -/
theorem decodeQuery_encodeQuery (text : String) :
    decodeQuery (encodeQuery text).toList = text.toUTF8.toList := by
  rw [encodeQuery, String.toList_ofList, decodeQuery_flatMap]

theorem toList_loop (bytes : ByteArray) (i : Nat) (seen : List UInt8) :
    ByteArray.toList.loop bytes i seen = seen.reverse ++ bytes.data.toList.drop i := by
  fun_induction ByteArray.toList.loop bytes i seen with
  | case1 i seen hi ih =>
      have hlt : i < bytes.data.toList.length := hi
      rw [ih, List.drop_eq_getElem_cons hlt, List.reverse_cons, List.append_assoc]
      simp [ByteArray.get!, hi]
  | case2 i seen hi =>
      have hle : bytes.data.toList.length ≤ i := Nat.le_of_not_lt hi
      rw [List.drop_eq_nil_of_le hle, List.append_nil]

theorem toList_eq_data (bytes : ByteArray) : bytes.toList = bytes.data.toList := by
  rw [ByteArray.toList, toList_loop, List.reverse_nil, List.nil_append, List.drop_zero]

theorem encodeQuery_inj {text other : String} :
    encodeQuery text = encodeQuery other ↔ text = other := by
  refine ⟨fun h => ?_, congrArg encodeQuery⟩
  have hbytes : text.toUTF8.toList = other.toUTF8.toList := by
    rw [← decodeQuery_encodeQuery, h, decodeQuery_encodeQuery]
  rw [toList_eq_data, toList_eq_data] at hbytes
  exact String.toByteArray_inj.1 (ByteArray.ext (Array.toList_inj.1 hbytes))

end Text

namespace VariableHandle

/-! ### Queries of values

The frame is written in decimal and ends at the question mark, which is no digit. So neither the
frame nor what follows can be mistaken for the other (`repr_append_inj`).
-/

theorem query_locals (frame : UInt32) (path : List String) :
    query ⟨.locals frame, path⟩ =
      .ok ("StackLocals/" ++ frame.toNat.repr ++ "?path=" ++
        Text.encodeQuery (",".intercalate path)) := rfl

/-- A number ends where something else than a digit follows. -/
theorem repr_append_inj {n m : Nat} {mark : Char} {rest other : List Char}
    (hmark : mark.isDigit = false)
    (h : n.repr.toList ++ mark :: rest = m.repr.toList ++ mark :: other) :
    n = m ∧ rest = other := by
  have hstop : ¬ mark.isDigit = true := by simp [hmark]
  have hdigits := congrArg (List.takeWhile Char.isDigit) h
  rw [List.takeWhile_append_of_pos Text.isDigit_of_mem_repr, List.takeWhile_cons_of_neg hstop,
    List.takeWhile_append_of_pos Text.isDigit_of_mem_repr, List.takeWhile_cons_of_neg hstop,
    List.append_nil, List.append_nil] at hdigits
  rw [hdigits] at h
  exact ⟨Nat.repr_injective (String.toList_inj.1 hdigits), by simpa using h⟩

/-- **Two queries are the same exactly if they name the same frame, and paths that are written the
same.** -/
theorem query_eq_iff {frame other : UInt32} {path second : List String} :
    query ⟨.locals frame, path⟩ = query ⟨.locals other, second⟩ ↔
      frame = other ∧ ",".intercalate path = ",".intercalate second := by
  refine ⟨fun h => ?_, ?_⟩
  · rw [query_locals, query_locals, Except.ok.injEq, ← String.toList_inj] at h
    simp only [String.toList_append, List.append_assoc, List.append_cancel_left_eq] at h
    obtain ⟨hframe, hvalue⟩ := repr_append_inj (by decide : '?'.isDigit = false) h
    have hencoded := List.append_cancel_left hvalue
    exact ⟨UInt32.toNat_inj.1 hframe, Text.encodeQuery_inj.1 (String.toList_inj.1 hencoded)⟩
  · rintro ⟨rfl, hjoined⟩
    rw [query_locals, query_locals, hjoined]

/-! ### Paths without commas

Where no name has a comma, cutting the path at its commas gives the names back. Only the empty path
is lost, as cutting gives one name at least.
-/

/-- A path is read back by cutting it at its commas. -/
theorem splitOn_intercalate {path : List String} (hplain : ∀ name ∈ path, ',' ∉ name.toList)
    (hne : path ≠ []) : (",".intercalate path).toList.splitOn ',' = path.map String.toList := by
  rw [String.toList_intercalate]
  refine List.splitOn_intercalate ',' ?_ (by simpa using hne)
  simpa using hplain

theorem eq_of_intercalate_eq {path second : List String}
    (hplain : ∀ name ∈ path ++ second, ',' ∉ name.toList) (hpath : path ≠ [])
    (hsecond : second ≠ []) (h : ",".intercalate path = ",".intercalate second) :
    path = second := by
  have hfirst := splitOn_intercalate (fun name hname => hplain name (by simp [hname])) hpath
  have hother := splitOn_intercalate (fun name hname => hplain name (by simp [hname])) hsecond
  rw [h, hother] at hfirst
  exact (List.map_injective_iff.2 (fun _ _ => String.toList_inj.1) hfirst).symm

/-- The empty path is written like that of a member without a name. -/
theorem intercalate_eq_iff {path second : List String}
    (hplain : ∀ name ∈ path ++ second, ',' ∉ name.toList) :
    ",".intercalate path = ",".intercalate second ↔
      path = second ∨ path = [] ∧ second = [""] ∨ path = [""] ∧ second = [] := by
  constructor
  · intro h
    by_cases hpath : path = [] <;> by_cases hsecond : second = []
    · exact .inl (hpath.trans hsecond.symm)
    · subst hpath
      have heq : [""] = second := eq_of_intercalate_eq (by simpa using hplain) nofun hsecond h
      exact .inr (.inl ⟨rfl, heq.symm⟩)
    · subst hsecond
      have heq : path = [""] :=
        eq_of_intercalate_eq (by simpa [or_imp, forall_and] using hplain) hpath nofun h
      exact .inr (.inr ⟨heq, rfl⟩)
    · exact .inl (eq_of_intercalate_eq hplain hpath hsecond h)
  · rintro (rfl | ⟨rfl, rfl⟩ | ⟨rfl, rfl⟩) <;> rfl

/-! ### Requests

Two requests with one query may be made in two sessions, at any two moments. What the steps asked
for is then all that there is to compare.
-/

/-- **What a debuggee can tell from a request.** The same query is made for two local values exactly
if they are values of one frame whose paths are written the same; where no name has a comma in it,
that means that they are the same value, or the local variables of the frame and one of them without
a name. Whenever the same query is sent twice, it was sent for such values.

The encoding can be undone, so it keeps apart what is written differently (`query_eq_iff`). What it
is applied to is a path in writing, and there the comma has two meanings. -/
theorem same_query_iff_written_the_same :
    (∀ (frame other : UInt32) (path second : List String),
      (query ⟨.locals frame, path⟩ = query ⟨.locals other, second⟩ ↔
        frame = other ∧ ",".intercalate path = ",".intercalate second) ∧
      ((∀ name ∈ path ++ second, ',' ∉ name.toList) →
        (query ⟨.locals frame, path⟩ = query ⟨.locals other, second⟩ ↔ frame = other ∧
          (path = second ∨ path = [] ∧ second = [""] ∨ path = [""] ∧ second = [])))) ∧
    ∀ (s t : Session) (x y : Step) (query : String),
      .requested (.get query) ∈ (s.step x).2.effectsSince s.log →
      .requested (.get query) ∈ (t.step y).2.effectsSince t.log →
      ∃ frame path second, s.asked? x = some ⟨.locals frame, path⟩ ∧
        t.asked? y = some ⟨.locals frame, second⟩ ∧
        ",".intercalate path = ",".intercalate second := by
  refine ⟨fun frame other path second => ⟨query_eq_iff, fun hplain => ?_⟩, ?_⟩
  · rw [query_eq_iff, intercalate_eq_iff hplain]
  · intro s t x y query hfirst hsecond
    obtain ⟨frame, path, hpath, hquery⟩ := Session.asked_of_requested hfirst
    obtain ⟨other, second, hother, hagain⟩ := Session.asked_of_requested hsecond
    obtain ⟨rfl, hwritten⟩ := query_eq_iff.1 (hquery.trans hagain.symm)
    exact ⟨frame, path, second, hpath, hother, hwritten⟩

/-- A comma in a name looks like one between two names, and no member like one without a name. -/
theorem different_values_share_a_query :
    (query ⟨.locals 0, ["a,b"]⟩ = query ⟨.locals 0, ["a", "b"]⟩ ∧
        (⟨.locals 0, ["a,b"]⟩ : VariableHandle) ≠ ⟨.locals 0, ["a", "b"]⟩) ∧
      query ⟨.locals 0, []⟩ = query ⟨.locals 0, [""]⟩ ∧
        (⟨.locals 0, []⟩ : VariableHandle) ≠ ⟨.locals 0, [""]⟩ := by
  decide +kernel

end VariableHandle

end DebugBridge
