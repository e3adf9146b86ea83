/-
What can be typed.

A line is read in three steps: it is cut into words, the first of them is looked up among the verbs,
and the others make an argument that is read as the verb wants it. `Asks` says what a verb and an
argument ask for, without a reader: some verbs stand alone, some are about a place, and three read
the argument in a way of their own. The reader takes just that (`ofVerb_eq_ok_iff`).

A place is typed with a line that counts from one. No subtraction is needed to say which line it is:
the number typed is the one after the line held, so it is never zero, and it has to fit into 32
bits.
-/
import DebugBridge.Console.Command
import DebugBridge.Proofs.Text.Numerals
import DebugBridge.Proofs.Text.Words

namespace DebugBridge.Console

open Text (IsNumeral IsSignedNumeral IsWords)

/-! ### What there is to ask for

Verbs that differ in nothing but their order are told by a table, and the rest by one constructor
each. To add a verb is to add a line to a table, or a constructor and its lemma.
-/

/-- The verbs that stand alone. What is typed behind them does not matter. -/
def loneVerbs : List (String × Order) :=
  [("c", .control .resume), ("continue", .control .resume), ("n", .control .stepOver),
    ("next", .control .stepOver), ("s", .control .stepIn), ("step", .control .stepIn),
    ("o", .control .stepOut), ("out", .control .stepOut), ("p", .control .pause),
    ("pause", .control .pause), ("bt", .backtrace), ("h", .help), ("help", .help), ("q", .quit),
    ("quit", .quit)]

/-- The verbs that are about a place. -/
def placeVerbs : List (String × (String → UInt32 → Order)) :=
  [("b", .setBreakpoint), ("d", .clearBreakpoint), ("cols", .breakColumns)]

/-- `FILE:LINE` for the line with number `n`. All that stands before the last colon is the file. -/
def IsPlace (argument : List Char) (path : String) (n : Nat) : Prop :=
  path ≠ "" ∧ ∃ written, argument = path.toList ++ ':' :: written ∧
    ':' ∉ written ∧ IsNumeral written n

/-- What a verb and its argument ask for. How an argument is taken apart is not said here, only what
it has to be. -/
inductive Asks : String → List Char → Order → Prop
  | alone {verb : String} {order : Order} (h : (verb, order) ∈ loneVerbs) (argument : List Char) :
      Asks verb argument order
  | place {verb path : String} {make : String → UInt32 → Order}
      {argument : List Char} {line : UInt32}
      (hverb : (verb, make) ∈ placeVerbs) (hplace : IsPlace argument path (line.toNat + 1))
      (hlast : line.toNat + 1 < UInt32.size) : Asks verb argument (make path line)
  | clear {argument : List Char} (h : argument ≠ []) :
      Asks "bc" argument (.clearBreakpoints (String.ofList argument))
  | scopes {argument : List Char} {frame : UInt32} (h : IsNumeral argument frame.toNat) :
      Asks "scopes" argument (.scopes frame)
  | expand {argument : List Char} {reference : Int64}
      (h : IsSignedNumeral argument reference.toInt) :
      Asks "v" argument (.expand reference)

/-! ### Places

A colon may be part of a file's name, so it is the last one that counts. That the number behind it
has no colon is part of what a place is, which leaves one way to see an argument as a place.
-/

theorem parseLocation_of_isPlace {argument : List Char} {path : String} {line : UInt32}
    (hplace : IsPlace argument path (line.toNat + 1)) (hlast : line.toNat + 1 < UInt32.size) :
    parseLocation argument = .ok (path, line) := by
  obtain ⟨hpath, written, rfl, hcolon, hnumeral⟩ := hplace
  have hread : Text.readNat (UInt32.size - 1) written = .ok (line.toNat + 1) :=
    Text.readNat_of_isNumeral hnumeral (Nat.le_sub_one_of_lt hlast)
  obtain ⟨first, more, hfirst⟩ :=
    List.exists_cons_of_ne_nil fun hnil => hpath (String.toList_inj.1 hnil)
  rw [parseLocation, Text.splitAtLast_append hcolon, hfirst]
  dsimp only
  rw [hread, ← hfirst]
  simp

/-- What is read as a place is one. The number typed fits into 32 bits, which is what lets it be
printed again. -/
theorem isPlace_of_parseLocation {argument : List Char} {path : String} {line : UInt32}
    (h : parseLocation argument = .ok (path, line)) :
    IsPlace argument path (line.toNat + 1) ∧ line.toNat + 1 < UInt32.size := by
  unfold parseLocation at h
  split at h
  · cases h
  · cases h
  · rename_i before written hne hsplit
    split at h
    · cases h
    · cases h
    · rename_i n hread
      simp only [Except.ok.injEq, Prod.mk.injEq] at h
      obtain ⟨rfl, rfl⟩ := h
      obtain ⟨hnumeral, hle⟩ := Text.readNat_eq_ok_iff.1 hread
      have hsize : UInt32.size = 4294967296 := rfl
      have hline : (UInt32.ofNat n).toNat = n := UInt32.toNat_ofNat_of_lt' (by omega)
      rw [hline]
      refine ⟨⟨fun hnil => hne (String.ofList_eq_empty_iff.1 hnil), written, ?_, ?_,
        hnumeral⟩, by omega⟩
      · rw [String.toList_ofList]
        exact Text.eq_append_of_splitAtLast hsplit
      · exact hnumeral.notMem (by decide) (by decide)

/-- What is made of a place is made of the path and the line that are typed. -/
theorem map_parseLocation_eq_ok_iff {argument : List Char} {make : String → UInt32 → Order}
    {order : Order} :
    (parseLocation argument).map (fun place => make place.1 place.2) = .ok order ↔
      ∃ (path : String) (line : UInt32), IsPlace argument path (line.toNat + 1) ∧
        line.toNat + 1 < UInt32.size ∧ make path line = order := by
  constructor
  · intro h
    cases hlocation : parseLocation argument with
    | error fault => simp [hlocation, Except.map] at h
    | ok place =>
        obtain ⟨hplace, hlast⟩ := isPlace_of_parseLocation hlocation
        exact ⟨place.1, place.2, hplace, hlast, by simpa [hlocation, Except.map] using h⟩
  · rintro ⟨path, line, hplace, hlast, rfl⟩
    rw [parseLocation_of_isPlace hplace hlast]
    rfl

/-! ### Verbs

There is a lemma for each kind of verb, which says when it makes an order of its argument, and of
which. Verbs of one kind differ in the order that they make and in nothing else, so the tables above
are enough to tell them apart.
-/

section Verbs

variable {argument : List Char} {order : Order}

theorem ofVerb_of_lone {verb : String} (h : (verb, order) ∈ loneVerbs) (argument : List Char) :
    Order.ofVerb verb argument = .ok order := by
  have hall : ∀ pair ∈ loneVerbs, Order.ofVerb pair.1 argument = .ok pair.2 := by
    simp [loneVerbs, Order.ofVerb]
  exact hall _ h

theorem ofVerb_of_place {verb : String} {make : String → UInt32 → Order}
    (h : (verb, make) ∈ placeVerbs) (argument : List Char) :
    Order.ofVerb verb argument =
      (parseLocation argument).map fun place => make place.1 place.2 := by
  have hall : ∀ pair ∈ placeVerbs, Order.ofVerb pair.1 argument =
      (parseLocation argument).map fun place => pair.2 place.1 place.2 := by
    simp [placeVerbs, Order.ofVerb]
  exact hall _ h

theorem ofVerb_clear_iff :
    Order.ofVerb "bc" argument = .ok order ↔
      argument ≠ [] ∧ .clearBreakpoints (String.ofList argument) = order := by
  cases argument <;> simp [Order.ofVerb]

theorem ofVerb_scopes_iff :
    Order.ofVerb "scopes" argument = .ok order ↔
      ∃ frame : UInt32, IsNumeral argument frame.toNat ∧ .scopes frame = order := by
  constructor
  · intro h
    simp only [Order.ofVerb] at h
    split at h
    · next n hread =>
        obtain ⟨hnumeral, hle⟩ := Text.readNat_eq_ok_iff.1 hread
        have hsize : UInt32.size = 4294967296 := rfl
        have hn : (UInt32.ofNat n).toNat = n := UInt32.toNat_ofNat_of_lt' (by omega)
        exact ⟨.ofNat n, by rwa [hn], Except.ok.inj h⟩
    · cases h
  · rintro ⟨frame, hnumeral, rfl⟩
    have hread : Text.readNat (UInt32.size - 1) argument = .ok frame.toNat :=
      Text.readNat_of_isNumeral hnumeral (Nat.le_sub_one_of_lt frame.toNat_lt_size)
    simp only [Order.ofVerb, hread, UInt32.ofNat_toNat]

theorem toInt_ofInt {n : Int} (hlower : -((UInt64.size / 2 : Nat) : Int) ≤ n)
    (hupper : n ≤ (UInt64.size / 2 - 1 : Nat)) : (Int64.ofInt n).toInt = n := by
  have hsize : UInt64.size / 2 = 9223372036854775808 := rfl
  exact Int64.toInt_ofInt_of_le (by omega) (by omega)

theorem ofVerb_expand_iff :
    Order.ofVerb "v" argument = .ok order ↔
      ∃ reference : Int64, IsSignedNumeral argument reference.toInt ∧
        .expand reference = order := by
  constructor
  · intro h
    simp only [Order.ofVerb] at h
    split at h
    · next n hread =>
        obtain ⟨hnumeral, hlower, hupper⟩ := Text.readInt_eq_ok_iff.1 hread
        exact ⟨.ofInt n, by rwa [toInt_ofInt hlower hupper], Except.ok.inj h⟩
    · cases h
  · rintro ⟨reference, hnumeral, rfl⟩
    have hread : Text.readInt (UInt64.size / 2) (UInt64.size / 2 - 1) argument =
        .ok reference.toInt :=
      Text.readInt_of_isSignedNumeral hnumeral reference.minValue_le_toInt reference.toInt_le
    simp only [Order.ofVerb, hread, Int64.ofInt_toInt]

/-- A verb that makes an order is one of those above. -/
theorem verb_of_ofVerb {verb : String} (h : Order.ofVerb verb argument = .ok order) :
    (verb, order) ∈ loneVerbs ∨ (∃ make, (verb, make) ∈ placeVerbs) ∨ verb = "bc" ∨
      verb = "scopes" ∨ verb = "v" := by
  unfold Order.ofVerb at h
  split at h
  case h_16 => exact .inr (.inl ⟨.setBreakpoint, by simp [placeVerbs]⟩)
  case h_17 => exact .inr (.inl ⟨.clearBreakpoint, by simp [placeVerbs]⟩)
  case h_18 => exact .inr (.inl ⟨.breakColumns, by simp [placeVerbs]⟩)
  case h_19 => exact .inr (.inr (.inl rfl))
  case h_20 => exact .inr (.inr (.inr (.inl rfl)))
  case h_21 => exact .inr (.inr (.inr (.inr rfl)))
  case h_22 => cases h
  -- The others make an order of nothing, and it is the one in the table.
  all_goals
    cases h
    exact .inl (by decide)

theorem asks_of_ofVerb {verb : String} (h : Order.ofVerb verb argument = .ok order) :
    Asks verb argument order := by
  obtain hlone | ⟨make, hplace⟩ | rfl | rfl | rfl := verb_of_ofVerb h
  · exact .alone hlone argument
  · rw [ofVerb_of_place hplace, map_parseLocation_eq_ok_iff] at h
    obtain ⟨path, line, hwritten, hlast, rfl⟩ := h
    exact .place hplace hwritten hlast
  · obtain ⟨hne, rfl⟩ := ofVerb_clear_iff.1 h
    exact .clear hne
  · obtain ⟨frame, hnumeral, rfl⟩ := ofVerb_scopes_iff.1 h
    exact .scopes hnumeral
  · obtain ⟨reference, hnumeral, rfl⟩ := ofVerb_expand_iff.1 h
    exact .expand hnumeral

theorem ofVerb_of_asks {verb : String} (h : Asks verb argument order) :
    Order.ofVerb verb argument = .ok order := by
  cases h with
  | alone h => exact ofVerb_of_lone h argument
  | place hverb hplace hlast =>
      rw [ofVerb_of_place hverb]
      exact map_parseLocation_eq_ok_iff.2 ⟨_, _, hplace, hlast, rfl⟩
  | clear h => exact ofVerb_clear_iff.2 ⟨h, rfl⟩
  | scopes h => exact ofVerb_scopes_iff.2 ⟨_, h, rfl⟩
  | expand h => exact ofVerb_expand_iff.2 ⟨_, h, rfl⟩

end Verbs

/-- **A verb and its argument make the order they ask for**, and none if they ask for nothing. -/
theorem ofVerb_eq_ok_iff {verb : String} {argument : List Char} {order : Order} :
    Order.ofVerb verb argument = .ok order ↔ Asks verb argument order :=
  ⟨asks_of_ofVerb, ofVerb_of_asks⟩

/-! ### Lines

The words of a line are all that is looked at. Since they are determined by the line, an order is as
well, and the three outcomes can be told from them: no words, words that ask for something, and
words that do not.
-/

/-- What a line asks for: its first word is the verb, and the others with single spaces between them
are the argument. -/
def LineAsks (ws : List (List Char)) (order : Order) : Prop :=
  ∃ verb rest, ws = verb :: rest ∧ Asks (String.ofList verb) ([' '].intercalate rest) order

theorem lineAsks_cons {verb : List Char} {rest : List (List Char)} {order : Order} :
    LineAsks (verb :: rest) order ↔ Asks (String.ofList verb) ([' '].intercalate rest) order := by
  refine ⟨?_, fun h => ⟨verb, rest, rfl, h⟩⟩
  rintro ⟨verb', rest', heq, h⟩
  obtain ⟨rfl, rfl⟩ := List.cons.inj heq
  exact h

theorem parse_eq_none_iff {line : String} :
    Order.parse line = .ok none ↔ Text.words line.toList = [] := by
  unfold Order.parse
  split
  · next h => simp [h]
  · next verb rest h =>
      rw [h]
      cases Order.ofVerb (String.ofList verb) ([' '].intercalate rest) <;> simp [Except.map]

theorem parse_eq_some_iff {line : String} {order : Order} :
    Order.parse line = .ok (some order) ↔ LineAsks (Text.words line.toList) order := by
  unfold Order.parse
  split
  · next h => simp [h, LineAsks]
  · next verb rest h =>
      rw [h, lineAsks_cons, ← ofVerb_eq_ok_iff]
      cases Order.ofVerb (String.ofList verb) ([' '].intercalate rest) <;> simp [Except.map]

theorem exists_parse_eq_error_iff {line : String} :
    (∃ error, Order.parse line = .error error) ↔
      Text.words line.toList ≠ [] ∧ ∀ order, ¬ LineAsks (Text.words line.toList) order := by
  simp only [← parse_eq_some_iff, Ne, ← parse_eq_none_iff]
  cases Order.parse line with
  | error error => simp
  | ok found => cases found <;> simp

theorem parse_eq_of_words_eq {line other : String}
    (h : Text.words other.toList = Text.words line.toList) :
    Order.parse other = Order.parse line := by
  rw [Order.parse, Order.parse, h]

/-- **The grammar of commands.** What a line is depends on its words alone. It is nothing if there
are none, the order that the words ask for if they ask for one, and else an error.

So two lines with the same words are the same to the console, however many blanks there are in them
and of whatever kind. The words of a line are known to be there, and to be the only ones, before
anything is said of orders. -/
theorem commands_follow_grammar (line : String) :
    ∃ ws, (∀ ws', IsWords line.toList ws' ↔ ws' = ws) ∧
      (∀ other : String, IsWords other.toList ws → Order.parse other = Order.parse line) ∧
      (Order.parse line = .ok none ↔ ws = []) ∧
      (∀ order, Order.parse line = .ok (some order) ↔ LineAsks ws order) ∧
      ((∃ error, Order.parse line = .error error) ↔ ws ≠ [] ∧ ∀ order, ¬ LineAsks ws order) := by
  refine ⟨Text.words line.toList, fun ws' => ?_, fun other h => ?_, parse_eq_none_iff,
    fun order => parse_eq_some_iff, exists_parse_eq_error_iff⟩
  · rw [← Text.words_eq_iff, eq_comm]
  · exact parse_eq_of_words_eq (Text.words_eq_iff.2 h)

/-- The file is what stands before the last colon, with the blanks in it squeezed. -/
example : (Order.parse " b  my  file:a :07").toOption =
    some (some (.setBreakpoint "my file:a " 6)) := by
  decide +kernel

end DebugBridge.Console
