/-
The numbers that references are.

A client reads references off the answers to its operations, and with each of them the value that it
is for (`granted`). Put together, those of a run are the handles in the table with the numbers from
one on (`numbered_run`): no number is left out and none is given twice, whatever failed in between.
A number is looked up at its place in the table, where nothing changes any more, so what it names
stays the same (`HandleTable.get?_of_mem_numbered`). All this needs is that the numbers do not start
over.

Zero is never handed out, and that is how a variable without members is marked. What a client can do
with a number it was never given is settled as well: it is told that the number is unknown, and of
no other number is it told that.
-/
import DebugBridge.Proofs.Expansion
import Mathlib.Data.List.Enum

namespace DebugBridge

/-- Handles with the numbers from `first` on. -/
def numbered (first : Nat) (handles : List VariableHandle) : List (Int64 × VariableHandle) :=
  (handles.zipIdx first).map fun p => (Int64.ofNat p.2, p.1)

theorem numbered_cons (first : Nat) (h : VariableHandle) (rest : List VariableHandle) :
    numbered first (h :: rest) = (Int64.ofNat first, h) :: numbered (first + 1) rest := rfl

theorem numbered_append (first : Nat) (handles more : List VariableHandle) :
    numbered first (handles ++ more) =
      numbered first handles ++ numbered (first + handles.length) more := by
  rw [numbered, List.zipIdx_append, List.map_append]
  rfl

@[simp] theorem length_numbered (first : Nat) (handles : List VariableHandle) :
    (numbered first handles).length = handles.length := by
  rw [numbered, List.length_map, List.length_zipIdx]

theorem mem_numbered {first : Nat} {handles : List VariableHandle} {reference : Int64}
    {h : VariableHandle} :
    (reference, h) ∈ numbered first handles ↔
      ∃ n, handles[n]? = some h ∧ reference = Int64.ofNat (first + n) := by
  simp only [numbered, List.mem_map, Prod.exists, Prod.mk.injEq]
  constructor
  · rintro ⟨other, m, hmem, rfl, rfl⟩
    obtain ⟨hle, hget⟩ := List.mk_mem_zipIdx_iff_le_and_getElem?_sub.1 hmem
    refine ⟨m - first, hget, ?_⟩
    rw [Nat.add_sub_cancel' hle]
  · rintro ⟨n, hget, rfl⟩
    refine ⟨h, first + n, ?_, rfl, rfl⟩
    rw [List.mk_mem_zipIdx_iff_le_and_getElem?_sub, Nat.add_sub_cancel_left]
    exact ⟨Nat.le_add_right first n, hget⟩

/-- Numbers that do not start over are numbers. -/
theorem toInt_ofNat {n : Nat} (h : (n : Int) ≤ Int64.maxValue.toInt) :
    (Int64.ofNat n).toInt = n := by
  rw [Int64.toInt_maxValue] at h
  exact Int64.toInt_ofNat_of_lt (by omega)

theorem toInt_numbered {handles : List VariableHandle}
    (hfew : (handles.length : Int) ≤ Int64.maxValue.toInt) :
    (numbered 1 handles).map (·.1.toInt) =
      (List.range handles.length).map fun n : Nat => (n : Int) + 1 := by
  refine List.ext_getElem (by simp) ?_
  intro n hn _
  have hlt : n < handles.length := by simpa using hn
  simp only [numbered, List.getElem_map, List.getElem_zipIdx, List.getElem_range]
  rw [toInt_ofNat (by omega)]
  omega

/-- Whether a variable comes with a reference. -/
def Variable.isReferenced (v : Variable) : Bool := isAggregate v.type || v.reference != 0

/-- The references in a listing of the members of `parent`, with the values that they are for. -/
def VariableHandle.granted (parent : VariableHandle) (members : List Variable) :
    List (Int64 × VariableHandle) :=
  (members.filter Variable.isReferenced).map fun v => (v.reference, parent.child v.name)

namespace HandleTable

@[simp] theorem fst_create (t : HandleTable) (h : VariableHandle) :
    (t.create h).1 = Int64.ofNat (t.size + 1) := rfl

/-- A listing is numbered from the end of the table on. -/
theorem granted_expand (parent : VariableHandle) (entries : List RemoteVariable) :
    ∀ t : HandleTable, parent.granted (t.expand parent entries).1 =
      numbered (t.size + 1) (parent.children ⟨entries⟩) := by
  induction entries with
  | nil => intro t; rfl
  | cons v rest ih =>
      intro t
      cases haggregate : isAggregate v.type with
      | true =>
          have hrest := ih (t.create (parent.child v.name)).2
          rw [size_create] at hrest
          simpa [expand, VariableHandle.granted, VariableHandle.children, Variable.isReferenced,
            haggregate, numbered_cons] using hrest
      | false =>
          simpa [expand, VariableHandle.granted, VariableHandle.children, Variable.isReferenced,
            haggregate] using ih t

theorem get?_eq_none_iff {t : HandleTable} {reference : Int64} :
    t.get? reference = none ↔ reference.toInt < 1 ∨ (t.size : Int) < reference.toInt := by
  unfold get? size
  dsimp only
  split
  · rw [List.getElem?_eq_none_iff]
    omega
  · simp only [true_iff]
    omega

/-- As long as the numbers do not start over, each leads to its handle. -/
theorem get?_of_mem_numbered {t : HandleTable} {reference : Int64} {h : VariableHandle}
    (hmem : (reference, h) ∈ numbered 1 t.handles) (hfew : (t.size : Int) ≤ Int64.maxValue.toInt) :
    t.get? reference = some h := by
  obtain ⟨n, hget, rfl⟩ := mem_numbered.1 hmem
  have hlt : n < t.size := (List.getElem?_eq_some_iff.1 hget).1
  unfold get?
  dsimp only
  rw [toInt_ofNat (by omega), if_pos (by omega), ← hget]
  congr 1
  omega

end HandleTable

/-- Whether there may be references in an answer. -/
def Answer.handsOut : Answer → Bool
  | scopes _ | listing _ => true
  | _ => false

theorem Answer.handsOut_ofResult {α : Type} {make : α → Answer}
    (hmake : ∀ a, (make a).handsOut = false) (result : Except Failure α) :
    (ofResult make result).handsOut = false := by
  cases result with
  | ok a => exact hmake a
  | error failure => rfl

namespace Session

/-! ### Expanding

Whether an expansion answers with a listing is decided by the debuggee and the connection. If it
does, the listing is numbered on from the end of the table. If it does not, it answers with a
failure, and never with the one about the reference.
-/

theorem handles_call (s : Session) (request : Request) :
    (s.call request).2.bridge.handles = s.bridge.handles :=
  congrArg Holdings.handles (s.holdings_call request)

/-- What a listing says is what a client gets. -/
theorem expandHandle_of_listing? {s : Session} {h : VariableHandle} {listing : VariableList}
    (hlisting : s.listing? h = some listing) :
    (s.expandHandle h).1 = .ok (s.bridge.handles.expand h listing.entries).1 := by
  obtain ⟨query, hsent, hreply⟩ := Option.bind_eq_some_iff.1 hlisting
  have hquery := query_of_sent? hsent
  have hconnected : s.bridge.isConnected = true := by
    by_contra hnot
    simp [sent?, hnot] at hsent
  have houtcome : (s.call (.get query)).1.listing query = .ok listing :=
    toOption_eq_some_iff.1 hreply
  unfold expandHandle
  simp only [hquery, hconnected, if_true, houtcome, handles_call]

/-- A call that brings no listing has failed, or its reply cannot be read. -/
theorem listing_eq_error {outcome : Outcome} {query : String} {failure : Failure}
    (h : outcome.listing query = .error failure) :
    (∃ fault, failure = .remoteCall query fault) ∨ ∃ cause, failure = .decode cause := by
  unfold Outcome.listing at h
  cases outcome with
  | failed reason =>
      obtain rfl := Except.error.inj h
      exact .inl ⟨_, rfl⟩
  | replied status body =>
      simp only [Outcome.body] at h
      split at h
      · right
        simp only [bind, Except.bind] at h
        split at h
        · obtain rfl := Except.error.inj h
          exact ⟨_, rfl⟩
        · rename_i value _
          cases hread : Json.Wire.ofValue (Json.Wire.decode (α := VariableList)) value with
          | ok listing => simp [hread, Except.mapError] at h
          | error cause =>
              rw [hread] at h
              obtain rfl := Except.error.inj h
              exact ⟨_, rfl⟩
      · obtain rfl := Except.error.inj h
        exact .inl ⟨_, rfl⟩

/-- Without a listing there is nothing but a failure, and that is not about a reference. -/
theorem expandHandle_of_not_listing? {s : Session} {h : VariableHandle}
    (hlisting : s.listing? h = none) :
    ∃ failure, (s.expandHandle h).1 = .error failure ∧
      ∀ reference, failure ≠ .unknownVariableReference reference := by
  unfold expandHandle
  cases hquery : h.query with
  | error failure =>
      refine ⟨failure, rfl, ?_⟩
      rintro reference rfl
      unfold VariableHandle.query at hquery
      split at hquery <;> simp at hquery
  | ok query =>
      cases hconnected : s.bridge.isConnected with
      | false => exact ⟨.notConnected, rfl, by simp⟩
      | true =>
          have hsent : s.sent? h = some query := by
            rw [sent?, if_pos hconnected, hquery]
            rfl
          rw [listing?, hsent, Option.bind_some] at hlisting
          cases hreply : (s.call (.get query)).1.listing query with
          | ok listing =>
              have hnone : ((s.call (.get query)).1.listing query).toOption = none := hlisting
              rw [hreply] at hnone
              cases hnone
          | error failure =>
              refine ⟨failure, by simp only [if_true, hreply], ?_⟩
              rintro reference rfl
              rcases listing_eq_error hreply with ⟨fault, hfault⟩ | ⟨cause, hcause⟩
              · cases hfault
              · cases hcause

/-- A reference is unknown when the table has nothing under it. -/
theorem expandReference_unknown_iff (s : Session) (reference : Int64) :
    (s.expandReference reference).1 = .error (.unknownVariableReference reference) ↔
      s.bridge.handles.get? reference = none := by
  unfold expandReference
  cases hget : s.bridge.handles.get? reference with
  | none => simp
  | some h =>
      simp only [reduceCtorEq, iff_false]
      cases hlisting : s.listing? h with
      | none =>
          obtain ⟨failure, hfailed, hother⟩ := expandHandle_of_not_listing? hlisting
          rw [hfailed]
          exact fun heq => hother reference (Except.error.inj heq)
      | some listing =>
          rw [expandHandle_of_listing? hlisting]
          exact nofun

/-! ### One step

What a step grants is read off its answer, and compared with what it registers, which is known from
`Proofs/Expansion.lean`. The two agree in every case, and that includes the steps that fail: they
grant nothing, and they register nothing.
-/

/-- The scopes that a step opens. -/
def opened : Step → List VariableHandle
  | .operation (.scopes frame) _ => [.locals frame, .globals]
  | _ => []

/-- The references in the answer of a step, with the values that they are for. -/
def granted (s : Session) (x : Step) : List (Int64 × VariableHandle) :=
  match (s.step x).1 with
  | .scopes scopes => (scopes.map Scope.reference).zip (opened x)
  | .listing members => (s.asked? x).elim [] fun parent => parent.granted members
  | _ => []

theorem granted_scopes (s : Session) (frame : UInt32) (asides : List (List Happening)) :
    s.granted (.operation (.scopes frame) asides) =
      numbered (s.bridge.handles.size + 1) [.locals frame, .globals] := by
  simp [granted, step, operate, scopes, HandleTable.scopes, opened, numbered]

/-- Where members are asked for, they are what is handed out. -/
theorem granted_of_asked {s : Session} {x : Step} {h : VariableHandle}
    (asides : List (List Happening)) (hasked : s.asked? x = some h)
    (hanswer : (s.step x).1 = .ofResult .listing ({ s with asides }.expandHandle h).1) :
    s.granted x =
      numbered (s.bridge.handles.size + 1) ((s.listing? h).elim [] h.children) := by
  have hsame : { s with asides }.listing? h = s.listing? h := rfl
  unfold granted
  cases hlisting : s.listing? h with
  | none =>
      obtain ⟨failure, hfailed, -⟩ := expandHandle_of_not_listing? (hsame.trans hlisting)
      rw [hanswer, hfailed]
      rfl
  | some listing =>
      rw [hanswer, expandHandle_of_listing? (hsame.trans hlisting), hasked]
      exact HandleTable.granted_expand h listing.entries s.bridge.handles

theorem granted_of_plain {s : Session} {x : Step} (h : (s.step x).1.handsOut = false) :
    s.granted x = [] := by
  unfold granted
  split
  · rename_i heq
    rw [heq] at h
    exact absurd h nofun
  · rename_i heq
    rw [heq] at h
    exact absurd h nofun
  · rfl

/-- **What a step hands out** are the numbers behind those of the table, for what it registers. -/
theorem granted_eq (s : Session) (x : Step) :
    s.granted x = numbered (s.bridge.handles.size + 1) (s.registered x) := by
  cases x with
  | happening happening => rfl
  | edit path contents => rfl
  | operation operation asides =>
      cases operation with
      | scopes frame => exact granted_scopes s frame asides
      | expandHandle h => exact granted_of_asked asides rfl rfl
      | expandReference reference =>
          cases hget : s.bridge.handles.get? reference with
          | none =>
              simp [granted, registered, asked?, step, operate, expandReference, hget,
                Answer.ofResult, numbered]
          | some h =>
              have hregistered : s.registered (.operation (.expandReference reference) asides) =
                  (s.listing? h).elim [] h.children := by
                simp only [registered, asked?, hget, Option.elim_some]
              rw [hregistered]
              refine granted_of_asked asides hget ?_
              simp [step, operate, expandReference, hget]
      | start | startConfigured | breakColumns =>
          exact granted_of_plain (Answer.handsOut_ofResult (fun _ => rfl) _)
      | clearBreakpoint path line =>
          have hplain : ∀ removed : Option Breakpoint,
              Answer.handsOut (removed.elim .done .breakpoint) = false := by
            intro removed
            cases removed <;> rfl
          exact granted_of_plain (hplain _)
      | disconnect | execute | setBreakpoint | setBreakpoints | clearBreakpoints | breakpoints
      | runState | stack | stackPage | threads => exact granted_of_plain rfl

/-! ### Every run

The grants of a run follow each other with no gap, since each step starts where the table ends and
the table ends where the step before has left it.
-/

/-- The references in the answers of a run, in order, with the values that they are for. -/
def grants (s : Session) : List Step → List (Int64 × VariableHandle)
  | [] => []
  | x :: steps => s.granted x ++ (s.step x).2.grants steps

theorem grants_append (s : Session) (xs ys : List Step) :
    s.grants (xs ++ ys) = s.grants xs ++ (s.run xs).grants ys := by
  induction xs generalizing s with
  | nil => rfl
  | cons x rest ih => simp only [List.cons_append, grants, ih, List.append_assoc, run_cons]

/-- After a run the table holds, with their numbers, what it held before and what was handed out. -/
theorem numbered_run (steps : List Step) :
    ∀ s : Session, numbered 1 (s.run steps).bridge.handles.handles =
      numbered 1 s.bridge.handles.handles ++ s.grants steps := by
  induction steps with
  | nil => exact fun s => (List.append_nil _).symm
  | cons x rest ih =>
      intro s
      have hhandles : (s.step x).2.bridge.handles.handles =
          s.bridge.handles.handles ++ s.registered x :=
        congrArg Inspection.handles (inspection_step s x)
      rw [run_cons, ih, hhandles, numbered_append, grants, granted_eq, List.append_assoc,
        Nat.add_comm 1]
      rfl

theorem grants_new (config : Config) (debuggee : Debuggee) (files : Files) (steps : List Step) :
    (new config debuggee files).grants steps =
      numbered 1 ((new config debuggee files).run steps).bridge.handles.handles :=
  (numbered_run steps (new config debuggee files)).symm

theorem step_unknown_iff (s : Session) (reference : Int64) (asides : List (List Happening)) :
    (s.step (.operation (.expandReference reference) asides)).1 =
        .failed (.unknownVariableReference reference) ↔
      reference.toInt < 1 ∨ (s.bridge.handles.size : Int) < reference.toInt := by
  have hresult : ∀ result : Except Failure (List Variable),
      Answer.ofResult .listing result = .failed (.unknownVariableReference reference) ↔
        result = .error (.unknownVariableReference reference) := by
    intro result
    cases result <;> simp [Answer.ofResult]
  have hunknown := expandReference_unknown_iff { s with asides } reference
  rw [HandleTable.get?_eq_none_iff] at hunknown
  exact (hresult _).trans hunknown

/-- **References count up from one.** While there are numbers, those that a run hands out are 1, 2,
3 and so on, whatever fails. What a number was handed out for, it names ever after, through later
listings, failed calls and the end of the session. A number is unknown exactly if it was not handed
out.

What a step hands out are the numbers behind those of the table (`granted_eq`), and a table only
grows. So all that was handed out is the table itself with its numbers, whatever happened in
between. -/
theorem references_count_up (config : Config) (debuggee : Debuggee) (files : Files)
    (steps : List Step)
    (hfew : (((new config debuggee files).grants steps).length : Int) < Int64.maxValue.toInt) :
    let s₀ := new config debuggee files
    let s := s₀.run steps
    let granted := s₀.grants steps
    granted.map (·.1.toInt) = (List.range granted.length).map (fun n : Nat => (n : Int) + 1) ∧
      (∀ before after, steps = before ++ after →
        ∀ reference h, (reference, h) ∈ s₀.grants before →
          s.bridge.handles.get? reference = some h) ∧
      ∀ reference asides,
        (s.step (.operation (.expandReference reference) asides)).1 =
            .failed (.unknownVariableReference reference) ↔
          reference.toInt < 1 ∨ (granted.length : Int) < reference.toInt := by
  intro s₀ s granted
  have hgranted : granted = numbered 1 s.bridge.handles.handles :=
    grants_new config debuggee files steps
  have hlength : granted.length = s.bridge.handles.size := by
    rw [hgranted, length_numbered]
    rfl
  have hsize : (s.bridge.handles.size : Int) ≤ Int64.maxValue.toInt := by
    rw [← hlength]
    exact Int.le_of_lt hfew
  refine ⟨?_, ?_, ?_⟩
  · rw [hlength, hgranted]
    exact toInt_numbered hsize
  · rintro before after rfl reference h hmem
    refine HandleTable.get?_of_mem_numbered ?_ hsize
    rw [← hgranted]
    show (reference, h) ∈ s₀.grants (before ++ after)
    rw [grants_append]
    exact List.mem_append_left _ hmem
  · intro reference asides
    rw [hlength]
    exact step_unknown_iff s reference asides

/-- A table among the locals of a frame gets the number three. It keeps it when globals are asked
for in vain, the session ends, and another frame is looked at. -/
theorem references_across_failures :
    let listing : Reply := ⟨[], .replied 200
      "\x7b\"variables\":[\x7b\"name\":\"t\",\"type\":\"table\",\"value\":\"\"\x7d]\x7d"⟩
    let debuggee : Debuggee :=
      ⟨"localhost", 8000, false, .accepted, [("StackLocals/0?path=", [listing])], false⟩
    let before : List Step :=
      [.operation (.start "localhost:8000" false false), .operation (.scopes 0),
        .operation (.expandReference 1)]
    let after : List Step :=
      [.operation (.expandReference 2), .operation .disconnect, .operation (.expandReference 3),
        .operation (.scopes 1)]
    (((new .initial debuggee (.named [])).grants (before ++ after)).length : Int) <
        Int64.maxValue.toInt ∧
      ((new .initial debuggee (.named [])).run (before ++ after)).bridge.handles.get? 3 =
        some ⟨.locals 0, ["t"]⟩ := by
  intro listing debuggee before after
  have hfive : ((new .initial debuggee (.named [])).grants (before ++ after)).length = 5 := by
    decide +kernel
  have hfew : (((new .initial debuggee (.named [])).grants (before ++ after)).length : Int) <
      Int64.maxValue.toInt := by
    rw [hfive]
    decide
  have hgranted : ((3 : Int64), (⟨.locals 0, ["t"]⟩ : VariableHandle)) ∈
      (new .initial debuggee (.named [])).grants before := by
    decide +kernel
  obtain ⟨-, hnames, -⟩ := references_count_up .initial debuggee (.named []) _ hfew
  exact ⟨hfew, hnames before after rfl 3 _ hgranted⟩

end Session

end DebugBridge
