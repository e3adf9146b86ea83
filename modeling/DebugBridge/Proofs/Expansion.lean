/-
What a step does to the references, and what it asks the debuggee for.

References are given out for the scopes of a frame, and for the values with members in a listing
that the debuggee sends. It sends one when it is asked for the members of a local value, over a
connection, and its reply is a listing (`listing?`). Nothing else adds references, nothing takes
them away, and no other queries are made (`inspection_step`).

References and queries are taken together, as an `Inspection`, because they come about together:
whatever adds a reference to a member has made a query for it. How they add up over a run is the
matter of `Proofs/References.lean`, and where they come from that of `Proofs/Provenance.lean`.
-/
import DebugBridge.Proofs.Holdings

namespace DebugBridge

theorem toOption_eq_some_iff {ε α : Type} {result : Except ε α} {a : α} :
    result.toOption = some a ↔ result = .ok a := by
  cases result <;> simp [Except.toOption]

/-- Whether an entry of the log is a query, or how one was answered. -/
def Effect.isQuery : Effect → Bool
  | requested (.get _) | answered (.get _) _ => true
  | _ => false

/-- The queries in a log with their outcomes, in order. -/
def exchangeIn (log : List Effect) : List Effect := log.filter Effect.isQuery

@[simp] theorem exchangeIn_append (log more : List Effect) :
    exchangeIn (log ++ more) = exchangeIn log ++ exchangeIn more :=
  List.filter_append ..

theorem mem_exchangeIn {log : List Effect} {e : Effect} (he : e.isQuery = true) :
    e ∈ exchangeIn log ↔ e ∈ log := by
  simp [exchangeIn, he]

theorem exchangeIn_recordOf (log : List Effect) : exchangeIn (recordOf log) = exchangeIn log := by
  rw [exchangeIn, recordOf, List.filter_filter]
  refine List.filter_congr fun e _ => ?_
  unfold Effect.isQuery
  split <;> simp [Effect.isRecord]

/-- The references a client has been given, and the queries made for it. Most operations change
neither, and with the two put together that is said once for each operation. -/
structure Inspection where
  handles : List VariableHandle
  exchange : List Effect

/-- The values with members in a listing of the members of `parent`. -/
def VariableHandle.children (parent : VariableHandle) (listing : VariableList) :
    List VariableHandle :=
  (listing.entries.filter fun v => isAggregate v.type).map fun v => parent.child v.name

theorem VariableHandle.mem_children {parent h : VariableHandle} {listing : VariableList} :
    h ∈ parent.children listing ↔
      ∃ v ∈ listing.entries, isAggregate v.type = true ∧ h = parent.child v.name := by
  simp only [children, List.mem_map, List.mem_filter, and_assoc]
  constructor
  · rintro ⟨v, hv, haggregate, rfl⟩
    exact ⟨v, hv, haggregate, rfl⟩
  · rintro ⟨v, hv, haggregate, rfl⟩
    exact ⟨v, hv, haggregate, rfl⟩

/-- Only local values have queries. -/
theorem VariableHandle.eq_of_query {h : VariableHandle} {query : String}
    (hquery : h.query = .ok query) : ∃ frame path, h = ⟨.locals frame, path⟩ := by
  obtain ⟨scope, path⟩ := h
  cases scope with
  | locals frame => exact ⟨frame, path, rfl⟩
  | globals => simp [VariableHandle.query] at hquery

theorem HandleTable.handles_expand (parent : VariableHandle) (entries : List RemoteVariable) :
    ∀ t : HandleTable,
      (t.expand parent entries).2.handles = t.handles ++ parent.children ⟨entries⟩ := by
  induction entries with
  | nil => simp [expand, VariableHandle.children]
  | cons v rest ih =>
      intro t
      cases haggregate : isAggregate v.type with
      | true =>
          have hrest := ih (t.create (parent.child v.name)).2
          rw [handles_create] at hrest
          simpa [expand, VariableHandle.children, haggregate] using hrest
      | false => simpa [expand, VariableHandle.children, haggregate] using ih t

theorem HandleTable.mem_of_get? {t : HandleTable} {reference : Int64} {h : VariableHandle}
    (hget : t.get? reference = some h) : h ∈ t.handles := by
  unfold get? at hget
  dsimp only at hget
  split at hget
  · exact List.mem_of_getElem? hget
  · simp at hget

namespace Session

def inspection (s : Session) : Inspection := ⟨s.bridge.handles.handles, exchangeIn s.log⟩

/-- The mode has nothing to do with it. -/
theorem inspection_of_holdings {s t : Session} {noDebug : Bool}
    (h : t.holdings = { s.holdings with noDebug }) : t.inspection = s.inspection := by
  have hexchange : exchangeIn t.log = exchangeIn s.log := by
    rw [← exchangeIn_recordOf t.log, ← exchangeIn_recordOf s.log]
    exact congrArg (fun holdings => exchangeIn holdings.record) h
  have hhandles : t.bridge.handles = s.bridge.handles := congrArg Holdings.handles h
  rw [inspection, inspection, hhandles, hexchange]

theorem inspection_eq_of_holdings {s t : Session} (h : t.holdings = s.holdings) :
    t.inspection = s.inspection :=
  inspection_of_holdings h

/-! ### Breakpoints -/

theorem coversDesk_inspection : CoversDesk fun s t => t.inspection = s.inspection := by
  refine .same (fun _ _ => rfl) (fun _ _ => rfl) (fun s path => ?_) (fun s b => ?_) <;>
    simp [inspection, note, exchangeIn, Effect.isQuery]

/-! ### Variables

To expand a value is to send its query, to read the listing in the reply and to register what has
members in it. Each of these can fail to come about, and then the ones behind it do not either. The
three definitions below say when they do, without looking at what the operation answers.
-/

/-- The query that is sent for the members of a value, if it has one and there is a connection. -/
def sent? (s : Session) (h : VariableHandle) : Option String :=
  if s.bridge.isConnected then h.query.toOption else none

/-- The listing that the debuggee sends when it is asked for the members of a value. -/
def listing? (s : Session) (h : VariableHandle) : Option VariableList :=
  (s.sent? h).bind fun query =>
    ((s.debuggee.answer (.get query)).1.outcome.listing query).toOption

theorem query_of_sent? {s : Session} {h : VariableHandle} {query : String}
    (hsent : s.sent? h = some query) : h.query = .ok query := by
  unfold sent? at hsent
  split at hsent
  · exact toOption_eq_some_iff.1 hsent
  · simp at hsent

/-- The query for the members of a value, if it is sent, and its outcome. -/
def exchange (s : Session) (h : VariableHandle) : List Effect :=
  (s.sent? h).elim [] fun query =>
    [.requested (.get query), .answered (.get query) (s.debuggee.answer (.get query)).1.outcome]

theorem inspection_query (s : Session) (query : String) :
    (s.call (.get query)).2.inspection =
      ⟨s.bridge.handles.handles, exchangeIn s.log ++
        [.requested (.get query), .answered (.get query) (s.call (.get query)).1]⟩ := by
  have hcall := s.holdings_call (.get query)
  have hrecord : recordOf (s.call (.get query)).2.log = recordOf s.log ++
      recordOf [.requested (.get query), .answered (.get query) (s.call (.get query)).1] :=
    congrArg Holdings.record hcall
  have hhandles : (s.call (.get query)).2.bridge.handles = s.bridge.handles :=
    congrArg Holdings.handles hcall
  rw [inspection, hhandles, ← exchangeIn_recordOf, hrecord, exchangeIn_append,
    exchangeIn_recordOf]
  rfl

theorem inspection_expandHandle (s : Session) (h : VariableHandle) :
    (s.expandHandle h).2.inspection =
      ⟨s.bridge.handles.handles ++ (s.listing? h).elim [] h.children,
        exchangeIn s.log ++ s.exchange h⟩ := by
  cases hquery : h.query with
  | error failure =>
      simp [expandHandle, listing?, exchange, sent?, hquery, Except.toOption, inspection]
  | ok query =>
      cases hconnected : s.bridge.isConnected with
      | false => simp [expandHandle, listing?, exchange, sent?, hquery, hconnected, inspection]
      | true =>
          have hcall := s.inspection_query query
          have hsent : s.sent? h = some query := by
            simp [sent?, hconnected, hquery, Except.toOption]
          have houtcome : (s.call (.get query)).1 =
            (s.debuggee.answer (.get query)).1.outcome := rfl
          rw [listing?, exchange, hsent, Option.bind_some, Option.elim_some, ← houtcome]
          simp only [expandHandle, hquery, hconnected, if_true]
          cases (s.call (.get query)).1.listing query with
          | error failure => simpa [Except.toOption] using hcall
          | ok listing =>
              have hhandles : (s.call (.get query)).2.bridge.handles.handles =
                  s.bridge.handles.handles := congrArg Inspection.handles hcall
              have hexchange : exchangeIn (s.call (.get query)).2.log = exchangeIn s.log ++ _ :=
                congrArg Inspection.exchange hcall
              simp only [inspection, HandleTable.handles_expand, hhandles, hexchange,
                Except.toOption, Option.elim_some]

/-! ### Every step

Two operations lead to an expansion, by reference or directly by handle, and one opens scopes. They
are told apart by what they ask for and by what they register, so that the statement about a step
needs no cases of its own.
-/

/-- The value whose members a step asks for. -/
def asked? (s : Session) : Step → Option VariableHandle
  | .operation (.expandReference reference) _ => s.bridge.handles.get? reference
  | .operation (.expandHandle handle) _ => some handle
  | _ => none

/-- What a step gives references to. -/
def registered (s : Session) : Step → List VariableHandle
  | .operation (.scopes frame) _ => [.locals frame, .globals]
  | x => (s.asked? x).elim [] fun h => (s.listing? h).elim [] h.children

/-- Only where references are expanded or scopes are opened, something changes. -/
theorem inspection_operate (s : Session) (operation : Operation)
    (hscopes : ∀ frame, operation ≠ .scopes frame)
    (hreference : ∀ reference, operation ≠ .expandReference reference)
    (hhandle : ∀ h, operation ≠ .expandHandle h) :
    (s.operate operation).2.inspection = s.inspection := by
  cases operation with
  | start address stopOnEntry noDebug =>
      exact inspection_of_holdings (holdings_start s address stopOnEntry noDebug)
  | startConfigured => exact inspection_of_holdings (holdings_start s _ _ _)
  | disconnect => exact inspection_eq_of_holdings (holdings_disconnect s)
  | execute control => exact inspection_eq_of_holdings (holdings_dispatch s control)
  | setBreakpoint | setBreakpoints | clearBreakpoint | clearBreakpoints | breakpoints
  | breakColumns => exact coversDesk_inspection.operate s rfl
  | runState | stack | stackPage | threads => rfl
  | scopes frame => exact absurd rfl (hscopes frame)
  | expandReference reference => exact absurd rfl (hreference reference)
  | expandHandle h => exact absurd rfl (hhandle h)

/-- **The references and queries after a step** are those before it, with what the step registers
and the query it sends, if any. Since it is an equation it says what is added, that nothing else is,
and that what was there stays in its place. -/
theorem inspection_step (s : Session) (x : Step) :
    (s.step x).2.inspection =
      ⟨s.bridge.handles.handles ++ s.registered x,
        exchangeIn s.log ++ (s.asked? x).elim [] s.exchange⟩ := by
  have hsame : ∀ t : Session, t.inspection = s.inspection → t.inspection =
      ⟨s.bridge.handles.handles ++ [], exchangeIn s.log ++ []⟩ := fun t ht => by
    rw [ht, List.append_nil, List.append_nil]
    rfl
  cases x with
  | happening happening => exact hsame _ (inspection_eq_of_holdings (holdings_deliver s happening))
  | edit path contents => exact hsame _ rfl
  | operation operation asides =>
      have hrest := inspection_operate { s with asides } operation
      cases operation with
      | scopes frame =>
          simp [step, operate, scopes, HandleTable.scopes, inspection, registered, asked?]
      | expandHandle h => exact inspection_expandHandle { s with asides } h
      | expandReference reference =>
          cases hget : s.bridge.handles.get? reference with
          | none =>
              have hunknown : ({ s with asides }.expandReference reference).2.inspection =
                  s.inspection := by
                simp [expandReference, hget, inspection]
              simp only [registered, asked?, hget]
              exact hsame _ hunknown
          | some h =>
              have hexpand : ({ s with asides }.expandReference reference) =
                  ({ s with asides }.expandHandle h) := by
                simp [expandReference, hget]
              simp only [registered, asked?, hget]
              exact (congrArg (fun answer => answer.2.inspection) hexpand).trans
                (inspection_expandHandle { s with asides } h)
      | _ => exact hsame _ (hrest (by simp) (by simp) (by simp))

/-- What is exchanged during a step is the query for what it asks for, with its outcome. -/
theorem exchangeIn_effectsSince (s : Session) (x : Step) :
    exchangeIn ((s.step x).2.effectsSince s.log) = (s.asked? x).elim [] s.exchange := by
  have hexchange : exchangeIn (s.step x).2.log = exchangeIn s.log ++ _ :=
    congrArg Inspection.exchange (inspection_step s x)
  rw [log_step, exchangeIn_append] at hexchange
  exact List.append_cancel_left hexchange

end Session

end DebugBridge
