/-
Where references and queries come from.

A client gets references to scopes by opening them, and to a member of a local value when the
debuggee has listed it (`Obtained`). So a client that only expands references asks the debuggee for
nothing but what it was told of (`Rooted`). Globals it can refer to, but no more: they have no
members, and they are not asked for.

There is one operation that goes past this, the expansion of a handle that the client writes itself.
It can ask for any path, whether or not that was ever listed, and is what the last part of the
result excludes by a hypothesis on the steps and not on the session.
-/
import DebugBridge.Proofs.Expansion
import Mathlib.Data.List.Infix

namespace DebugBridge.Session

/-- During the step `x`, the debuggee listed `v` when it was asked for the members of `parent`. This
is read off the log, where the query stands with its outcome, and not off what the step answers. -/
def Lists (s : Session) (x : Step) (parent : VariableHandle) (v : RemoteVariable) : Prop :=
  s.asked? x = some parent ∧ ∃ query outcome listing, parent.query = .ok query ∧
    .answered (.get query) outcome ∈ (s.step x).2.effectsSince s.log ∧
    outcome.listing query = .ok listing ∧ v ∈ listing.entries

/-- In a run, the debuggee listed a member of `parent` with this name that has members itself. -/
def HasListed (s : Session) (steps : List Step) (parent : VariableHandle) (name : String) : Prop :=
  ∃ before x after v, steps = before ++ x :: after ∧ (s.run before).Lists x parent v ∧
    v.name = name ∧ isAggregate v.type = true

/-- How a run can come by a reference: by opening the scopes of a frame, or by a listing. That there
is no third way is seen in what a single step registers (`registered_cases`). -/
inductive Obtained (s : Session) (steps : List Step) : VariableHandle → Prop where
  | locals {frame : UInt32} {asides : List (List Happening)} :
      .operation (.scopes frame) asides ∈ steps → Obtained s steps (.locals frame)
  | globals {frame : UInt32} {asides : List (List Happening)} :
      .operation (.scopes frame) asides ∈ steps → Obtained s steps .globals
  | member {frame : UInt32} {path : List String} {name : String} :
      s.HasListed steps ⟨.locals frame, path⟩ name →
      Obtained s steps ⟨.locals frame, path ++ [name]⟩

/-- If `h` is a local value, then each member on its path has been listed, the first as a member of
the scope and every other as a member of the one before it. -/
def Rooted (s : Session) (steps : List Step) (h : VariableHandle) : Prop :=
  ∀ frame, h.scope = .locals frame → ∀ path name, path ++ [name] <+: h.path →
    s.HasListed steps ⟨.locals frame, path⟩ name

variable {s : Session} {steps : List Step}

theorem HasListed.append {parent : VariableHandle} {name : String}
    (h : s.HasListed steps parent name) (more : List Step) :
    s.HasListed (steps ++ more) parent name := by
  obtain ⟨before, x, after, v, rfl, hrest⟩ := h
  exact ⟨before, x, after ++ more, v, by simp, hrest⟩

theorem Lists.hasListed {x : Step} {parent : VariableHandle} {v : RemoteVariable}
    (h : (s.run steps).Lists x parent v) (haggregate : isAggregate v.type = true) :
    s.HasListed (steps ++ [x]) parent v.name :=
  ⟨steps, x, [], v, rfl, h, rfl, haggregate⟩

theorem Obtained.append {h : VariableHandle} (hobtained : s.Obtained steps h)
    (more : List Step) : s.Obtained (steps ++ more) h := by
  cases hobtained with
  | locals hscopes => exact .locals (List.mem_append_left _ hscopes)
  | globals hscopes => exact .globals (List.mem_append_left _ hscopes)
  | member hlisted => exact .member (hlisted.append more)

theorem Obtained.path_of_globals {h : VariableHandle} (hobtained : s.Obtained steps h)
    (hscope : h.scope = .globals) : h.path = [] := by
  cases hobtained with
  | locals => rfl
  | globals => rfl
  | member => simp at hscope

theorem Rooted.append {h : VariableHandle} (hrooted : s.Rooted steps h) (more : List Step) :
    s.Rooted (steps ++ more) h :=
  fun frame hscope path name hpath => (hrooted frame hscope path name hpath).append more

/-- A scope has nothing on its path. -/
theorem Rooted.of_path_eq_nil {h : VariableHandle} (hpath : h.path = []) : s.Rooted steps h := by
  intro frame hscope path name hmember
  rw [hpath] at hmember
  simp at hmember

/-- A member is rooted as soon as it is listed, if the value that it is a member of is. -/
theorem Rooted.child {frame : UInt32} {path : List String} {name : String}
    (hrooted : s.Rooted steps ⟨.locals frame, path⟩)
    (hlisted : s.HasListed steps ⟨.locals frame, path⟩ name) :
    s.Rooted steps ⟨.locals frame, path ++ [name]⟩ := by
  intro other hscope first second hmember
  obtain rfl : frame = other := by simpa using hscope
  rcases List.prefix_concat_iff.1 hmember with hlast | hinner
  · obtain ⟨rfl, hname⟩ := List.append_inj' hlast rfl
    rw [List.singleton_inj.1 hname]
    exact hlisted
  · exact hrooted frame rfl first second hinner

/-! ### One step

A reference that a step registers is traced to the scope that was opened or to the listing that came
in during it, and a listing that comes in is registered. Both are needed, since the references of a
run are to be exactly those it can come by.
-/

/-- A listing that a step makes use of comes in during that step. -/
theorem lists_of_listing? {x : Step} {parent : VariableHandle} {listing : VariableList}
    (hasked : s.asked? x = some parent) (hlisting : s.listing? parent = some listing)
    {v : RemoteVariable} (hv : v ∈ listing.entries) : s.Lists x parent v := by
  obtain ⟨query, hsent, hreply⟩ := Option.bind_eq_some_iff.1 hlisting
  refine ⟨hasked, query, (s.debuggee.answer (.get query)).1.outcome, listing,
    query_of_sent? hsent, ?_, toOption_eq_some_iff.1 hreply, hv⟩
  rw [← mem_exchangeIn rfl, exchangeIn_effectsSince, hasked, Option.elim_some, exchange, hsent]
  simp

/-- A listing that comes in during a step is made use of. -/
theorem listing?_of_lists {x : Step} {parent : VariableHandle} {v : RemoteVariable}
    (hlists : s.Lists x parent v) :
    ∃ listing, s.listing? parent = some listing ∧ v ∈ listing.entries := by
  obtain ⟨hasked, query, outcome, listing, -, hanswered, hlisting, hv⟩ := hlists
  rw [← mem_exchangeIn rfl, exchangeIn_effectsSince, hasked, Option.elim_some] at hanswered
  cases hsent : s.sent? parent with
  | none => simp [exchange, hsent] at hanswered
  | some other =>
      simp only [exchange, hsent, Option.elim_some, List.mem_cons, reduceCtorEq, false_or,
        Effect.answered.injEq, Request.get.injEq, List.not_mem_nil, or_false] at hanswered
      obtain ⟨rfl, rfl⟩ := hanswered
      exact ⟨listing, by rw [listing?, hsent, Option.bind_some, hlisting]; rfl, hv⟩

theorem child_mem_registered {x : Step} {parent : VariableHandle} {v : RemoteVariable}
    (hlists : s.Lists x parent v) (haggregate : isAggregate v.type = true) :
    parent.child v.name ∈ s.registered x := by
  obtain ⟨listing, hlisting, hv⟩ := listing?_of_lists hlists
  have hchild : parent.child v.name ∈ parent.children listing :=
    VariableHandle.mem_children.2 ⟨v, hv, haggregate, rfl⟩
  have hasked := hlists.1
  unfold registered
  split
  · simp [asked?] at hasked
  · rwa [hasked, Option.elim_some, hlisting, Option.elim_some]

/-- What a step registers is a scope that it opens, or a member of a local value that the debuggee
lists during the step. -/
theorem registered_cases {x : Step} {h : VariableHandle} (hmem : h ∈ s.registered x) :
    (∃ frame asides, x = .operation (.scopes frame) asides ∧ (h = .locals frame ∨ h = .globals)) ∨
      ∃ frame path v, s.Lists x ⟨.locals frame, path⟩ v ∧ isAggregate v.type = true ∧
        h = ⟨.locals frame, path ++ [v.name]⟩ := by
  by_cases hscopes : ∃ frame asides, x = .operation (.scopes frame) asides
  · obtain ⟨frame, asides, rfl⟩ := hscopes
    exact .inl ⟨frame, asides, rfl, by simpa [registered] using hmem⟩
  · have hmembers : h ∈ (s.asked? x).elim [] fun h => (s.listing? h).elim [] h.children := by
      unfold registered at hmem
      split at hmem
      · rename_i frame asides
        exact absurd ⟨frame, asides, rfl⟩ hscopes
      · exact hmem
    cases hasked : s.asked? x with
    | none => simp [hasked] at hmembers
    | some parent =>
        cases hlisting : s.listing? parent with
        | none => simp [hasked, hlisting] at hmembers
        | some listing =>
            rw [hasked, Option.elim_some, hlisting, Option.elim_some] at hmembers
            obtain ⟨v, hv, haggregate, rfl⟩ := VariableHandle.mem_children.1 hmembers
            have hlists := lists_of_listing? hasked hlisting hv
            obtain ⟨query, -, -, hquery, -⟩ := hlists.2
            obtain ⟨frame, path, rfl⟩ := VariableHandle.eq_of_query hquery
            exact .inr ⟨frame, path, v, hlists, haggregate, rfl⟩

theorem mem_handles_step {x : Step} {h : VariableHandle} :
    h ∈ (s.step x).2.bridge.handles.handles ↔
      h ∈ s.bridge.handles.handles ∨ h ∈ s.registered x := by
  have hhandles : (s.step x).2.bridge.handles.handles =
      s.bridge.handles.handles ++ s.registered x :=
    congrArg Inspection.handles (inspection_step s x)
  rw [hhandles, List.mem_append]

/-- A query is for the members of the value that the step asks for, which is a local one. -/
theorem asked_of_requested {x : Step} {query : String}
    (hsent : .requested (.get query) ∈ (s.step x).2.effectsSince s.log) :
    ∃ frame path, s.asked? x = some ⟨.locals frame, path⟩ ∧
      VariableHandle.query ⟨.locals frame, path⟩ = .ok query := by
  rw [← mem_exchangeIn rfl, exchangeIn_effectsSince] at hsent
  cases hasked : s.asked? x with
  | none => simp [hasked] at hsent
  | some h =>
      cases hquery : s.sent? h with
      | none => simp [hasked, exchange, hquery] at hsent
      | some query' =>
          have heq : query = query' := by simpa [hasked, exchange, hquery] using hsent
          have hquery := heq ▸ query_of_sent? hquery
          obtain ⟨frame, path, rfl⟩ := VariableHandle.eq_of_query hquery
          exact ⟨frame, path, rfl, hquery⟩

/-- Globals are never asked for: whoever tries is told so, and nothing changes. -/
theorem step_of_globals_asked {x : Step} {path : List String}
    (hasked : s.asked? x = some ⟨.globals, path⟩) :
    s.step x = (.failed (.unknownVariableScope (VariableHandle.text ⟨.globals, path⟩)),
      { s with asides := [] }) := by
  unfold asked? at hasked
  split at hasked
  · simp [step, operate, expandReference, hasked, expandHandle, VariableHandle.query,
      Answer.ofResult]
  · obtain rfl := Option.some.inj hasked
    simp [step, operate, expandHandle, VariableHandle.query, Answer.ofResult]
  · simp at hasked

/-! ### Every run

The induction adds a step at the end of the run, because what has been listed refers to the steps
before. That a reference stays once it is there makes the other direction a matter of the one step
that registered it.
-/

theorem obtained_run (hnew : s.bridge.handles.handles = []) (steps : List Step) :
    ∀ h ∈ (s.run steps).bridge.handles.handles, s.Obtained steps h := by
  induction steps using List.reverseRecOn with
  | nil => simp [hnew]
  | append_singleton steps x ih =>
      intro h hmem
      rw [run_append, run_cons, run_nil, mem_handles_step] at hmem
      rcases hmem with hbefore | hnow
      · exact (ih h hbefore).append [x]
      · rcases registered_cases hnow with
          ⟨frame, asides, rfl, rfl | rfl⟩ | ⟨frame, path, v, hlists, haggregate, rfl⟩
        · exact .locals (List.mem_append_right _ (List.mem_singleton_self _))
        · exact .globals (List.mem_append_right _ (List.mem_singleton_self _))
        · exact .member (hlists.hasListed haggregate)

/-- References are for good. -/
theorem mem_handles_run {h : VariableHandle} (steps : List Step) :
    ∀ {s : Session}, h ∈ s.bridge.handles.handles → h ∈ (s.run steps).bridge.handles.handles := by
  induction steps with
  | nil => exact fun hmem => hmem
  | cons x rest ih => exact fun hmem => ih (mem_handles_step.2 (.inl hmem))

theorem mem_handles_of_registered {before after : List Step} {x : Step} {h : VariableHandle}
    (hmem : h ∈ (s.run before).registered x) :
    h ∈ (s.run (before ++ x :: after)).bridge.handles.handles := by
  rw [run_append, run_cons]
  exact mem_handles_run after (mem_handles_step.2 (.inr hmem))

theorem mem_handles_of_obtained {h : VariableHandle} (hobtained : s.Obtained steps h) :
    h ∈ (s.run steps).bridge.handles.handles := by
  cases hobtained with
  | locals hscopes =>
      obtain ⟨before, after, rfl⟩ := List.append_of_mem hscopes
      exact mem_handles_of_registered (by simp [registered])
  | globals hscopes =>
      obtain ⟨before, after, rfl⟩ := List.append_of_mem hscopes
      exact mem_handles_of_registered (by simp [registered])
  | member hlisted =>
      obtain ⟨before, x, after, v, rfl, hlists, rfl, haggregate⟩ := hlisted
      exact mem_handles_of_registered (child_mem_registered hlists haggregate)

/-- A step of a client that expands references only asks for what it has a reference to. -/
theorem mem_handles_of_asked {x : Step}
    (hindirect : ∀ h asides, x ≠ .operation (.expandHandle h) asides) {h : VariableHandle}
    (hasked : s.asked? x = some h) : h ∈ s.bridge.handles.handles := by
  unfold asked? at hasked
  split at hasked
  · exact HandleTable.mem_of_get? hasked
  · rename_i handle asides
    exact absurd rfl (hindirect handle asides)
  · simp at hasked

theorem rooted_run (hnew : s.bridge.handles.handles = []) (steps : List Step)
    (hindirect : ∀ h asides, .operation (.expandHandle h) asides ∉ steps) :
    ∀ h ∈ (s.run steps).bridge.handles.handles, s.Rooted steps h := by
  induction steps using List.reverseRecOn with
  | nil => simp [hnew]
  | append_singleton steps x ih =>
      intro h hmem
      have hbefore := ih fun h asides hmem => hindirect h asides (List.mem_append_left _ hmem)
      have hnot : ∀ h asides, x ≠ .operation (.expandHandle h) asides := fun h asides hx =>
        hindirect h asides (by simp [hx])
      rw [run_append, run_cons, run_nil, mem_handles_step] at hmem
      rcases hmem with hold | hnow
      · exact (hbefore h hold).append [x]
      · rcases registered_cases hnow with
          ⟨frame, asides, rfl, rfl | rfl⟩ | ⟨frame, path, v, hlists, haggregate, rfl⟩
        · exact .of_path_eq_nil rfl
        · exact .of_path_eq_nil rfl
        · have hparent := hbefore _ (mem_handles_of_asked hnot hlists.1)
          exact (hparent.append [x]).child (hlists.hasListed haggregate)

/-- **References come from scopes and from listings, and so do queries.** The references are those
to the scopes that were opened, and to the members of local values that the debuggee listed and that
have members. So one to a member of a global value there is not, and globals are never asked for.
What is asked for is a local value, and if a client only expands references, then the debuggee has
listed each member on the way to it, from the scope on.

The first part is an induction over the steps in which only what a step registers has to be known
(`registered_cases`). The last part holds of all references there are: a path was listed member by
member, since the value above had a reference when its members were listed (`rooted_run`). -/
theorem references_come_from_listings (config : Config) (debuggee : Debuggee) (files : Files)
    (steps : List Step) :
    let s₀ := new config debuggee files
    let s := s₀.run steps
    (∀ h, h ∈ s.bridge.handles.handles ↔ s₀.Obtained steps h) ∧
      (∀ h ∈ s.bridge.handles.handles, h.scope = .globals → h.path = []) ∧
      (∀ x path, s.asked? x = some ⟨.globals, path⟩ →
        s.step x = (.failed (.unknownVariableScope (VariableHandle.text ⟨.globals, path⟩)),
          { s with asides := [] })) ∧
      ∀ before x query, before ++ [x] <+: steps →
        .requested (.get query) ∈ ((s₀.run before).step x).2.effectsSince (s₀.run before).log →
        ∃ frame path, (s₀.run before).asked? x = some ⟨.locals frame, path⟩ ∧
          VariableHandle.query ⟨.locals frame, path⟩ = .ok query ∧
          ((∀ h asides, .operation (.expandHandle h) asides ∉ steps) →
            ∀ parent name, parent ++ [name] <+: path →
              s₀.HasListed before ⟨.locals frame, parent⟩ name) := by
  intro s₀ s
  have hnew : s₀.bridge.handles.handles = [] := rfl
  have hobtained := obtained_run hnew steps
  refine ⟨fun h => ⟨hobtained h, mem_handles_of_obtained⟩,
    fun h hmem => (hobtained h hmem).path_of_globals,
    fun x path hasked => step_of_globals_asked hasked, ?_⟩
  · intro before x query hsteps hsent
    obtain ⟨frame, path, hasked, hquery⟩ := asked_of_requested hsent
    refine ⟨frame, path, hasked, hquery, fun hindirect parent name hmember => ?_⟩
    have hbefore : ∀ h asides, .operation (.expandHandle h) asides ∉ before := fun h asides hmem =>
      hindirect h asides (hsteps.subset (List.mem_append_left _ hmem))
    have hx : ∀ h asides, x ≠ .operation (.expandHandle h) asides := fun h asides heq =>
      hindirect h asides (hsteps.subset (by simp [heq]))
    exact rooted_run hnew before hbefore _ (mem_handles_of_asked hx hasked) frame rfl parent name
      hmember

/-- A client that goes from the locals of a frame to a table in them, and on to an array in that. -/
example :
    let listing (name type : String) : Reply := ⟨[], .replied 200
      ("\x7b\"variables\":[\x7b\"name\":\"" ++ name ++ "\",\"type\":\"" ++ type ++
        "\",\"value\":\"\"\x7d]\x7d")⟩
    let debuggee : Debuggee := ⟨"localhost", 8000, false, .accepted,
      [("StackLocals/0?path=", [listing "t" "table"]),
        ("StackLocals/0?path=t", [listing "a" "array"])], false⟩
    let s := (new .initial debuggee (.named [])).run
      [.operation (.start "localhost:8000" false false), .operation (.scopes 0),
        .operation (.expandReference 1), .operation (.expandReference 3)]
    s.bridge.handles.handles =
      [.locals 0, .globals, ⟨.locals 0, ["t"]⟩, ⟨.locals 0, ["t", "a"]⟩] := by
  decide +kernel

end DebugBridge.Session
