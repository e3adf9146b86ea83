/-
A registry and the calls that made it.

What is listed on a path can be told from the calls alone, without a registry (`prescribed`): what
was added there since it was last cleared, less what was removed, each with the place it has among
all additions as its number, and verified if a later verification reached its line. A registry does
what the calls prescribe whatever they are (`list_ofHistory`). That numbers tell breakpoints apart
takes more: there must be enough of them (`Numbered`).

A history has its latest call first, so that definitions and proofs go by its constructors: what a
call does is said of the head, and what was there before of the rest.
-/
import DebugBridge.Proofs.Registry
import Mathlib.Data.List.Nodup
import Mathlib.Data.List.Range

namespace DebugBridge

namespace Registry

/-- A call that changes a registry. -/
inductive Call where
  | add (path : String) (line : UInt32)
  | remove (path : String) (line : UInt32)
  | clear (path : String)
  | verify (path : String) (lineCount : Nat)
  deriving DecidableEq, Repr

/-- The path a call is about. -/
def Call.path : Call → String
  | add path _ | remove path _ | clear path | verify path _ => path

/-- The registry after a call. -/
def after (r : Registry) : Call → Registry
  | .add path line => (r.add path line).2
  | .remove path line => (r.remove path line).2
  | .clear path => r.clear path
  | .verify path lineCount => (r.verify path lineCount).2

/-- The registry after these calls. A history has its latest call first. -/
def ofHistory : List Call → Registry
  | [] => .empty
  | call :: earlier => (ofHistory earlier).after call

/-- What the additions of a history returned, in the order in which they were made. -/
def addedBy : List Call → List Breakpoint
  | [] => []
  | .add path line :: earlier => addedBy earlier ++ [((ofHistory earlier).add path line).1]
  | _ :: earlier => addedBy earlier

/-! ### What a history prescribes

The prescription looks at the calls and at nothing that a registry returns. Additions are counted
over all paths, since that is where numbers come from; everything else is about the calls on the
path in question. Whether a breakpoint is verified depends on the calls behind its addition only.
-/

def Call.isAdd : Call → Bool
  | add _ _ => true
  | _ => false

/-- How many additions there were, on whatever path. -/
def additions (history : List Call) : Nat := history.countP Call.isAdd

/-- What a call leaves of the additions on its path, with what it adds as the addition `number`. -/
def Call.amend (number : Nat) (entries : List (Nat × UInt32)) : Call → List (Nat × UInt32)
  | add _ line => entries ++ [(number, line)]
  | remove _ line => entries.eraseP fun entry => entry.2 = line
  | clear _ => []
  | verify _ _ => entries

/-- The additions on a path that are left: those since it was last cleared, without the oldest one
of its line for each removal. Each is given by its place among all additions and its line. -/
def remaining (path : String) : List Call → List (Nat × UInt32)
  | [] => []
  | call :: earlier =>
    if call.path = path then call.amend (additions earlier + 1) (remaining path earlier)
    else remaining path earlier

/-- The calls made after the addition that has this place among all. -/
def since (number : Nat) : List Call → List Call
  | [] => []
  | call :: earlier => if number ≤ additions earlier then call :: since number earlier else []

/-- Whether a call verifies the breakpoints at a place. -/
def Call.reaches (path : String) (line : UInt32) : Call → Bool
  | verify other lineCount => other = path && line.toNat < lineCount
  | _ => false

/-- The breakpoint that an addition on a path has become. -/
def become (path : String) (history : List Call) (entry : Nat × UInt32) : Breakpoint where
  id := .ofNat entry.1
  path := path
  line := entry.2
  verified := (since entry.1 history).any (Call.reaches path entry.2)

/-- What is to be listed on a path. -/
def prescribed (path : String) (history : List Call) : List Breakpoint :=
  (remaining path history).map (become path history)

/-! ### What is listed

One more call changes the prescription of its own path and of no other, and so it does to the lists
of a registry. On its own path each kind of call is followed by itself: an addition puts a
breakpoint at the end, a removal takes the oldest of its line, clearing takes all, and a
verification goes over those that are there.
-/

theorem additions_cons (call : Call) (earlier : List Call) :
    additions (call :: earlier) = additions earlier + call.isAdd.toNat := by
  cases h : call.isAdd <;> simp [additions, h]

theorem mem_amend {call : Call} {number : Nat} {entries : List (Nat × UInt32)}
    {entry : Nat × UInt32} (h : entry ∈ call.amend number entries) :
    entry ∈ entries ∨ call.isAdd = true ∧ entry.1 = number := by
  cases call with
  | add _ line =>
      rcases List.mem_append.1 h with hold | hnew
      · exact Or.inl hold
      · exact Or.inr ⟨rfl, by rw [List.mem_singleton.1 hnew]⟩
  | remove => exact Or.inl (List.mem_of_mem_eraseP h)
  | clear => simp [Call.amend] at h
  | verify => exact Or.inl h

/-- What is left was added by now, so that each call from now on comes after its addition. -/
theorem number_le_of_mem_remaining {path : String} (history : List Call) :
    ∀ entry ∈ remaining path history, entry.1 ≤ additions history := by
  induction history with
  | nil => simp [remaining]
  | cons call earlier ih =>
      intro entry hentry
      rw [additions_cons]
      unfold remaining at hentry
      split at hentry
      · obtain hold | ⟨hadd, hnumber⟩ := mem_amend hentry
        · exact Nat.le_add_right_of_le (ih entry hold)
        · rw [hadd, hnumber]
          exact Nat.le_refl _
      · exact Nat.le_add_right_of_le (ih entry hentry)

/-- One call more verifies what it reaches of what was added before. -/
theorem become_cons {path : String} {earlier : List Call} {entry : Nat × UInt32}
    (h : entry ∈ remaining path earlier) (call : Call) :
    become path (call :: earlier) entry =
      { become path earlier entry with
        verified := call.reaches path entry.2 || (become path earlier entry).verified } := by
  have hnumber := number_le_of_mem_remaining earlier entry h
  simp [become, since, hnumber]

/-- A call that does not reach what is there leaves it. -/
theorem become_cons_of_not_reaches {path : String} {earlier : List Call} {call : Call}
    (hcall : ∀ line, call.reaches path line = false) {entry : Nat × UInt32}
    (h : entry ∈ remaining path earlier) :
    become path (call :: earlier) entry = become path earlier entry := by
  rw [become_cons h, hcall, Bool.false_or]

theorem map_become_cons {path : String} {earlier : List Call} {call : Call}
    (hcall : ∀ line, call.reaches path line = false) {entries : List (Nat × UInt32)}
    (h : entries ⊆ remaining path earlier) :
    entries.map (become path (call :: earlier)) = entries.map (become path earlier) :=
  List.map_congr_left fun _ hentry => become_cons_of_not_reaches hcall (h hentry)

theorem become_verify {path : String} {earlier : List Call} {entry : Nat × UInt32}
    (h : entry ∈ remaining path earlier) (lineCount : Nat) :
    become path (.verify path lineCount :: earlier) entry =
      verifyOne path lineCount (become path earlier entry) := by
  have hchanges : becomesVerified path lineCount (become path earlier entry) =
      ((Call.verify path lineCount).reaches path entry.2 &&
        !(become path earlier entry).verified) := rfl
  rw [become_cons h, verifyOne, hchanges]
  generalize (Call.verify path lineCount).reaches path entry.2 = reached
  generalize become path earlier entry = b
  cases reached with
  | false => rfl
  | true => cases hverified : b.verified <;> simp [← hverified]

theorem nextId_ofHistory (history : List Call) :
    (ofHistory history).nextId = UInt64.ofNat (additions history + 1) := by
  induction history with
  | nil => rfl
  | cons call earlier ih =>
      rw [additions_cons]
      cases call with
      | add path line =>
          show (ofHistory earlier).nextId + 1 = _
          rw [ih, ← UInt64.ofNat_one, ← UInt64.ofNat_add]
          rfl
      | remove | clear | verify => exact ih

/-- What the next addition returns. -/
theorem add_ofHistory (history : List Call) (path : String) (line : UInt32) :
    ((ofHistory history).add path line).1 =
      ⟨UInt64.ofNat (additions history + 1), path, line, false⟩ := by
  rw [← nextId_ofHistory]
  rfl

/-- A call leaves the lists of other paths alone. -/
theorem list_after_of_ne (r : Registry) {call : Call} {path : String} (h : path ≠ call.path) :
    (r.after call).list path = r.list path := by
  cases call with
  | add other line =>
      have hne : other ≠ path := fun heq => h heq.symm
      rw [after, list_add, if_neg hne, List.append_nil]
  | remove other line => exact list_remove_of_ne r h line
  | clear other => exact list_clear_of_ne r h
  | verify other lineCount => exact list_verify_of_ne r h lineCount

theorem prescribed_cons_of_ne {call : Call} {path : String} (h : path ≠ call.path)
    (earlier : List Call) : prescribed path (call :: earlier) = prescribed path earlier := by
  have hreaches : ∀ line, call.reaches path line = false := by
    cases call with
    | verify other lineCount =>
        have hother : other ≠ path := fun heq => h heq.symm
        simp [Call.reaches, hother]
    | add | remove | clear => exact fun _ => rfl
  have hremaining : remaining path (call :: earlier) = remaining path earlier := by
    rw [remaining, if_neg fun heq => h heq.symm]
  rw [prescribed, hremaining, map_become_cons hreaches (List.Subset.refl _)]
  rfl

theorem prescribed_cons_self (call : Call) (earlier : List Call) :
    prescribed call.path (call :: earlier) =
      (call.amend (additions earlier + 1) (remaining call.path earlier)).map
        (become call.path (call :: earlier)) := by
  rw [prescribed, remaining, if_pos rfl]

theorem list_after_self {call : Call} {earlier : List Call}
    (h : (ofHistory earlier).list call.path = prescribed call.path earlier) :
    ((ofHistory earlier).after call).list call.path = prescribed call.path (call :: earlier) := by
  rw [prescribed_cons_self]
  rw [prescribed] at h
  cases call with
  | add path line =>
      simp only [after, Call.path, Call.amend] at h ⊢
      -- There is no call after this addition yet, so nothing has verified it.
      have hnew : become path (.add path line :: earlier) (additions earlier + 1, line) =
          ((ofHistory earlier).add path line).1 := by
        rw [add_ofHistory]
        simp [become, since]
      rw [list_add, if_pos rfl, h, List.map_append, List.map_singleton, hnew,
        map_become_cons (fun _ => rfl) (List.Subset.refl _)]
  | remove path line =>
      simp only [after, Call.path, Call.amend] at h ⊢
      rw [list_remove_self, h, List.eraseP_map, map_become_cons (fun _ => rfl) List.eraseP_subset]
      rfl
  | clear path => exact list_clear_self _ path
  | verify path lineCount =>
      simp only [after, Call.path, Call.amend] at h ⊢
      rw [list_verify, h, List.map_map]
      exact List.map_congr_left fun entry hentry => (become_verify hentry lineCount).symm

/-- **A registry lists what its history prescribes.** -/
theorem list_ofHistory (history : List Call) (path : String) :
    (ofHistory history).list path = prescribed path history := by
  induction history with
  | nil => rfl
  | cons call earlier ih =>
      by_cases h : path = call.path
      · rw [h] at ih ⊢
        exact list_after_self ih
      · rw [prescribed_cons_of_ne h, ← ih]
        exact list_after_of_ne _ h

/-! ### Numbers

As long as each addition had a number of its own, the numbers in a registry ascend and are bounded
by how many there were. From there on a number leads to one breakpoint at most, on whatever path,
and what a verification returns can be told from the lists before and behind it.
-/

/-- So many breakpoints were added to a registry, and there was a number for each. -/
structure Numbered (r : Registry) (count : Nat) : Prop where
  nextId : r.nextId.toNat = count + 1
  ascending : r.breakpoints.Pairwise fun b c => b.id < c.id
  bounded : ∀ b ∈ r.breakpoints, b.id.toNat ≤ count

namespace Numbered

variable {r : Registry} {count : Nat}

theorem add (h : Numbered r count) (hfew : count + 1 < UInt64.size - 1) (path : String)
    (line : UInt32) : Numbered (r.add path line).2 (count + 1) where
  nextId := by
    show (r.nextId + 1).toNat = _
    have hsize : UInt64.size = 2 ^ 64 := rfl
    have hone : (1 : UInt64).toNat = 1 := rfl
    rw [UInt64.toNat_add, h.nextId, hone]
    omega
  ascending := by
    refine List.pairwise_append.2 ⟨h.ascending, List.pairwise_singleton _ _, fun b hb c hc => ?_⟩
    rw [List.mem_singleton.1 hc, UInt64.lt_iff_toNat_lt, h.nextId]
    exact Nat.lt_succ_of_le (h.bounded b hb)
  bounded := fun b hb => by
    rcases List.mem_append.1 hb with hold | hnew
    · exact Nat.le_succ_of_le (h.bounded b hold)
    · rw [List.mem_singleton.1 hnew, h.nextId]

/-- Breakpoints may go. -/
theorem of_sublist (h : Numbered r count) {breakpoints : List Breakpoint}
    (hfewer : breakpoints.Sublist r.breakpoints) : Numbered { r with breakpoints } count where
  nextId := h.nextId
  ascending := h.ascending.sublist hfewer
  bounded := fun b hb => h.bounded b (hfewer.subset hb)

theorem verify (h : Numbered r count) (path : String) (lineCount : Nat) :
    Numbered (r.verify path lineCount).2 count where
  nextId := h.nextId
  ascending := by
    rw [verify_eq]
    refine List.pairwise_map.2 (h.ascending.imp fun {b c} hlt => ?_)
    rwa [id_verifyOne, id_verifyOne]
  bounded := by
    rw [verify_eq]
    refine List.forall_mem_map.2 fun b hb => ?_
    rw [id_verifyOne]
    exact h.bounded b hb

/-- The number tells the breakpoint. -/
theorem eq_of_id_eq (h : Numbered r count) {b c : Breakpoint} (hb : b ∈ r.breakpoints)
    (hc : c ∈ r.breakpoints) (hid : b.id = c.id) : b = c := by
  have hapart : (r.breakpoints.map (·.id)).Nodup :=
    List.pairwise_map.2 (h.ascending.imp fun hlt => UInt64.ne_of_lt hlt)
  exact List.inj_on_of_nodup_map hapart hb hc hid

theorem eq_of_mem_list (h : Numbered r count) {path other : String} {b c : Breakpoint}
    (hb : b ∈ r.list path) (hc : c ∈ r.list other) (hid : b.id = c.id) : b = c :=
  h.eq_of_id_eq (mem_list.1 hb).1 (mem_list.1 hc).1 hid

theorem get?_eq_some_iff (h : Numbered r count) {path : String} {id : UInt64} {b : Breakpoint} :
    r.get? path id = some b ↔ b ∈ r.list path ∧ b.id = id := by
  constructor
  · intro hget
    exact ⟨List.mem_of_find?_eq_some hget, by simpa using List.find?_some hget⟩
  · rintro ⟨hb, rfl⟩
    cases hget : r.get? path b.id with
    | none => simpa using List.find?_eq_none.1 hget b hb
    | some c =>
        have hc : c ∈ r.list path := List.mem_of_find?_eq_some hget
        have hid : c.id = b.id := by simpa using List.find?_some hget
        rw [h.eq_of_mem_list hc hb hid]

/-- A breakpoint that changes was not listed as it is then. -/
theorem verifyOne_mem_list_iff (h : Numbered r count) {path : String} {b : Breakpoint}
    (hb : b ∈ r.list path) (lineCount : Nat) :
    verifyOne path lineCount b ∈ r.list path ↔ becomesVerified path lineCount b = false := by
  cases hchanges : becomesVerified path lineCount b with
  | false => simpa [verifyOne_of_not hchanges] using hb
  | true =>
      refine iff_of_false (fun hmem => ?_) (by simp)
      have hsame := h.eq_of_mem_list hmem hb (id_verifyOne path lineCount b)
      have hnot := becomesVerified_verifyOne path lineCount b
      rw [hsame, hchanges] at hnot
      exact Bool.noConfusion hnot

/-- What a verification returns is what is listed afterwards and was not before. -/
theorem verify_fst_eq (h : Numbered r count) (path : String) (lineCount : Nat) :
    (r.verify path lineCount).1 =
      ((r.verify path lineCount).2.list path).filter fun b => b ∉ r.list path := by
  rw [verify_fst, list_verify, List.filter_map]
  congr 1
  refine List.filter_congr fun b hb => ?_
  have hmem := h.verifyOne_mem_list_iff hb lineCount
  cases hchanges : becomesVerified path lineCount b <;> simp [hmem, hchanges]

end Numbered

theorem numbered_ofHistory (history : List Call) (hfew : additions history < UInt64.size - 1) :
    Numbered (ofHistory history) (additions history) := by
  induction history with
  | nil => exact ⟨rfl, .nil, by simp [ofHistory, empty]⟩
  | cons call earlier ih =>
      rw [additions_cons] at hfew ⊢
      have hearlier := ih (Nat.lt_of_le_of_lt (Nat.le_add_right _ _) hfew)
      cases call with
      | add path line => exact hearlier.add hfew path line
      | remove path line => exact hearlier.of_sublist List.eraseP_sublist
      | clear path => exact hearlier.of_sublist List.filter_sublist
      | verify path lineCount => exact hearlier.verify path lineCount

theorem numbers_addedBy (history : List Call) (hfew : additions history < UInt64.size - 1) :
    (addedBy history).map (·.id.toNat) = List.range' 1 (additions history) := by
  induction history with
  | nil => rfl
  | cons call earlier ih =>
      rw [additions_cons] at hfew ⊢
      have hless := Nat.lt_of_le_of_lt (Nat.le_add_right _ _) hfew
      cases call with
      | add path line =>
          have hid : ((ofHistory earlier).add path line).1.id.toNat = additions earlier + 1 :=
            (numbered_ofHistory earlier hless).nextId
          rw [addedBy, List.map_append, ih hless, List.map_singleton, hid]
          show _ = List.range' 1 (additions earlier + 1)
          rw [List.range'_1_concat, Nat.add_comm 1]
      | remove | clear | verify => exact ih hless

/-! ### Every history

What a client may expect of a registry in one place: what it lists, what each call returns, and that
the calls on one path leave all others as they are.
-/

/-- A registry is as these calls prescribe, and so is what the next call returns. -/
structure Follows (r : Registry) (history : List Call) : Prop where
  listed : ∀ path, r.list path = prescribed path history
  /-- The additions have the numbers from one on, in order and whatever was removed in between. -/
  numbers : (addedBy history).map (·.id.toNat) = List.range' 1 (additions history)
  added : ∀ path line, (r.add path line).1.id.toNat = additions history + 1 ∧
    (r.add path line).1 = ⟨UInt64.ofNat (additions history + 1), path, line, false⟩
  removed : ∀ path line, (r.remove path line).1 = (r.list path).find? fun b => b.line = line
  /-- What a verification returns is what is listed afterwards and was not before. -/
  verified : ∀ path lineCount, (r.verify path lineCount).1 =
    ((r.verify path lineCount).2.list path).filter fun b => b ∉ r.list path
  settled : ∀ path lineCount, ((r.verify path lineCount).2.verify path lineCount).1 = []
  located : ∀ path, ∀ b ∈ r.list path, b.path = path
  ascending : ∀ path, (r.list path).Pairwise fun b c => b.id < c.id
  /-- Numbers tell breakpoints apart, on one path or on two. -/
  unique : ∀ path other, ∀ b ∈ r.list path, ∀ c ∈ r.list other, b.id = c.id → b = c
  found : ∀ path id b, r.get? path id = some b ↔ b ∈ r.list path ∧ b.id = id
  apart : ∀ (call : Call) path, path ≠ call.path → (r.after call).list path = r.list path

/-- **A registry follows its history** as long as there is a number for each breakpoint. What it
lists it lists in any case (`list_ofHistory`); the bound is for what is said of numbers, which start
over when they have all been given.

There is one lemma for each clause. Those about the list of a path go by the calls on this path, and
those about numbers by the calls that add. -/
theorem follows_history (history : List Call) (hfew : additions history < UInt64.size - 1) :
    (ofHistory history).Follows history := by
  have hnumbered := numbered_ofHistory history hfew
  exact {
    listed := list_ofHistory history
    numbers := numbers_addedBy history hfew
    added := fun path line => ⟨hnumbered.nextId, add_ofHistory history path line⟩
    removed := remove_fst _
    verified := hnumbered.verify_fst_eq
    settled := verify_verify_fst _
    located := fun _ _ => path_of_mem_list
    ascending := fun _ => hnumbered.ascending.filter _
    unique := fun _ _ _ hb _ hc => hnumbered.eq_of_mem_list hb hc
    found := fun _ _ _ => hnumbered.get?_eq_some_iff
    apart := fun _ _ => list_after_of_ne _ }

/-- Two breakpoints at one place, of which the older goes, and one on another path in between. -/
theorem follows_history_of_duplicates :
    let history : List Call :=
      [.verify "main.nut" 9, .add "main.nut" 9, .remove "main.nut" 4, .verify "main.nut" 5,
        .add "main.nut" 4, .add "lib.nut" 4, .add "main.nut" 4]
    additions history < UInt64.size - 1 ∧ (ofHistory history).Follows history ∧
      prescribed "main.nut" history =
        [⟨3, "main.nut", 4, true⟩, ⟨4, "main.nut", 9, false⟩] ∧
      prescribed "lib.nut" history = [⟨2, "lib.nut", 4, false⟩] :=
  ⟨by decide, follows_history _ (by decide), by decide, by decide⟩

end Registry

end DebugBridge
