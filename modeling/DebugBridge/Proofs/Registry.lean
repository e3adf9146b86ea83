/-
What the calls of a registry do to the list of a path.

Adding and clearing are said where they are defined; this is removing and verifying. Verifying works
on one breakpoint at a time (`Registry.verifyOne`) and removing takes the oldest of a line, so both
can be followed on the list of one path, whatever is between its breakpoints in the registry.

For both there is one lemma for the path of the call and one for all others, and one for what is
returned. These are all that the histories of `Proofs/Registry/History.lean` and the runs of a
bridge know of a registry.
-/
import DebugBridge.Breakpoint

namespace DebugBridge

namespace Registry

theorem mem_list {r : Registry} {path : String} {b : Breakpoint} :
    b ∈ r.list path ↔ b ∈ r.breakpoints ∧ b.path = path := by
  simp [list]

theorem path_of_mem_list {r : Registry} {path : String} {b : Breakpoint} (h : b ∈ r.list path) :
    b.path = path :=
  (mem_list.1 h).2

/-! ### Removing -/

theorem remove_fst (r : Registry) (path : String) (line : UInt32) :
    (r.remove path line).1 = (r.list path).find? fun b => b.line = line := by
  rw [list, List.find?_filter]
  simp [remove]

theorem list_remove_self (r : Registry) (path : String) (line : UInt32) :
    (r.remove path line).2.list path = (r.list path).eraseP fun b => b.line = line := by
  rw [list, list, List.eraseP_filter]
  simp only [remove, Bool.and_comm]

theorem list_remove_of_ne (r : Registry) {path other : String} (h : other ≠ path)
    (line : UInt32) : (r.remove path line).2.list other = r.list other := by
  let here (b : Breakpoint) : Bool := b.path = path && b.line = line
  show (r.breakpoints.eraseP here).filter _ = r.breakpoints.filter _
  obtain hsame | ⟨b, before, after, -, hb, hsplit, herased⟩ :=
    List.exists_or_eq_self_of_eraseP here r.breakpoints
  · rw [hsame]
  · have hpath : b.path = path := by simpa using (Bool.and_eq_true_iff.1 hb).1
    rw [herased, hsplit]
    simp [hpath, h.symm]

/-! ### Verifying -/

theorem verified_of_becomesVerified {path : String} {lineCount : Nat} {b : Breakpoint}
    (h : becomesVerified path lineCount b = true) :
    b.path = path ∧ b.line.toNat < lineCount ∧ b.verified = false := by
  simpa [becomesVerified, and_assoc] using h

/-- What verification makes of a breakpoint. -/
def verifyOne (path : String) (lineCount : Nat) (b : Breakpoint) : Breakpoint :=
  if becomesVerified path lineCount b then { b with verified := true } else b

theorem verifyOne_of_becomesVerified {path : String} {lineCount : Nat} {b : Breakpoint}
    (h : becomesVerified path lineCount b = true) :
    verifyOne path lineCount b = { b with verified := true } := if_pos h

theorem verifyOne_of_not {path : String} {lineCount : Nat} {b : Breakpoint}
    (h : becomesVerified path lineCount b = false) : verifyOne path lineCount b = b :=
  if_neg (by simp [h])

theorem verify_eq (r : Registry) (path : String) (lineCount : Nat) :
    r.verify path lineCount =
      ((r.breakpoints.filter (becomesVerified path lineCount)).map (verifyOne path lineCount),
        { r with breakpoints := r.breakpoints.map (verifyOne path lineCount) }) := rfl

theorem path_verifyOne (path : String) (lineCount : Nat) (b : Breakpoint) :
    (verifyOne path lineCount b).path = b.path := by
  unfold verifyOne
  split <;> rfl

theorem id_verifyOne (path : String) (lineCount : Nat) (b : Breakpoint) :
    (verifyOne path lineCount b).id = b.id := by
  unfold verifyOne
  split <;> rfl

theorem list_verify (r : Registry) (path other : String) (lineCount : Nat) :
    (r.verify path lineCount).2.list other = (r.list other).map (verifyOne path lineCount) := by
  rw [verify_eq]
  simp only [list, List.filter_map]
  congr 1
  exact List.filter_congr fun b _ => by simp [path_verifyOne]

theorem list_verify_of_ne (r : Registry) {path other : String} (h : other ≠ path)
    (lineCount : Nat) : (r.verify path lineCount).2.list other = r.list other := by
  rw [list_verify]
  refine (List.map_congr_left fun b hb => ?_).trans (List.map_id _)
  have hpath : b.path ≠ path := (mem_list.1 hb).2 ▸ h
  exact verifyOne_of_not (by simp [becomesVerified, hpath])

/-- Those that change are on the path. -/
theorem verify_fst (r : Registry) (path : String) (lineCount : Nat) :
    (r.verify path lineCount).1 =
      ((r.list path).filter (becomesVerified path lineCount)).map (verifyOne path lineCount) := by
  rw [verify_eq, list, List.filter_filter]
  refine congrArg (List.map _) (List.filter_congr fun b _ => ?_)
  by_cases hpath : b.path = path <;> simp [becomesVerified, hpath]

theorem becomesVerified_verifyOne (path : String) (lineCount : Nat) (b : Breakpoint) :
    becomesVerified path lineCount (verifyOne path lineCount b) = false := by
  cases h : becomesVerified path lineCount b with
  | true => simp [verifyOne_of_becomesVerified h, becomesVerified]
  | false => rwa [verifyOne_of_not h]

/-- What has been verified does not change again. -/
theorem verify_verify_fst (r : Registry) (path : String) (lineCount : Nat) :
    ((r.verify path lineCount).2.verify path lineCount).1 = [] := by
  have hnone : ∀ b ∈ (r.list path).map (verifyOne path lineCount),
      ¬ becomesVerified path lineCount b = true := by
    refine List.forall_mem_map.2 fun b _ => ?_
    simp [becomesVerified_verifyOne]
  rw [verify_fst, list_verify, List.filter_eq_nil_iff.2 hnone, List.map_nil]

end Registry

end DebugBridge
