import Mathlib.Data.List.Basic

/-!
# Calls in progress

Calls in progress are kept in a list with the number of their caller, the latest first.  The order of
different callers says nothing, so that a call which takes a step may as well be the first.
-/

namespace NativeLaunch

variable {Stage : Type}

theorem perm_of_lookup {caller : Nat} {stage : Stage} {calls : List (Nat × Stage)}
    (h : calls.lookup caller = some stage) :
    calls.Perm ((caller, stage) :: calls.eraseP fun call => caller == call.1) := by
  rcases List.lookup_eq_some_iff.1 h with ⟨newer, older, rfl, hnewer⟩
  have herase : (newer ++ (caller, stage) :: older).eraseP (fun call => caller == call.1) =
      newer ++ older := by
    rw [List.eraseP_append_right]
    · simp
    · intro call hcall
      simpa using hnewer call hcall
  rw [herase]
  exact List.perm_middle

end NativeLaunch
