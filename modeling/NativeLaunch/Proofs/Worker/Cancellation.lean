import NativeLaunch.Proofs.Worker.Outcomes

/-!
# A cancelled worker is never launched

A stop that reports a cancellation and a run that wins are rivals for the same decision.  The
decision is made by moving the state, long before the stop records its outcome and reports, and
before the run enters the launcher; runs may also come at any time afterwards.  `CancelledForGood`
says that the two exclude each other over all that follows a moment and all that came before it,
and `cancelled_for_good` proves it of every moment of every schedule.
-/

namespace NativeLaunch
namespace Worker
namespace Shared

/-- Cancellations of a worker that was new, and what follows from them. -/
structure CancelledForGood (shared : Shared) : Prop where
  /-- At most one stop has reported a cancellation. -/
  once : shared.tally Event.isCancelled ≤ 1
  /-- After the report there is no entry, past or to come, and the state and the outcome stay. -/
  settled : ∀ thread, .returned thread (.stopped .cancelled) ∈ shared.past → ∀ later,
    (shared.run later).tally Event.isEntry = 0 ∧ (shared.run later).worker.state = .stopped ∧
      (shared.run later).worker.outcome = some .skipped
  /-- After an entry no stop reports a cancellation. -/
  launched : 0 < shared.tally Event.isEntry → ∀ later thread,
    .returned thread (.stopped .cancelled) ∉ (shared.run later).past

/-- Behind a reported cancellation stands a stop that came in time, and has recorded so. -/
theorem stopped_in_time {shared : Shared} {thread : Nat} (h : Accounts shared)
    (hreported : .returned thread (.stopped .cancelled) ∈ shared.past) :
    0 < shared.tally Event.isTimelyStop ∧ 0 < shared.tally Event.isSkip := by
  have hcancelled : 0 < shared.tally Event.isCancelled := tally_pos_iff.2 ⟨_, hreported, rfl⟩
  have htimelyStops := h.timelyStops
  have hforgoings := h.forgoings
  have hskips : shared.tally Event.isForgoing ≤ shared.tally Event.isSkip := by
    refine shared.tally_le_tally ?_
    intro event hforgoing
    cases event with
    | forwent thread =>
        rfl
    | _ =>
        cases hforgoing
  exact ⟨by omega, by omega⟩

/-- A worker whose cancellation was reported was not launched, is stopped, and shows a skip. -/
theorem settled_of_cancelled {invocation : Invocation} {schedule : List Turn} {thread : Nat}
    (h : .returned thread (.stopped .cancelled) ∈ ((new invocation).run schedule).past) :
    ((new invocation).run schedule).tally Event.isEntry = 0 ∧
      ((new invocation).run schedule).worker.state = .stopped ∧
        ((new invocation).run schedule).worker.outcome = some .skipped := by
  have haccounts := accounts invocation schedule
  rcases stopped_in_time haccounts h with ⟨htimely, hskip⟩
  have hexclusive := haccounts.timelyStops_add_wins_le_one
  have hentries := haccounts.entries_le_wins
  have hconclusions := haccounts.conclusions_le_wins
  refine ⟨by omega, haccounts.stopped_of_timelyStop htimely, ?_⟩
  rw [outcome_eq_some_iff]
  exact .inr ⟨by omega, hskip, rfl⟩

/-- In every reachable state, a cancellation that was reported and a launch exclude each other,
now and ever after. -/
theorem cancelled_for_good (invocation : Invocation) (schedule : List Turn) :
    CancelledForGood ((new invocation).run schedule) where
  once := (accounts invocation schedule).cancelled_le_one
  settled := by
    intro thread hreported later
    have hstays := mem_past_run later hreported
    rw [← run_append] at hstays ⊢
    exact settled_of_cancelled hstays
  launched := by
    intro hentry later thread hreported
    have hmono := tally_le_run ((new invocation).run schedule) later Event.isEntry
    rw [← run_append] at hreported hmono
    have hnever := (settled_of_cancelled hreported).1
    omega

end Shared
end Worker
end NativeLaunch
