import NativeLaunch.Proofs.Worker.Accounts
import NativeLaunch.Proofs.Worker.States

/-!
# A worker starts once

However the calls on a worker interleave, its launcher is entered at most once and its state moves
forward only.  `StartsOnce` says so of one moment and all that follows it, and `starts_once` proves
it of every moment of every schedule.

The launch happens outside the lock, so that the state alone does not show how many runs are on
their way to it.  It is the accounts that bound their number: a run that enters the launcher has won
before, and a win is a decision, of which there is one at most.
-/

namespace NativeLaunch
namespace Worker
namespace Shared

/-- Entries, states and markings of a worker that was new. -/
structure StartsOnce (shared : Shared) : Prop where
  /-- The launcher was entered at most once. -/
  entries : shared.tally Event.isEntry ≤ 1
  launches : shared.worker.launches ≤ 1
  /-- The trail is where the state has been. -/
  current : ∃ earlier, shared.trail = shared.worker.state :: earlier
  increasing : shared.trail.Pairwise (· > ·)
  distinct : shared.trail.Nodup
  absorbing :
    shared.worker.state = .stopped → ∀ later, (shared.run later).worker.state = .stopped
  /-- Only a scheduled worker starts to run. -/
  scheduledBefore : ∀ turn, shared.worker.state ≠ .running →
    (shared.step turn).worker.state = .running → shared.worker.state = .scheduled
  /-- At most one call has marked the worker as scheduled. -/
  marked : shared.tally Event.isMarked ≤ 1
  /-- Any other was at its first step, is told the state it found, and changes no cell. -/
  refused : ∀ turn thread found, .returned thread (.marked (.error found)) ∈ shared.news turn →
    latest? thread shared.calls = some Call.markScheduled.first ∧ found = shared.worker.state ∧
      (shared.step turn).worker = shared.worker

theorem eq_scheduled_of_step_running {shared : Shared} {turn : Turn}
    (hbefore : shared.worker.state ≠ .running)
    (hafter : (shared.step turn).worker.state = .running) : shared.worker.state = .scheduled := by
  rcases (stepped shared turn).moves with ⟨hstate, _⟩ | ⟨hedge, _⟩
  · rw [hstate] at hafter
    exact absurd hafter hbefore
  · rw [hafter] at hedge
    exact WorkerState.eq_scheduled_of_canMoveTo_running hedge

/-- A call that fails to mark the worker as scheduled is a single step that changes no cell. -/
theorem refused_of_mem_news {shared : Shared} {turn : Turn} {thread : Nat} {found : WorkerState}
    (h : .returned thread (.marked (.error found)) ∈ shared.news turn) :
    latest? thread shared.calls = some .mark ∧ found = shared.worker.state ∧
      (shared.step turn).worker = shared.worker := by
  rcases exists_takes_of_mem_news h (by simp) with
    ⟨actor, stage, progress, hlatest, htakes, hevent, hstep⟩
  rw [hstep]
  cases htakes with
  | markRefused htaken =>
      rcases List.mem_singleton.1 hevent with ⟨rfl⟩
      exact ⟨hlatest, rfl, rfl⟩
  | wake notice =>
      cases notice <;> simp [Notice.advance] at hevent
  | _ =>
      simp [comeBack] at hevent

/-- In every reachable state, the launcher was entered at most once, the states went up to the
present one without a repetition, and one call at most marked the worker as scheduled. -/
theorem starts_once (invocation : Invocation) (schedule : List Turn) :
    StartsOnce ((new invocation).run schedule) where
  entries := by
    have haccounts := accounts invocation schedule
    have hentries := haccounts.entries_le_wins
    have hwins := haccounts.wins_le_one
    omega
  launches := (accounts invocation schedule).launches_le_one
  current := (trail_run invocation schedule).1
  increasing := trail_increasing invocation schedule
  distinct := by
    refine (trail_increasing invocation schedule).imp ?_
    intro later earlier hgreater hsame
    rw [hsame] at hgreater
    exact Nat.lt_irrefl _ hgreater
  absorbing := stopped_run
  scheduledBefore _ := eq_scheduled_of_step_running
  marked := (accounts invocation schedule).marked_le_one
  refused _ _ _ := refused_of_mem_news

end Shared
end Worker
end NativeLaunch
