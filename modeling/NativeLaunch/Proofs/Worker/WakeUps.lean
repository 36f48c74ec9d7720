import NativeLaunch.Proofs.Worker.Waits

/-!
# No wake-up is lost

A wait that falls asleep has just seen that what it waits for is not there.  If it comes to be there
later, some call has written it; the step of that call puts a notice ahead, and the notice wakes
everyone (`Shared.changes_announced`, `Shared.noticeAhead_step`).  So whoever is asleep has either seen
the cells as they are, or has a notice ahead.  This file defines:

* `Watched.Kept` — this, and what a wait has seen that has come to its end;
* `Watched.WakesInTime` — nobody sleeps for good on what is there, and nobody returns early.

The outcome has a lock of its own, and waits sleep on that of the state.  Nothing is lost by it, as the
outcome is written under the lock of the state, in one step with the look at the old one.
-/

namespace NativeLaunch
namespace Worker
namespace Watched

/-! ## What every wait has seen -/

/-- What holds of each wait at each moment. -/
structure Kept (invocation : Invocation) (schedule : List Turn) (wait : Wait) : Prop where
  unmet : ∀ seen, wait.watch = .asleep seen → wait.aim.isMet seen = false
  -- Who is asleep has seen the cells as they are, or will be woken.
  current : ∀ seen, wait.watch = .asleep seen →
    (((new invocation).run schedule).shared.worker.state = seen.state ∧
        ((new invocation).run schedule).shared.worker.outcome = seen.outcome) ∨
      ((new invocation).run schedule).shared.NoticeAhead
  collecting : wait.watch = .collecting →
    wait.aim = .exit ∧ ((new invocation).run schedule).shared.worker.outcome.isSome = true
  -- Who is done in time has seen what it was waiting for, and returns what it has seen.
  done : ∀ reply, wait.watch = .done reply → wait.late = false →
    ∃ early, early <+: schedule ∧
      wait.aim.isMet ((new invocation).run early).shared.worker = true ∧
        reply = wait.aim.reply ((new invocation).run early).shared.worker

namespace Kept

variable {invocation : Invocation} {schedule : List Turn} {wait : Wait}

theorem looking (hlooking : wait.watch = .looking) : Kept invocation schedule wait where
  unmet seen hasleep := by simp [hlooking] at hasleep
  current seen hasleep := by simp [hlooking] at hasleep
  collecting hcollecting := by simp [hlooking] at hcollecting
  done reply hdone := by simp [hlooking] at hdone

/-- The step of a call is seen in time: either it leaves alone what the wait has seen and any notice
that was ahead, or the wait is awake. -/
theorem work (h : Kept invocation schedule wait) {turn : Worker.Turn}
    (hawake : ((new invocation).run schedule).shared.notifies turn = false ∨
      ∀ seen, wait.watch ≠ .asleep seen) :
    Kept invocation (schedule ++ [.work turn]) wait where
  unmet := h.unmet
  current seen hasleep := by
    have hquiet := hawake.resolve_right fun hnever => hnever seen hasleep
    rw [run_concat]
    rcases Shared.changes_announced ((new invocation).run schedule).shared turn with hsame | hahead
    · rcases h.current seen hasleep with hcurrent | hbefore
      · exact .inl ⟨hsame.1.trans hcurrent.1, hsame.2.trans hcurrent.2⟩
      · exact .inr (Shared.noticeAhead_step hbefore hquiet)
    · exact .inr hahead
  collecting hcollecting := by
    rw [run_concat]
    exact ⟨(h.collecting hcollecting).1,
      Shared.isSome_outcome_step turn (h.collecting hcollecting).2⟩
  done reply hdone hlate := by
    rcases h.done reply hdone hlate with ⟨early, hearlier, hseen⟩
    exact ⟨early, hearlier.trans (List.prefix_append schedule _), hseen⟩

/-- A turn of a wait leaves alone what others have seen. -/
theorem later (h : Kept invocation schedule wait) {turn : Turn} (hturn : turn.work? = none) :
    Kept invocation (schedule ++ [turn]) wait := by
  have hshared : ((new invocation).run (schedule ++ [turn])).shared =
      ((new invocation).run schedule).shared := by
    rw [shared_run, shared_run, List.filterMap_append, List.filterMap_cons_none hturn]
    simp
  refine ⟨h.unmet, ?_, ?_, ?_⟩
  · rw [hshared]
    exact h.current
  · rw [hshared]
    exact h.collecting
  · intro reply hdone hlate
    rcases h.done reply hdone hlate with ⟨early, hearlier, hseen⟩
    exact ⟨early, hearlier.trans (List.prefix_append schedule _), hseen⟩

theorem wake (h : Kept invocation schedule wait) : Kept invocation schedule wait.wake := by
  cases hwatch : wait.watch with
  | asleep seen =>
      exact looking (by simp [Wait.wake, hwatch])
  | _ =>
      have hsame : wait.wake = wait := by simp [Wait.wake, hwatch]
      rw [hsame]
      exact h

theorem expire (h : Kept invocation schedule wait) : Kept invocation schedule wait.expire := by
  cases hwatch : wait.watch with
  | done reply =>
      have hsame : wait.expire = wait := by simp [Wait.expire, hwatch]
      rw [hsame]
      exact h
  | _ =>
      have hlate : wait.expire = { wait with late := true } := by simp [Wait.expire, hwatch]
      rw [hlate]
      exact ⟨h.unmet, h.current, h.collecting, nofun⟩

theorem advance (h : Kept invocation schedule wait) :
    Kept invocation schedule (wait.advance ((new invocation).run schedule).shared.worker) := by
  have hstep : Wait.Advances ((new invocation).run schedule).shared.worker wait
      (wait.advance ((new invocation).run schedule).shared.worker) := Wait.advances_advance _ wait
  generalize wait.advance ((new invocation).run schedule).shared.worker = next at hstep
  cases hstep with
  | found wanted _ _ hmet =>
      refine ⟨nofun, nofun, nofun, ?_⟩
      intro reply hdone _
      cases hdone
      exact ⟨schedule, List.prefix_refl schedule, hmet, rfl⟩
  | noticed _ haim hmet =>
      refine ⟨nofun, nofun, fun _ => ⟨haim, ?_⟩, nofun⟩
      rw [haim] at hmet
      exact hmet
  | gaveUp _ hlate =>
      refine ⟨nofun, nofun, nofun, ?_⟩
      intro reply _ hintime
      rw [hlate] at hintime
      cases hintime
  | slept _ hunmet =>
      refine ⟨?_, ?_, nofun, nofun⟩
      · intro seen hasleep
        cases hasleep
        exact hunmet
      · intro seen hasleep
        cases hasleep
        exact .inl ⟨rfl, rfl⟩
  | collected hcollecting =>
      refine ⟨nofun, nofun, nofun, ?_⟩
      intro reply hdone _
      cases hdone
      rcases h.collecting hcollecting with ⟨haim, hsome⟩
      refine ⟨schedule, List.prefix_refl schedule, ?_, rfl⟩
      rw [haim]
      exact hsome
  | stay =>
      exact h

end Kept

/-- Of the waits, all but one are as they were. -/
theorem mem_modify {waits : List Wait} {index : Nat} {change : Wait → Wait} {wait : Wait}
    (h : wait ∈ waits.modify index change) : wait ∈ waits ∨ ∃ old ∈ waits, wait = change old := by
  rcases List.mem_iff_getElem?.1 h with ⟨i, hi⟩
  rw [List.getElem?_modify] at hi
  rcases Option.map_eq_some_iff.1 hi with ⟨old, hold, hwait⟩
  have hmem : old ∈ waits := List.mem_of_getElem? hold
  split at hwait
  · exact .inr ⟨old, hmem, hwait.symm⟩
  · exact .inl (hwait ▸ hmem)

theorem kept (invocation : Invocation) (schedule : List Turn) :
    ∀ wait ∈ ((new invocation).run schedule).waits, Kept invocation schedule wait := by
  -- From the last turn: it is that of one wait, which the others outlast, or of a call, which all do.
  induction schedule using List.reverseRecOn with
  | nil =>
      intro wait hmem
      cases hmem
  | append_singleton schedule turn ih =>
      intro wait hmem
      rw [run_concat] at hmem
      cases turn with
      | work turn =>
          cases hnotifies : ((new invocation).run schedule).shared.notifies turn with
          | true =>
              simp only [step, hnotifies, if_true] at hmem
              rcases List.mem_map.1 hmem with ⟨old, hold, rfl⟩
              exact (ih old hold).wake.work (.inr old.watch_wake_ne)
          | false =>
              simp only [step, hnotifies, Bool.false_eq_true, if_false] at hmem
              exact (ih wait hmem).work (.inl hnotifies)
      | wait aim =>
          rcases List.mem_append.1 hmem with hold | hnew
          · exact (ih wait hold).later rfl
          · rw [List.mem_singleton.1 hnew]
            exact Kept.looking rfl
      | advance index =>
          rcases mem_modify hmem with hold | ⟨old, hold, rfl⟩
          · exact (ih wait hold).later rfl
          · exact (ih old hold).advance.later rfl
      | stir index =>
          rcases mem_modify hmem with hold | ⟨old, hold, rfl⟩
          · exact (ih wait hold).later rfl
          · exact (ih old hold).wake.later rfl
      | expire index =>
          rcases mem_modify hmem with hold | ⟨old, hold, rfl⟩
          · exact (ih wait hold).later rfl
          · exact (ih old hold).expire.later rfl

/-! ## The whole of it -/

/-- Nobody sleeps for good on what is there, and nobody whose time is not up returns without it. -/
structure WakesInTime (invocation : Invocation) (schedule : List Turn) : Prop where
  -- Whatever a sleeper has not seen is about to be announced, so also what it waits for.
  announced : ∀ wait ∈ ((new invocation).run schedule).waits, ∀ seen, wait.watch = .asleep seen →
    ((new invocation).run schedule).shared.worker.state ≠ seen.state ∨
        ((new invocation).run schedule).shared.worker.outcome ≠ seen.outcome →
      ((new invocation).run schedule).shared.NoticeAhead
  ahead : ∀ wait ∈ ((new invocation).run schedule).waits, ∀ seen, wait.watch = .asleep seen →
    wait.aim.isMet ((new invocation).run schedule).shared.worker = true →
      ((new invocation).run schedule).shared.NoticeAhead
  wakes : ∀ thread notice,
    latest? thread ((new invocation).run schedule).shared.calls = some (.announce notice) →
      ∀ wait ∈ (((new invocation).run schedule).step (.work (.advance thread))).waits,
        ∀ seen, wait.watch ≠ .asleep seen
  rested : ((new invocation).run schedule).shared.calls = [] →
    ∀ wait ∈ ((new invocation).run schedule).waits, ∀ seen, wait.watch = .asleep seen →
      wait.aim.isMet ((new invocation).run schedule).shared.worker = false
  -- What is returned in time was there at a moment of the schedule.
  reached : ∀ wait ∈ ((new invocation).run schedule).waits, ∀ wanted reply,
    wait.aim = .state wanted → wait.watch = .done reply → wait.late = false →
      ∃ last, reply = .state last ∧ wanted last = true ∧
        ∃ early, early <+: schedule ∧ ((new invocation).run early).shared.worker.state = last
  exited : ∀ wait ∈ ((new invocation).run schedule).waits, ∀ reply,
    wait.aim = .exit → wait.watch = .done reply → wait.late = false →
      ∃ outcome, reply = .exit (some outcome) ∧
        ∃ early, early <+: schedule ∧
          ((new invocation).run early).shared.worker.outcome = some outcome

theorem wakes_in_time (invocation : Invocation) (schedule : List Turn) :
    WakesInTime invocation schedule := by
  have hkept := kept invocation schedule
  have hahead : ∀ wait ∈ ((new invocation).run schedule).waits, ∀ seen,
      wait.watch = .asleep seen →
        wait.aim.isMet ((new invocation).run schedule).shared.worker = true →
          ((new invocation).run schedule).shared.NoticeAhead := by
    intro wait hmem seen hasleep hmet
    refine ((hkept wait hmem).current seen hasleep).resolve_left ?_
    -- It fell asleep on cells in which its aim was not met, so these are others.
    rintro ⟨hstate, houtcome⟩
    rw [wait.aim.isMet_congr hstate houtcome, (hkept wait hmem).unmet seen hasleep] at hmet
    cases hmet
  exact {
    announced := by
      intro wait hmem seen hasleep hchanged
      refine ((hkept wait hmem).current seen hasleep).resolve_left ?_
      rintro ⟨hstate, houtcome⟩
      exact hchanged.elim (· hstate) (· houtcome)
    ahead := hahead
    wakes := by
      intro thread notice hlatest wait hmem
      have hnotifies :
          ((new invocation).run schedule).shared.notifies (.advance thread) = true := by
        simp [Shared.notifies, hlatest, Stage.isNotice]
      simp only [step, hnotifies, if_true] at hmem
      rcases List.mem_map.1 hmem with ⟨old, _, rfl⟩
      exact old.watch_wake_ne
    rested := by
      intro hreturned wait hmem seen hasleep
      rw [Bool.eq_false_iff]
      intro hmet
      -- A notice would be that of a call, and there is none.
      rcases hahead wait hmem seen hasleep hmet with ⟨thread, notice, hlatest⟩
      rw [hreturned] at hlatest
      cases hlatest
    reached := by
      intro wait hmem wanted reply haim hdone hintime
      rcases (hkept wait hmem).done reply hdone hintime with ⟨early, hearlier, hmet, rfl⟩
      rw [haim] at hmet ⊢
      exact ⟨_, rfl, hmet, early, hearlier, rfl⟩
    exited := by
      intro wait hmem reply haim hdone hintime
      rcases (hkept wait hmem).done reply hdone hintime with ⟨early, hearlier, hmet, rfl⟩
      rw [haim] at hmet ⊢
      rcases Option.isSome_iff_exists.1 hmet with ⟨outcome, houtcome⟩
      exact ⟨outcome, by rw [Aim.reply, houtcome], early, hearlier, houtcome⟩ }

-- A wait has fallen asleep, and a mark is set and not announced yet.
example (invocation : Invocation) :
    let watched := (new invocation).run [.wait (.state (· = .scheduled)), .advance 0,
      .work (.call 0 .markScheduled), .work (.advance 0)]
    watched.waits.map Wait.watch = [.asleep (Worker.new invocation)] ∧
      watched.shared.stages = [.announce .scheduled] ∧
      (watched.run [.work (.advance 0), .advance 0]).waits.map Wait.watch =
        [.done (.state .scheduled)] :=
  ⟨rfl, rfl, rfl⟩

end Watched
end Worker
end NativeLaunch
