import NativeLaunch.Proofs.Adapter.WorkerSchedule
import NativeLaunch.Proofs.Worker.Commitment

/-!
# Shutdowns that are heeded

A shutdown that returns before the worker has been running should keep it from ever running.  It
does so by stopping the worker, and a worker that is stopped stays so, whatever inits and jobs come
later.  But it can only stop what there is: an init makes the worker after it has looked for one and
seen to the data directory, and a shutdown that looks before that leaves no trace.  This file
defines:

* `StopsHeeded` — what a host relies on, over one schedule;
* `Overlooked` — a shutdown found no worker, and a launch came after it.

The two exclude each other, and there is no third (`stopsHeeded_iff`).
-/

namespace NativeLaunch
namespace Adapter

/-! ## What shutdowns found -/

/-- A shutdown has found a worker and stopped it, or found none, and is not over. -/
def Stage.tells (found : Bool) : Stage → Bool
  | .take told => told = found
  | .cancel told => told = found
  | .release told => told = found
  | _ => false

def Event.tells (found : Bool) : Event → Bool
  | .returned _ (.shutDown told) => told = found
  | _ => false

namespace Cells

theorem exists_shared_of_stopped {cells : Cells} (h : cells.adapter.state = .stopped) :
    ∃ shared, cells.shared? = some shared ∧ shared.worker.state = .stopped := by
  cases hworker : cells.adapter.worker with
  | none =>
      simp [state, hworker] at h
  | some worker =>
      exact ⟨⟨worker, cells.calls, cells.past⟩, by simp [shared?, hworker],
        by simpa [state, hworker] using h⟩

theorem stopped_of_shared? {cells : Cells} {shared : Worker.Shared}
    (h : cells.shared? = some shared) (hstopped : shared.worker.state = .stopped) :
    cells.adapter.state = .stopped := by
  rcases Option.map_eq_some_iff.1 h with ⟨worker, hworker, rfl⟩
  simpa [state, hworker] using hstopped

/-- Nothing that a step can do starts a stopped worker again. -/
theorem Worked.stopped {before after : Cells} {starts : Bool} (h : Worked before after starts)
    (hstopped : before.adapter.state = .stopped) : after.adapter.state = .stopped := by
  rcases exists_shared_of_stopped hstopped with ⟨shared, hshared, hstate⟩
  rcases h.exists_run hshared with ⟨turns, hturns⟩
  exact stopped_of_shared? hturns (Worker.Shared.stopped_run hstate turns)

/-- A stop that has been answered left the worker stopped. -/
theorem Lawful.stopped_of_reported {arguments : Invocation} {cells : Cells}
    (h : Lawful arguments cells) {thread : Nat} {report : StopReport}
    (hreported : .returned thread (.stopped report) ∈ cells.past) :
    cells.adapter.state = .stopped := by
  cases hshared : cells.shared? with
  | none =>
      rw [(h.fresh ((shared?_eq_none_iff cells).1 hshared)).2] at hreported
      cases hreported
  | some shared =>
      rw [← past_of_shared? hshared] at hreported
      rcases h.reachable shared hshared with ⟨schedule, rfl⟩
      exact stopped_of_shared? hshared (Worker.Shared.stopped_of_reported hreported)

end Cells

/-- A step comes to tell of a worker when the stop was answered, and of none when there was none. -/
theorem Stage.Takes.told {thread : Nat} {cells : Cells} {stage : Stage} {progress : Progress}
    {found : Bool} (h : stage.Takes thread cells progress) (hnot : stage.tells found = false)
    (htells : (∃ next, progress.next = some next ∧ next.tells found = true) ∨
      ∃ event ∈ progress.events, event.tells found = true) :
    (found = true ∧ progress.cells = cells.work (.advance thread) ∧
      ∃ report, cells.heard thread = some (.stopped report)) ∨
        found = false ∧ cells.adapter.worker = none ∧ stage = .check := by
  cases h with
  | stopped report hheard =>
      have hfound : found = true := by simpa [tells] using htells
      exact .inl ⟨hfound, rfl, report, hheard⟩
  | check hempty =>
      have hfound : found = false := by simpa [tells] using htells
      exact .inr ⟨hfound, hempty, rfl⟩
  | prepared made =>
      cases made <;> simp [Adapter.prepared, returns, Event.tells, tells] at htells
  | _ =>
      simp_all [returns, answered, Event.tells, tells]

namespace Hosted

/-- Some shutdown found a worker, or found none. -/
def Tells (found : Bool) (hosted : Hosted) : Prop :=
  (∃ stage ∈ hosted.stages, stage.tells found = true) ∨
    ∃ event ∈ hosted.past, event.tells found = true

/-- Only a step of a call that did not tell so before comes to tell. -/
theorem Stepped.told {before after : Hosted} {found : Bool} (h : Stepped before after)
    (htells : Tells found after) (hnot : ¬ Tells found before) :
    ∃ thread stage progress, stage ∈ before.stages ∧ stage.tells found = false ∧
      stage.Takes thread before.cells progress ∧ after.cells = progress.cells ∧
        ((∃ next, progress.next = some next ∧ next.tells found = true) ∨
          ∃ event ∈ progress.events, event.tells found = true) := by
  cases h with
  | idle =>
      exact absurd htells hnot
  | called thread call =>
      refine absurd ?_ hnot
      cases call <;> simpa [Tells, stages, Call.first, Stage.tells, Event.tells] using htells
  | started thread _ =>
      refine absurd ?_ hnot
      simpa [Tells, stages, Stage.tells, Event.tells] using htells
  | dropped _ =>
      refine absurd ?_ hnot
      simpa [Tells, stages, Event.tells] using htells
  | proceeded thread stage progress rest hperm htakes =>
      have hstages : ∀ other,
          other ∈ before.stages ↔ other = stage ∨ other ∈ rest.map Prod.snd := by
        intro other
        rw [stages, (hperm.map Prod.snd).mem_iff, List.map_cons, List.mem_cons]
      have hstage : stage.tells found = false := by
        by_contra htold
        exact hnot (.inl ⟨stage, (hstages stage).2 (.inl rfl), by simpa using htold⟩)
      refine ⟨thread, stage, progress, (hstages stage).2 (.inl rfl), hstage, htakes, rfl, ?_⟩
      rcases htells with ⟨other, hmem, hother⟩ | ⟨event, hmem, hevent⟩
      · rw [stages, List.map_append, List.mem_append] at hmem
        rcases hmem with hnext | hrest
        · exact .inl ⟨other, by simpa using hnext, hother⟩
        · exact absurd (.inl ⟨other, (hstages other).2 (.inr hrest), hother⟩) hnot
      · rcases List.mem_append.1 hmem with hnew | hold
        · exact .inr ⟨event, hnew, hevent⟩
        · exact absurd (.inr ⟨event, hold, hevent⟩) hnot

section Told

variable (host : PluginHost) (settings : List Setting) (schedule : List Turn)

/-- Whenever a shutdown has found a worker, the worker is stopped. -/
theorem stopped_of_tells :
    Tells true ((new host settings).run schedule) →
      ((new host settings).run schedule).cells.adapter.state = .stopped := by
  induction schedule using List.reverseRecOn with
  | nil =>
      rintro (⟨stage, hmem, _⟩ | ⟨event, hmem, _⟩) <;> cases hmem
  | append_singleton schedule last ih =>
      rw [run_concat]
      intro htells
      have hstep := stepped ((new host settings).run schedule) last
      by_cases hbefore : Tells true ((new host settings).run schedule)
      · rcases hstep.worked with ⟨starts, hworked⟩
        exact hworked.stopped (ih hbefore)
      · rcases hstep.told htells hbefore with
          ⟨thread, stage, progress, _, hstage, htakes, hcells, hsays⟩
        rcases htakes.told hstage hsays with ⟨_, hwork, report, hheard⟩ | ⟨hfound, _⟩
        -- The worker has just answered the stop.
        · rcases Cells.returned_of_heard hheard with ⟨actor, events, hpast, hmem⟩
          rw [hcells, hwork]
          apply ((lawful host settings schedule).work (.advance thread)).stopped_of_reported
          rw [hpast]
          exact List.mem_append_left _ hmem
        · cases hfound

/-- Whenever a shutdown has found none, there was none when it looked. -/
theorem exists_unmade_of_tells :
    Tells false ((new host settings).run schedule) →
      ∃ early, early <+: schedule ∧
        ((new host settings).run early).cells.adapter.worker = none ∧
          .check ∈ ((new host settings).run early).stages := by
  induction schedule using List.reverseRecOn with
  | nil =>
      rintro (⟨stage, hmem, _⟩ | ⟨event, hmem, _⟩) <;> cases hmem
  | append_singleton schedule last ih =>
      rw [run_concat]
      intro htells
      by_cases hbefore : Tells false ((new host settings).run schedule)
      · rcases ih hbefore with ⟨early, hearlier, hrest⟩
        exact ⟨early, hearlier.trans (List.prefix_append _ _), hrest⟩
      · rcases (stepped ((new host settings).run schedule) last).told htells hbefore with
          ⟨thread, stage, progress, hmem, hstage, htakes, _, hsays⟩
        rcases htakes.told hstage hsays with ⟨hfound, _⟩ | ⟨_, hempty, rfl⟩
        · cases hfound
        · exact ⟨schedule, List.prefix_append _ _, hempty, hmem⟩

end Told

/-! ## What a host relies on -/

/-- The worker, if there is one, has been running. -/
def Reached (hosted : Hosted) : Prop :=
  ∃ shared, hosted.cells.shared? = some shared ∧ .running ∈ shared.trail

/-- How often the launcher was entered. -/
def entries (hosted : Hosted) : Nat := hosted.cells.past.countP Worker.Event.isEntry

/-- After a shutdown that returned before the worker was running, the launcher is never entered. -/
def StopsHeeded (host : PluginHost) (settings : List Setting) (schedule : List Turn) : Prop :=
  ∀ early thread found, early <+: schedule →
    .returned thread (.shutDown found) ∈ ((new host settings).run early).past →
      ¬ Reached ((new host settings).run early) → ((new host settings).run schedule).entries = 0

/-- A shutdown returned before the worker was running without having found one, and still the
launcher was entered. -/
def Overlooked (host : PluginHost) (settings : List Setting) (schedule : List Turn) : Prop :=
  ∃ early thread, early <+: schedule ∧
    .returned thread (.shutDown false) ∈ ((new host settings).run early).past ∧
      ¬ Reached ((new host settings).run early) ∧ 0 < ((new host settings).run schedule).entries

/-- What overlooked it was a look before the worker was made. -/
theorem Overlooked.exists_unmade {host : PluginHost} {settings : List Setting}
    {schedule : List Turn} (h : Overlooked host settings schedule) :
    ∃ early, early <+: schedule ∧ ((new host settings).run early).cells.adapter.worker = none ∧
      .check ∈ ((new host settings).run early).stages := by
  rcases h with ⟨early, thread, hearlier, hreturned, _⟩
  rcases exists_unmade_of_tells host settings early (.inr ⟨_, hreturned, rfl⟩) with
    ⟨before, hbefore, hrest⟩
  exact ⟨before, hbefore.trans hearlier, hrest⟩

/-- A stopped worker that has not been running never enters the launcher. -/
theorem entries_of_stopped {host : PluginHost} {settings : List Setting}
    {early schedule : List Turn} (hearlier : early <+: schedule)
    (hstopped : ((new host settings).run early).cells.adapter.state = .stopped)
    (hnever : ¬ Reached ((new host settings).run early)) :
    ((new host settings).run schedule).entries = 0 := by
  rcases hearlier with ⟨later, rfl⟩
  rcases Cells.exists_shared_of_stopped hstopped with ⟨shared, hshared, hstate⟩
  rcases (lawful host settings early).reachable shared hshared with ⟨earlier, rfl⟩
  rcases exists_run_of_shared? hshared later with ⟨turns, hturns⟩
  have hwins : ((Worker.Shared.new (configured host settings).invocation).run earlier).tally
      Worker.Event.isWin = 0 := by
    by_contra hwon
    exact hnever ⟨_, hshared, Worker.Shared.running_mem_trail_iff.2 (Nat.pos_of_ne_zero hwon)⟩
  have hkept := Worker.Shared.wins_of_stopped hstate turns
  have hentries := (Worker.accounts (configured host settings).invocation
    (earlier ++ turns)).entries_le_wins
  rw [Worker.Shared.run_append] at hentries
  rw [run_append, entries, ← Cells.past_of_shared? hturns]
  unfold Worker.Shared.tally at *
  omega

/-- Shutdowns are heeded over all schedules but those over which one found no worker, and a launch
came after it. -/
theorem stopsHeeded_iff (host : PluginHost) (settings : List Setting) (schedule : List Turn) :
    StopsHeeded host settings schedule ↔ ¬ Overlooked host settings schedule := by
  constructor
  · rintro hheeded ⟨early, thread, hearlier, hreturned, hnever, hentered⟩
    have hnone := hheeded early thread false hearlier hreturned hnever
    omega
  · intro hclear early thread found hearlier hreturned hnever
    cases found with
    | false =>
        by_contra hentered
        exact hclear ⟨early, thread, hearlier, hreturned, hnever, Nat.pos_of_ne_zero hentered⟩
    | true =>
        exact entries_of_stopped hearlier
          (stopped_of_tells host settings early (.inr ⟨_, hreturned, rfl⟩)) hnever

def idleShutdown (thread : Nat) : List Turn :=
  .call thread .shutdown :: List.replicate 3 (.advance thread)

/-- An init that has looked for a worker goes on, and the job that it submits is run. -/
def launchedInit : List Turn :=
  .prepared 0 true :: List.replicate 4 (.advance 0) ++
    [.answered 0 (.accepted false), .advance 0, .start 1] ++ List.replicate 5 (.advance 1)

/-- A shutdown is overlooked if it comes before the init, or while the init sees to the data
directory. -/
theorem overlooked_idleShutdown :
    ¬ StopsHeeded ⟨"proxy", .ofString "data"⟩ []
        (idleShutdown 0 ++ [.call 0 .init, .advance 0] ++ launchedInit) ∧
      ¬ StopsHeeded ⟨"proxy", .ofString "data"⟩ []
        ([.call 0 .init, .advance 0] ++ idleShutdown 1 ++ launchedInit) := by
  have hnever : ∀ {hosted : Hosted}, hosted.cells.shared? = none → ¬ Reached hosted := by
    rintro hosted hnone ⟨shared, hshared, _⟩
    rw [hnone] at hshared
    cases hshared
  constructor
  · intro hheeded
    have hnone := hheeded (idleShutdown 0) 0 false ⟨_, List.append_assoc _ _ _ |>.symm⟩
      (.head _) (hnever rfl)
    cases hnone
  · intro hheeded
    have hnone := hheeded ([.call 0 .init, .advance 0] ++ idleShutdown 1) 1 false
      (List.prefix_append _ _) (.head _) (hnever rfl)
    cases hnone

end Hosted
end Adapter
end NativeLaunch
