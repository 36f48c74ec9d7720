import NativeLaunch.Proofs.Adapter.WorkerSchedule

/-!
# One adapter, one worker, one launch

Several inits can find that there is no worker, and each then builds one of its own; a shutdown can
stop the worker before it is marked; and an executor can run the job before it answers.  Still one
worker is made, one job is submitted, and one launch is made of it, with the arguments that were
chosen last.  `Single` says so of one moment and all that follows it, and `single_launch` proves it
of every moment of every schedule.

What bounds the submissions is the worker: an init submits only what it has marked as scheduled, and
one call on a worker at most is told that it marked it.  `Ledger` follows this through the adapter,
each of its entries being kept by every step (`Stepped.ledger`).
-/

namespace NativeLaunch

namespace Adapter

/-! ## Arguments -/

def Setting.programName? : Setting → Option String
  | .programName name => some name
  | _ => none

def Setting.extraArguments? : Setting → Option (List String)
  | .extraArguments arguments => some arguments
  | _ => none

/-- The program name that was chosen last. -/
def lastProgramName (settings : List Setting) : String :=
  (settings.reverse.findSome? Setting.programName?).getD Invocation.defaultProgramName

def lastExtraArguments (settings : List Setting) : List String :=
  (settings.reverse.findSome? Setting.extraArguments?).getD []

theorem lastProgramName_concat (settings : List Setting) (last : Setting) :
    lastProgramName (settings ++ [last]) = last.programName?.getD (lastProgramName settings) := by
  rw [lastProgramName, List.reverse_append, List.reverse_singleton, List.singleton_append,
    List.findSome?_cons]
  cases last <;> rfl

theorem lastExtraArguments_concat (settings : List Setting) (last : Setting) :
    lastExtraArguments (settings ++ [last]) =
      last.extraArguments?.getD (lastExtraArguments settings) := by
  rw [lastExtraArguments, List.reverse_append, List.reverse_singleton, List.singleton_append,
    List.findSome?_cons]
  cases last <;> rfl

theorem configured_concat (host : PluginHost) (settings : List Setting) (last : Setting) :
    configured host (settings ++ [last]) = configure (configured host settings) last := by
  rw [configured, List.foldl_append]
  rfl

/-- A choice replaces an earlier one of its kind and leaves all else alone. -/
theorem configured_eq (host : PluginHost) (settings : List Setting) :
    configured host settings =
      { host := host
        programName := lastProgramName settings
        extraArguments := lastExtraArguments settings } := by
  induction settings using List.reverseRecOn with
  | nil =>
      rfl
  | append_singleton settings last ih =>
      rw [configured_concat, ih, lastProgramName_concat, lastExtraArguments_concat]
      cases last <;> rfl

theorem arguments_configured (host : PluginHost) (settings : List Setting) :
    (configured host settings).invocation.arguments =
      lastProgramName settings :: "--config" ::
        (host.dataDirectory.join (.ofString Invocation.configFileName)).display ::
          lastExtraArguments settings := by
  rw [configured_eq]
  rfl

/-! ## What is counted -/

namespace Cells

@[simp] theorem isSome_work (cells : Cells) (turn : Worker.Turn) :
    (cells.work turn).adapter.worker.isSome = cells.adapter.worker.isSome := by
  cases hworker : cells.adapter.worker with
  | none =>
      rw [work_of_none hworker, hworker]
  | some worker =>
      have hshared : cells.shared? = some ⟨worker, cells.calls, cells.past⟩ := by
        simp [shared?, hworker]
      rw [work_of_shared? hshared]
      rfl

/-- What has happened on the worker did so on a schedule of its own. -/
theorem Lawful.exists_past {arguments : Invocation} {cells : Cells} (h : Lawful arguments cells) :
    ∃ schedule, cells.past = ((Worker.Shared.new arguments).run schedule).past := by
  cases hshared : cells.shared? with
  | none =>
      exact ⟨[], (h.fresh ((shared?_eq_none_iff cells).1 hshared)).2⟩
  | some shared =>
      rcases h.reachable shared hshared with ⟨schedule, hschedule⟩
      exact ⟨schedule, by rw [← hschedule, past_of_shared? hshared]⟩

end Cells

/-- What a step adds to the events and to the jobs, and what pays for it. -/
structure Stage.Pays (cells : Cells) (stage : Stage) (progress : Progress) : Prop where
  makings :
    progress.cells.adapter.worker.isSome.toNat =
      cells.adapter.worker.isSome.toNat + progress.events.countP Event.isMaking
  submissions :
    progress.next.toList.countP (· = .submit) + progress.events.countP Event.isSubmission +
        cells.past.countP Worker.Event.isMarked ≤
      [stage].countP (· = .submit) + progress.cells.past.countP Worker.Event.isMarked
  jobs : progress.cells.jobs = cells.jobs + progress.events.countP Event.isSubmission
  starts : progress.events.countP Event.isStart = 0

/-- When a call has heard of a schedule mark that succeeded, the events on the worker hold one
successful mark more than before its step. -/
theorem Cells.marked_lt_work {cells : Cells} {thread : Nat}
    (h : cells.heard thread = some (.marked (.ok ()))) :
    cells.past.countP Worker.Event.isMarked <
      (cells.work (.advance thread)).past.countP Worker.Event.isMarked := by
  rcases returned_of_heard h with ⟨actor, events, hpast, hmem⟩
  have hnew : 0 < events.countP Worker.Event.isMarked :=
    List.countP_pos_iff.2 ⟨_, hmem, rfl⟩
  rw [hpast, List.countP_append]
  omega

theorem Stage.Takes.pays {thread : Nat} {cells : Cells} {stage : Stage} {progress : Progress}
    (h : stage.Takes thread cells progress) : stage.Pays cells progress := by
  have hmore : ∀ turn, cells.past.countP Worker.Event.isMarked ≤
      (cells.work turn).past.countP Worker.Event.isMarked := by
    intro turn
    exact cells.countP_past_le_work turn _
  cases h with
  -- The worker that is made had no past of its own.
  | make hempty =>
      refine ⟨?_, ?_, ?_, rfl⟩
      · simp [makeWorker, hempty, Event.isMaking]
      · simpa [Event.isSubmission] using
          Cells.countP_past_le_work { cells with adapter := cells.adapter.makeWorker.2 }
            (.call thread .markScheduled) Worker.Event.isMarked
      · simp [Event.isSubmission]
  -- A submission is paid for when the worker answers that it was marked.
  | marked hheard =>
      have hone := Cells.marked_lt_work hheard
      refine ⟨?_, ?_, ?_, rfl⟩
      · simp
      · simp
        omega
      · simp
  | submit =>
      exact ⟨rfl, by simp [Event.isSubmission, Cells.handJob], rfl, rfl⟩
  | prepared made =>
      cases made <;> exact ⟨rfl, by simp [Adapter.prepared, returns, Event.isSubmission], rfl, rfl⟩
  | _ =>
      refine ⟨?_, ?_, ?_, rfl⟩
      · simp [returns, answered, Cells.setTask, Event.isMaking]
      · simp [returns, answered, Cells.setTask, Event.isSubmission, hmore]
      · simp [returns, answered, Cells.setTask, Event.isSubmission]

namespace Hosted

/-! ## Over whole schedules -/

/-- What pays for what, in an adapter that was new. -/
structure Ledger (hosted : Hosted) : Prop where
  makings :
    hosted.tally Event.isMaking = hosted.cells.adapter.worker.isSome.toNat
  submissions :
    hosted.stages.countP (· = .submit) + hosted.tally Event.isSubmission ≤
      hosted.cells.past.countP Worker.Event.isMarked
  jobs : hosted.tally Event.isStart + hosted.cells.jobs ≤ hosted.tally Event.isSubmission
  runs : hosted.cells.past.countP Worker.Event.isRunCall ≤ hosted.tally Event.isStart

theorem Stepped.ledger {before after : Hosted} (h : Stepped before after)
    (hbefore : Ledger before) : Ledger after := by
  have hmakings := hbefore.makings
  have hsubmissions := hbefore.submissions
  have hjobs := hbefore.jobs
  have hruns := hbefore.runs
  cases h with
  | idle =>
      exact hbefore
  | called thread call =>
      have hfirst : call.first ≠ .submit := by cases call <;> simp [Call.first]
      refine ⟨?_, ?_, ?_, ?_⟩
      · simpa [tally, Event.isMaking] using hmakings
      · simpa [tally, stages, Event.isSubmission, hfirst] using hsubmissions
      · simpa [tally, Event.isStart, Event.isSubmission] using hjobs
      · simpa [tally, Event.isStart] using hruns
  | started thread hhanded =>
      have hmarked := before.cells.countP_past_le_work (.call thread .run) Worker.Event.isMarked
      have hrun := before.cells.runCalls_work (.call thread .run)
      rw [Cells.work_takeJob]
      refine ⟨?_, ?_, ?_, ?_⟩
      · simpa [tally, Event.isMaking] using hmakings
      · simp [tally, stages, Event.isSubmission] at hsubmissions ⊢
        omega
      · simp [tally, List.countP_cons, Event.isStart, Event.isSubmission] at hjobs ⊢
        omega
      · simp [tally, List.countP_cons, Event.isStart, Worker.Turn.startsRun] at hruns hrun ⊢
        omega
  | dropped hhanded =>
      refine ⟨?_, ?_, ?_, ?_⟩
      · simpa [tally, Event.isMaking] using hmakings
      · simpa [tally, stages, Event.isSubmission] using hsubmissions
      · simp [tally, Event.isStart, Event.isSubmission] at hjobs ⊢
        omega
      · simpa [tally, Event.isStart] using hruns
  | proceeded thread stage progress rest hperm htakes =>
      have hpays := htakes.pays
      have hstages : before.stages.countP (· = .submit) =
          [stage].countP (· = .submit) + (rest.map Prod.snd).countP (· = .submit) := by
        rw [stages, (hperm.map Prod.snd).countP_eq, List.map_cons, ← List.singleton_append,
          List.countP_append]
      have hafter : ((progress.next.toList.map (Prod.mk thread) ++ rest).map Prod.snd).countP
          (· = .submit) =
            progress.next.toList.countP (· = .submit) +
              (rest.map Prod.snd).countP (· = .submit) := by
        simp [Function.comp_def]
      have hrun := htakes.worked.runCalls
      have hpaidMakings := hpays.makings
      have hpaidSubmissions := hpays.submissions
      have hpaidJobs := hpays.jobs
      have hpaidStarts := hpays.starts
      rw [Bool.toNat_false] at hrun
      refine ⟨?_, ?_, ?_, ?_⟩
      · simp only [tally, List.countP_append] at hmakings ⊢
        omega
      · rw [hstages] at hsubmissions
        rw [stages, hafter]
        simp only [tally, List.countP_append] at hsubmissions ⊢
        omega
      · simp only [tally, List.countP_append] at hjobs ⊢
        omega
      · simp only [tally, List.countP_append] at hruns ⊢
        omega

theorem ledger (host : PluginHost) (settings : List Setting) (schedule : List Turn) :
    Ledger ((new host settings).run schedule) := by
  refine run_induction host settings ?_ ?_ schedule
  · refine ⟨?_, Nat.le_refl 0, Nat.le_refl 0, Nat.le_refl 0⟩
    simp [new, tally, worker_configured]
  · intro before after hstep hbefore
    exact hstep.ledger hbefore

/-! ## One of each -/

/-- What an adapter makes, submits and launches, and with what arguments. -/
structure Single (host : PluginHost) (settings : List Setting) (hosted : Hosted) : Prop where
  submitted : hosted.tally Event.isSubmission ≤ 1
  -- A launch is made by a job that was started, and a job that is started was submitted.
  started : hosted.tally Event.isStart ≤ hosted.tally Event.isSubmission
  entered : hosted.cells.past.countP Worker.Event.isEntry ≤ hosted.tally Event.isStart
  -- One worker is made, and it stays, with its arguments, whatever follows.
  made : hosted.tally Event.isMaking = hosted.cells.adapter.worker.isSome.toNat
  kept : ∀ shared, hosted.cells.shared? = some shared → ∀ later, ∃ turns,
    (hosted.run later).cells.shared? = some (shared.run turns) ∧
      (shared.run turns).worker.invocation = shared.worker.invocation
  arguments : ∀ thread invocation, .entered thread invocation ∈ hosted.cells.past →
    invocation.arguments =
      lastProgramName settings :: "--config" ::
        (host.dataDirectory.join (.ofString "server.toml")).display :: lastExtraArguments settings

/-- In every reachable state, there is one worker at most, which has kept its arguments; one job at
most was submitted, and one launch at most was made, with the arguments chosen last. -/
theorem single_launch (host : PluginHost) (settings : List Setting) (schedule : List Turn) :
    Single host settings ((new host settings).run schedule) := by
  have hlawful := lawful host settings schedule
  have hledger := ledger host settings schedule
  rcases hlawful.exists_past with ⟨turns, hpast⟩
  have haccounts := Worker.accounts (configured host settings).invocation turns
  refine ⟨?_, ?_, ?_, hledger.makings, ?_, ?_⟩
  · have hmarked := haccounts.marked_le_one
    rw [Worker.Shared.tally, ← hpast] at hmarked
    have hsubmissions := hledger.submissions
    omega
  · have hjobs := hledger.jobs
    omega
  · have hentries := haccounts.entries_le_wins
    have hwins := Worker.Shared.wins_le_runCalls (configured host settings).invocation turns
    rw [Worker.Shared.tally, Worker.Shared.tally] at hentries hwins
    rw [← hpast] at hentries hwins
    have hruns := hledger.runs
    omega
  · intro shared hshared later
    rcases exists_run_of_shared? hshared later with ⟨more, hmore⟩
    refine ⟨more, hmore, ?_⟩
    rcases hlawful.reachable shared hshared with ⟨earlier, rfl⟩
    rw [← Worker.Shared.run_append, Worker.Shared.invocation_run, Worker.Shared.invocation_run]
  · intro thread invocation hentered
    rw [hpast] at hentered
    rw [Worker.Shared.invocation_of_entered hentered, arguments_configured]
    rfl

end Hosted
end Adapter
end NativeLaunch
