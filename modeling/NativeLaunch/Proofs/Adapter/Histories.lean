import NativeLaunch.Proofs.Adapter.Alone

/-!
# Histories of one plugin

A host delivers its events one after the other, and its executor runs or forgets the job between any two
of them.  Meanwhile others change the files, and the executor comes to treat jobs in another way.  What
the inits were answered is put down, and so is what the executor answered them.  This file defines:

* `Happening` — what the host, its executor or others do;
* `Logged` and `Logged.run` — a plugin with what was put down, and whole histories;
* `Reports` — what a host may conclude from the answers.

A host that is told that an init has succeeded may conclude that the executor took the job, unless it
was told by an earlier init that the executor refused it: the worker of that init is never replaced, and
every later one is ignored like any repeated init (`reports_run`).
-/

namespace NativeLaunch
namespace Plugin

open Adapter.Hosted

variable {Held : Type} (launcher : Launcher Held)

/-- What the host and its executor do, and what others do. -/
inductive Happening
  | occurs (occurrence : Occurrence)
  /-- Others have changed the files, and the executor has come to treat jobs in another way. -/
  | outside (world : World) (answer : Submission) (runsInline : Bool)

/-- What is put down: what the executor answered, and what an init did. -/
inductive Entry
  | submitted (answer : Submission)
  | initialized (result : Except InitFault Unit)

/-- A plugin with what was put down, the latest first. -/
structure Logged (Held : Type) where
  plugin : Plugin Held
  log : List Entry

/-- A plugin of which nothing was put down so far. -/
def logged (plugin : Plugin Held) : Logged Held := ⟨plugin, []⟩

/-- What an occurrence adds: an answer for each job that was submitted in it, and then that of the
init. -/
def entries (plugin : Plugin Held) (occurrence : Occurrence) : List Entry :=
  (match occurrence with
    | .init => [.initialized (plugin.init launcher).1]
    | _ => []) ++
  List.replicate
    ((occur launcher plugin occurrence).executor.submissions - plugin.executor.submissions)
    (.submitted plugin.executor.answer)

namespace Logged

def step (logged : Logged Held) : Happening → Logged Held
  | .occurs occurrence =>
    { plugin := occur launcher logged.plugin occurrence
      log := entries launcher logged.plugin occurrence ++ logged.log }
  | .outside world answer runsInline =>
    { logged with plugin :=
      { logged.plugin with
        executor := { logged.plugin.executor with answer := answer, runsInline := runsInline }
        world := world } }

/-- What a history does. -/
def run (logged : Logged Held) (history : List Happening) : Logged Held :=
  history.foldl (step launcher) logged

@[simp] theorem run_nil (logged : Logged Held) : logged.run launcher [] = logged := rfl

theorem run_concat (logged : Logged Held) (history : List Happening) (happening : Happening) :
    logged.run launcher (history ++ [happening]) =
      (logged.run launcher history).step launcher happening := by
  simp [run]

/-- What was put down before has no influence. -/
theorem run_log (plugin : Plugin Held) (log : List Entry) (history : List Happening) :
    (Logged.mk plugin log).run launcher history =
      { plugin := (plugin.logged.run launcher history).plugin
        log := (plugin.logged.run launcher history).log ++ log } := by
  induction history using List.reverseRecOn with
  | nil =>
      rfl
  | append_singleton history last ih =>
      rw [run_concat, run_concat, ih]
      cases last <;> simp [step]

end Logged

/-! ## One happening -/

/-- Only an init makes a worker, and only an init submits a job. -/
theorem occur_keeps (plugin : Plugin Held) {occurrence : Occurrence} (hother : occurrence ≠ .init) :
    (occur launcher plugin occurrence).adapter.worker.isSome = plugin.adapter.worker.isSome ∧
      (occur launcher plugin occurrence).executor.submissions = plugin.executor.submissions := by
  cases occurrence with
  | init =>
      exact absurd rfl hother
  | shutdown =>
      simp only [occur, shutdown, releaseArtifacts, cancelTask]
      split <;> simp [updateWorker, Adapter.updateWorker, Executor.cancel]
  | runJob =>
      have hworks := works_runJob launcher plugin
      rw [dropJob_eq] at hworks
      exact ⟨hworks.isSome_worker, by rw [occur, hworks.executor]⟩
  | dropJob =>
      rw [occur, dropJob_eq]
      exact ⟨rfl, rfl⟩
  | complete status =>
      simp only [occur, complete]
      split <;> simp [updateWorker, Adapter.updateWorker]

/-- The ways in which a happening changes whether there is a worker, and what it puts down. -/
inductive Steps (before after : Logged Held) : Prop
  | quiet
      (worker : after.plugin.adapter.worker.isSome = before.plugin.adapter.worker.isSome)
      (log : after.log = before.log)
  | ignored (found : before.plugin.adapter.worker.isSome = true)
      (worker : after.plugin.adapter.worker.isSome = true)
      (log : after.log = .initialized (.ok ()) :: before.log)
  | unprepared (path : Path) (empty : before.plugin.adapter.worker.isSome = false)
      (worker : after.plugin.adapter.worker.isSome = false)
      (log : after.log = .initialized (.error (.dataDirectory path)) :: before.log)
  | accepted (task : Bool) (empty : before.plugin.adapter.worker.isSome = false)
      (worker : after.plugin.adapter.worker.isSome = true)
      (log : after.log =
        .initialized (.ok ()) :: .submitted (.accepted task) :: before.log)
  | refused (reason : String) (empty : before.plugin.adapter.worker.isSome = false)
      (worker : after.plugin.adapter.worker.isSome = true)
      (log : after.log =
        .initialized (.error (.executor reason)) :: .submitted (.refused reason) :: before.log)

theorem steps_init {before after : Logged Held} {result : Except InitFault Unit}
    (h : Inits launcher before.plugin result after.plugin)
    (hlog : after.log =
      .initialized result ::
        List.replicate (after.plugin.executor.submissions - before.plugin.executor.submissions)
          (.submitted before.plugin.executor.answer) ++ before.log) : Steps before after := by
  rcases after with ⟨plugin, log⟩
  -- What was submitted is known by the count.
  have hsubmitted : ∀ {made submitted}, Submits launcher (before.plugin.readied made) submitted →
      submitted.adapter.worker.isSome = true ∧
        submitted.executor.submissions - before.plugin.executor.submissions = 1 := by
    intro made submitted hsubmits
    rcases hsubmits.executor with ⟨queued, hexecutor⟩
    refine ⟨hsubmits.isSome_worker, ?_⟩
    simp [hexecutor, readied]
  cases h with
  | ignored worker hfound =>
      refine .ignored ?_ ?_ ?_
      · rw [hfound]
        rfl
      · simp [hfound]
      · simpa using hlog
  | unprepared left hempty _ =>
      refine .unprepared before.plugin.adapter.host.dataDirectory ?_ ?_ ?_
      · simp [hempty]
      · simp [hempty]
      · simpa using hlog
  | accepted made submitted task hempty _ hsubmits hanswers =>
      rcases hsubmitted hsubmits with ⟨hmade, hone⟩
      refine .accepted task ?_ hmade ?_
      · simp [hempty]
      · simpa [hone, hanswers] using hlog
  | refused made submitted reason hempty _ hsubmits hanswers =>
      rcases hsubmitted hsubmits with ⟨hmade, hone⟩
      refine .refused reason ?_ ?_ ?_
      · simp [hempty]
      · simpa [updateWorker, Adapter.updateWorker] using hmade
      · simpa [updateWorker, hone, hanswers] using hlog

theorem steps (before : Logged Held) (happening : Happening) :
    Steps before (before.step launcher happening) := by
  cases happening with
  | outside world answer runsInline =>
      exact .quiet rfl rfl
  | occurs occurrence =>
      by_cases hinit : occurrence = .init
      · subst hinit
        exact steps_init launcher (inits launcher before.plugin) rfl
      · rcases occur_keeps launcher before.plugin hinit with ⟨hworker, hsubmissions⟩
        refine .quiet hworker ?_
        simp [Logged.step, entries, hsubmissions]

/-! ## What the answers say -/

/-- The executor took a job. -/
def Handed (log : List Entry) : Prop := ∃ task, .submitted (.accepted task) ∈ log

/-- An init failed because the executor refused its job. -/
def TurnedDown (log : List Entry) : Prop := ∃ reason, .initialized (.error (.executor reason)) ∈ log

/-- What a host may conclude from the answers. -/
structure Reports (log : List Entry) : Prop where
  /-- An init that succeeds says that the job was taken, unless an earlier one said that it was refused. -/
  handed : ∀ newer older, log = newer ++ .initialized (.ok ()) :: older →
    (Handed older ↔ ¬ TurnedDown older)
  /-- Once an init has said so, nothing is submitted any more, and every init succeeds. -/
  ignored : ∀ newer older, log = newer ++ older → TurnedDown older →
    ∀ entry ∈ newer, entry = .initialized (.ok ())

variable {log : List Entry} {entry : Entry}

@[simp] theorem handed_cons :
    Handed (entry :: log) ↔ (∃ task, entry = .submitted (.accepted task)) ∨ Handed log := by
  simp [Handed, eq_comm, exists_or]

@[simp] theorem turnedDown_cons :
    TurnedDown (entry :: log) ↔
      (∃ reason, entry = .initialized (.error (.executor reason))) ∨ TurnedDown log := by
  simp [TurnedDown, eq_comm, exists_or]

theorem TurnedDown.append {newer : List Entry} (h : TurnedDown log) : TurnedDown (newer ++ log) := by
  rcases h with ⟨reason, hmem⟩
  exact ⟨reason, List.mem_append_right _ hmem⟩

theorem Reports.cons (h : Reports log)
    (hsucceeds : entry = .initialized (.ok ()) → (Handed log ↔ ¬ TurnedDown log))
    (hrefused : TurnedDown log → entry = .initialized (.ok ())) : Reports (entry :: log) := by
  refine ⟨?_, ?_⟩
  · intro newer older hsplit
    cases newer with
    | nil =>
        cases hsplit
        exact hsucceeds rfl
    | cons first newer =>
        cases hsplit
        exact h.handed newer older rfl
  · intro newer older hsplit hdown
    cases newer with
    | nil =>
        nofun
    | cons first newer =>
        cases hsplit
        intro entry hmem
        rcases List.mem_cons.1 hmem with rfl | hmem
        · exact hrefused hdown.append
        · exact h.ignored newer older rfl hdown entry hmem

/-- What is put down says whether there is a worker. -/
structure Kept (logged : Logged Held) : Prop where
  unmade : logged.plugin.adapter.worker.isSome = false →
    ¬ Handed logged.log ∧ ¬ TurnedDown logged.log
  made : logged.plugin.adapter.worker.isSome = true →
    (Handed logged.log ↔ ¬ TurnedDown logged.log)
  reported : Reports logged.log

theorem kept_logged {plugin : Plugin Held} (hempty : plugin.adapter.worker = none) :
    Kept plugin.logged := by
  refine ⟨?_, ?_, ?_, ?_⟩ <;> simp [logged, Handed, TurnedDown, hempty]

theorem Steps.kept {before after : Logged Held} (h : Steps before after) (hbefore : Kept before) :
    Kept after := by
  rcases after with ⟨plugin, log⟩
  cases h with
  | quiet hworker hlog =>
      cases hlog
      exact ⟨fun hempty => hbefore.unmade (hworker ▸ hempty),
        fun hmade => hbefore.made (hworker ▸ hmade), hbefore.reported⟩
  | ignored hfound hworker hlog =>
      cases hlog
      have hmade := hbefore.made hfound
      refine ⟨?_, ?_, ?_⟩
      · simp [hworker]
      · simpa [hworker] using hmade
      · exact hbefore.reported.cons (fun _ => hmade) fun _ => rfl
  | unprepared path hempty hworker hlog =>
      cases hlog
      have hunmade := hbefore.unmade hempty
      refine ⟨?_, ?_, ?_⟩
      · simpa [hworker] using hunmade
      · simp [hworker]
      · exact hbefore.reported.cons nofun fun hdown => absurd hdown hunmade.2
  | accepted task hempty hworker hlog =>
      cases hlog
      have hwelcome := (hbefore.unmade hempty).2
      have hreports : Reports (.submitted (.accepted task) :: before.log) :=
        hbefore.reported.cons nofun fun hdown => absurd hdown hwelcome
      refine ⟨?_, ?_, ?_⟩
      · simp [hworker]
      · simp [hworker, hwelcome]
      · refine hreports.cons ?_ fun _ => rfl
        simp [hwelcome]
  | refused reason hempty hworker hlog =>
      cases hlog
      have hunmade := hbefore.unmade hempty
      have hreports : Reports (.submitted (.refused reason) :: before.log) :=
        hbefore.reported.cons nofun fun hdown => absurd hdown hunmade.2
      refine ⟨?_, ?_, ?_⟩
      · simp [hworker]
      · simp [hworker, hunmade.1]
      · refine hreports.cons nofun ?_
        simp [hunmade.2]

/-- An init that succeeds says that the executor has taken the job, unless an earlier one has said that
it was refused. -/
theorem reports_run (host : PluginHost) (settings : List Adapter.Setting) (executor : Executor)
    (held : Held) (world : World) (history : List Happening) :
    Reports ((fresh host settings executor held world).logged.run launcher history).log := by
  have hkept : Kept ((fresh host settings executor held world).logged.run launcher history) := by
    induction history using List.reverseRecOn with
    | nil =>
        exact kept_logged (Adapter.worker_configured host settings)
    | append_singleton history last ih =>
        rw [Logged.run_concat]
        exact (steps launcher _ last).kept ih
  exact hkept.reported

/-- Every init that succeeds says that the executor has taken the job. -/
def Scheduled (log : List Entry) : Prop :=
  ∀ newer older, log = newer ++ .initialized (.ok ()) :: older → Handed older

/-- An executor that refuses every job. -/
def refusing : Executor := { answer := .refused "scheduler is shut down" }

/-- The init after one whose job was refused succeeds, though there is no job. -/
theorem not_scheduled_refusing :
    ¬ Scheduled ((fresh ⟨"proxy", .ofString "/"⟩ [] refusing () {}).logged.run returning
      [.occurs .init, .occurs .init]).log := by
  have hlog : ((fresh ⟨"proxy", .ofString "/"⟩ [] refusing () {}).logged.run returning
      [.occurs .init, .occurs .init]).log =
        [.initialized (.ok ()), .initialized (.error (.executor "scheduler is shut down")),
          .submitted (.refused "scheduler is shut down")] := by
    cbv
  intro hscheduled
  have hhanded := hscheduled [] _ hlog
  simp [Handed] at hhanded

end Plugin
end NativeLaunch
