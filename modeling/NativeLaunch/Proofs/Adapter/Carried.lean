import NativeLaunch.Proofs.Adapter.Shutdowns

/-!
# The arguments of a plugin's worker

An init builds the arguments of the native call when it makes the worker, from what the adapter was
configured with.  From then on the worker carries them, and nothing that it goes through changes them, so
that a job that is run much later launches what the init has built.  This file defines:

* `Adapter.Carries` — the adapter builds certain arguments, and its worker carries them.

They are those that the adapter had at the start, whatever has happened since
(`invocation_of_following`).
-/

namespace NativeLaunch

theorem Worker.invocation_stop (worker : Worker) : worker.stop.2.invocation = worker.invocation := by
  have hmoved := (worker.countStop.proceeds_move .stopped).invocation
  unfold stop
  split
  · rename_i hmove
    rw [hmove] at hmoved
    exact hmoved
  · rename_i moved _ hmove
    rw [hmove] at hmoved
    exact (moved.proceeds_record _ _).invocation.trans hmoved
  · rename_i hmove
    rw [hmove] at hmoved
    exact hmoved

/-- The adapter builds the arguments for its worker, and the worker carries them. -/
structure Adapter.Carries (invocation : Invocation) (adapter : Adapter) : Prop where
  built : adapter.invocation = invocation
  carried : ∀ worker, adapter.worker = some worker → worker.invocation = invocation

namespace Plugin

open Adapter Adapter.Hosted

variable {Held : Type} (launcher : Launcher Held) {invocation : Invocation} {plugin after : Plugin Held}

/-- What changes the worker alone leaves the adapter with what it is configured with. -/
theorem carries_of_proceeds (h : Carries invocation plugin.adapter) (hproceeds : Proceeds plugin after)
    (hadapter : ∃ change, after.adapter = plugin.adapter.updateWorker change) :
    Carries invocation after.adapter := by
  constructor
  · rcases hadapter with ⟨change, hadapter⟩
    rw [hadapter]
    exact h.built
  · intro worker hworker
    cases hbefore : plugin.adapter.worker with
    | none =>
        rw [hproceeds.worker_eq_none hbefore] at hworker
        cases hworker
    | some earlier =>
        rcases hproceeds.exists_worker hbefore with ⟨reached, hreached, hkept⟩
        cases hreached.symm.trans hworker
        exact hkept.invocation.trans (h.carried earlier hbefore)

theorem carries_stop (h : Carries invocation plugin.adapter) :
    Carries invocation (plugin.updateWorker fun worker => worker.stop.2).adapter := by
  refine ⟨h.built, ?_⟩
  intro worker hworker
  rcases Option.map_eq_some_iff.1 hworker with ⟨earlier, hearlier, rfl⟩
  exact earlier.invocation_stop.trans (h.carried earlier hearlier)

theorem carries_init (h : Carries invocation plugin.adapter) :
    Carries invocation (plugin.init launcher).2.adapter := by
  cases hworker : plugin.adapter.worker with
  | some worker =>
      simpa only [init, hworker] using h
  | none =>
      rcases hprepares : plugin.world.ensureDataDirectory plugin.adapter.host.dataDirectory with
        ⟨result, left⟩
      cases result with
      | error fault =>
          simpa only [init, hworker, hprepares] using h
      | ok _ =>
          -- The worker is made with the arguments, and carries them through its submission.
          have hready : Carries invocation (plugin.readied left).adapter := by
            refine ⟨h.built, ?_⟩
            rintro worker ⟨⟩
            exact h.built
          have hsubmitted := carries_of_proceeds hready (proceeds_submit launcher (plugin.readied left))
            (submits_submit launcher (plugin.readied left)).adapter
          rw [init_of_prepared launcher hworker hprepares]
          cases plugin.executor.answer with
          | accepted task =>
              exact ⟨hsubmitted.built, hsubmitted.carried⟩
          | refused reason =>
              exact carries_stop hsubmitted

theorem carries_occur (h : Carries invocation plugin.adapter) (occurrence : Occurrence) :
    Carries invocation (occur launcher plugin occurrence).adapter := by
  cases occurrence with
  | init =>
      exact carries_init launcher h
  | shutdown =>
      have hstopped := carries_stop h
      simp only [occur, shutdown, releaseArtifacts, cancelTask]
      split
      · exact ⟨hstopped.built, hstopped.carried⟩
      · exact hstopped
  | runJob =>
      refine carries_of_proceeds h (proceeds_runJob launcher plugin) ?_
      have hworks := works_runJob launcher plugin
      rw [dropJob_eq] at hworks
      exact hworks.adapter
  | dropJob =>
      rw [occur, dropJob_eq]
      exact h
  | complete status =>
      refine carries_of_proceeds h (proceeds_complete plugin status) ?_
      rw [occur, complete]
      split
      · exact ⟨_, rfl⟩
      · exact (Works.refl launcher plugin).adapter

/-- Whatever happens, the worker carries what the adapter builds. -/
theorem carries_following (h : Carries invocation plugin.adapter) (history : List Happening) :
    Carries invocation (plugin.following launcher history).adapter := by
  induction history using List.reverseRecOn with
  | nil =>
      exact h
  | append_singleton history last ih =>
      rw [following_concat]
      cases last with
      | occurs occurrence =>
          exact carries_occur launcher ih occurrence
      | outside world answer runsInline =>
          exact ih

/-- Whatever has happened, the worker has the arguments for which the adapter was configured. -/
theorem invocation_of_following {host : PluginHost} {settings : List Setting} {executor : Executor}
    {held : Held} {world : World} {history : List Happening} {worker : Worker}
    (hworker : ((fresh host settings executor held world).following launcher history).adapter.worker =
      some worker) : worker.invocation = (configured host settings).invocation := by
  have hfresh : Carries (configured host settings).invocation
      (fresh host settings executor held world).adapter := by
    refine ⟨rfl, ?_⟩
    intro worker hworker
    cases (worker_configured host settings).symm.trans hworker
  exact (carries_following launcher hfresh history).carried worker hworker

end Plugin
end NativeLaunch
