import NativeLaunch.Proofs.Adapter.Interleaving
import NativeLaunch.Proofs.Worker.Settlement

/-!
# The worker of an adapter

Inits, shutdowns and jobs reach the worker through its calls only.  So whatever they do, in any
order, the worker of an adapter goes through a schedule of a worker that was new, with the arguments
that the adapter was configured for (`Lawful.reachable`), and it stays the same worker
(`exists_run_of_shared?`).  This file defines:

* `Cells.Worked` — what one step can do to the worker: nothing, or a turn, or to make it;
* `Cells.Lawful` — what therefore holds of the cells after every schedule.
-/

namespace NativeLaunch

namespace Adapter

theorem invocation_makeWorker (adapter : Adapter) :
    adapter.makeWorker.2.invocation = adapter.invocation := by
  unfold makeWorker
  split <;> rfl

namespace Cells

theorem work_of_none {cells : Cells} (h : cells.adapter.worker = none) (turn : Worker.Turn) :
    cells.work turn = cells := by
  unfold work
  rw [(shared?_eq_none_iff cells).2 h]

theorem work_of_shared? {cells : Cells} {shared : Worker.Shared} (h : cells.shared? = some shared)
    (turn : Worker.Turn) : cells.work turn = cells.put (shared.step turn) := by
  unfold work
  rw [h]

theorem work_takeJob (cells : Cells) (turn : Worker.Turn) :
    cells.takeJob.work turn = (cells.work turn).takeJob := by
  unfold work
  rw [shared?_takeJob]
  split <;> rfl

/-- A turn of the worker adds to its past and takes nothing away. -/
theorem exists_past_work (cells : Cells) (turn : Worker.Turn) :
    ∃ events, (cells.work turn).past = events ++ cells.past := by
  cases hshared : cells.shared? with
  | none =>
      exact ⟨[], by rw [work_of_none ((shared?_eq_none_iff cells).1 hshared), List.nil_append]⟩
  | some shared =>
      refine ⟨shared.news turn, ?_⟩
      rw [work_of_shared? hshared, ← past_of_shared? hshared]
      exact shared.past_step turn

theorem countP_past_le_work (cells : Cells) (turn : Worker.Turn) (kind : Worker.Event → Bool) :
    cells.past.countP kind ≤ (cells.work turn).past.countP kind := by
  rcases cells.exists_past_work turn with ⟨events, hevents⟩
  simp [hevents, List.countP_append]

theorem runCalls_work (cells : Cells) (turn : Worker.Turn) :
    (cells.work turn).past.countP Worker.Event.isRunCall ≤
      cells.past.countP Worker.Event.isRunCall + turn.startsRun.toNat := by
  cases hshared : cells.shared? with
  | none =>
      rw [work_of_none ((shared?_eq_none_iff cells).1 hshared)]
      exact Nat.le_add_right _ _
  | some shared =>
      rw [work_of_shared? hshared, ← past_of_shared? hshared]
      exact shared.runCalls_step turn

/-- The answer that is heard is an event of the step. -/
theorem returned_of_heard {cells : Cells} {thread : Nat} {answer : Worker.Answer}
    (h : cells.heard thread = some answer) :
    ∃ actor events, (cells.work (.advance thread)).past = events ++ cells.past ∧
      .returned actor answer ∈ events := by
  rcases Option.bind_eq_some_iff.1 h with ⟨shared, hshared, hrest⟩
  rcases Option.bind_eq_some_iff.1 hrest with ⟨stage, hlatest, hanswer⟩
  rcases List.exists_of_findSome?_eq_some hanswer with ⟨event, hmem, hevent⟩
  have hpast : (cells.work (.advance thread)).past =
      (stage.advance thread shared.worker).events ++ cells.past := by
    rw [work_of_shared? hshared, ← past_of_shared? hshared]
    simp [put, Worker.Shared.step_advance hlatest, Worker.Shared.proceed]
  cases event with
  | returned actor given =>
      cases hevent
      exact ⟨actor, _, hpast, hmem⟩
  | _ =>
      cases hevent

/-! ## What a step does to the worker -/

/-- Two states of the cells have the same worker with the same calls, and arguments for another. -/
structure Agrees (cells other : Cells) : Prop where
  invocation : cells.adapter.invocation = other.adapter.invocation
  worker : cells.adapter.worker = other.adapter.worker
  calls : cells.calls = other.calls
  past : cells.past = other.past

theorem Agrees.refl (cells : Cells) : cells.Agrees cells := ⟨rfl, rfl, rfl, rfl⟩

theorem Agrees.shared? {cells other : Cells} (h : cells.Agrees other) :
    cells.shared? = other.shared? := by
  simp [Cells.shared?, h.worker, h.calls, h.past]

/-- What a step can do to the worker, and whether it starts a run. -/
inductive Worked (before after : Cells) : Bool → Prop
  | kept (same : after.Agrees before) : Worked before after false
  | turned (turn : Worker.Turn) (same : after.Agrees (before.work turn)) :
      Worked before after turn.startsRun
  -- Where there is a worker already, none is made.
  | made (turn : Worker.Turn) (empty : before.adapter.worker = none)
      (same : after.Agrees
        (({ before with adapter := before.adapter.makeWorker.2 } : Cells).work turn)) :
      Worked before after turn.startsRun

namespace Worked

variable {before after : Cells} {starts : Bool}

/-- A worker that there is stays, and takes turns at most. -/
theorem exists_run (h : Worked before after starts) {shared : Worker.Shared}
    (hshared : before.shared? = some shared) :
    ∃ turns, after.shared? = some (shared.run turns) := by
  cases h with
  | kept hsame =>
      exact ⟨[], by rw [hsame.shared?, hshared]; rfl⟩
  | turned turn hsame =>
      exact ⟨[turn], by rw [hsame.shared?, shared?_work, hshared]; rfl⟩
  | made turn hempty _ =>
      rw [(shared?_eq_none_iff before).2 hempty] at hshared
      cases hshared

/-- What has happened on a worker stays so. -/
theorem exists_past (h : Worked before after starts) :
    ∃ events, after.past = events ++ before.past := by
  cases h with
  | kept hsame =>
      exact ⟨[], hsame.past⟩
  | turned turn hsame =>
      rw [hsame.past]
      exact before.exists_past_work turn
  | made turn _ hsame =>
      rw [hsame.past]
      exact exists_past_work _ turn

theorem runCalls (h : Worked before after starts) :
    after.past.countP Worker.Event.isRunCall ≤
      before.past.countP Worker.Event.isRunCall + starts.toNat := by
  cases h with
  | kept hsame =>
      rw [hsame.past]
      exact Nat.le_add_right _ _
  | turned turn hsame =>
      rw [hsame.past]
      exact runCalls_work before turn
  | made turn _ hsame =>
      rw [hsame.past]
      exact runCalls_work _ turn

end Worked
end Cells

open Cells in
theorem Stage.Takes.worked {thread : Nat} {cells : Cells} {stage : Stage} {progress : Progress}
    (h : stage.Takes thread cells progress) : Worked cells progress.cells false := by
  cases h with
  | make hempty =>
      exact .made (.call thread .markScheduled) hempty (.refl _)
  | workOn stage _ =>
      exact .turned (.advance thread) (.refl _)
  | comeBack result =>
      exact .turned (.comeBack thread result) (.refl _)
  | marked _ =>
      exact .turned (.advance thread) (.refl _)
  | markRefused found _ =>
      exact .turned (.advance thread) (.refl _)
  | abandoned reason report _ =>
      exact .turned (.advance thread) (.refl _)
  | stopped report _ =>
      exact .turned (.advance thread) (.refl _)
  | ran _ =>
      exact .turned (.advance thread) (.refl _)
  | refused reason =>
      exact .turned (.call thread .stop) (.refl _)
  | checkFound worker _ =>
      exact .turned (.call thread .stop) (.refl _)
  | prepared made =>
      cases made <;> exact .kept ⟨rfl, rfl, rfl, rfl⟩
  | _ =>
      exact .kept ⟨rfl, rfl, rfl, rfl⟩

theorem Hosted.Stepped.worked {before after : Hosted} (h : Stepped before after) :
    ∃ starts, Cells.Worked before.cells after.cells starts := by
  cases h with
  | started thread _ =>
      refine ⟨true, .turned (.call thread .run) ?_⟩
      rw [Cells.work_takeJob]
      exact ⟨rfl, rfl, rfl, rfl⟩
  | proceeded thread stage progress rest _ htakes =>
      exact ⟨false, htakes.worked⟩
  | _ =>
      exact ⟨false, .kept ⟨rfl, rfl, rfl, rfl⟩⟩

theorem Hosted.exists_past_step (hosted : Hosted) (turn : Turn) :
    ∃ events, (hosted.step turn).cells.past = events ++ hosted.cells.past := by
  rcases (stepped hosted turn).worked with ⟨starts, hworked⟩
  exact hworked.exists_past

/-! ## The schedule of the worker -/

namespace Cells

/-- The worker, if there is one, has gone through a schedule with given arguments. -/
structure Lawful (arguments : Invocation) (cells : Cells) : Prop where
  invocation : cells.adapter.invocation = arguments
  -- Nothing was called on a worker that does not exist.
  fresh : cells.adapter.worker = none → cells.calls = [] ∧ cells.past = []
  reachable : ∀ shared, cells.shared? = some shared →
    ∃ schedule, shared = (Worker.Shared.new arguments).run schedule

namespace Lawful

variable {arguments : Invocation} {cells other : Cells}

theorem of_agrees (h : Lawful arguments other) (hsame : cells.Agrees other) :
    Lawful arguments cells where
  invocation := hsame.invocation.trans h.invocation
  fresh hnone := by
    rw [hsame.worker] at hnone
    rw [hsame.calls, hsame.past]
    exact h.fresh hnone
  reachable shared hshared := by
    rw [hsame.shared?] at hshared
    exact h.reachable shared hshared

theorem work (h : Lawful arguments cells) (turn : Worker.Turn) :
    Lawful arguments (cells.work turn) := by
  cases hshared : cells.shared? with
  | none =>
      rw [work_of_none ((shared?_eq_none_iff cells).1 hshared)]
      exact h
  | some shared =>
      rcases h.reachable shared hshared with ⟨schedule, rfl⟩
      refine ⟨(cells.invocation_work turn).trans h.invocation, ?_, ?_⟩
      · intro hnone
        rw [work_of_shared? hshared] at hnone
        cases hnone
      · intro after hafter
        rw [shared?_work, hshared] at hafter
        cases hafter
        exact ⟨schedule ++ [turn], (Worker.Shared.run_concat _ schedule turn).symm⟩

/-- A worker that is made has all its schedule before it. -/
theorem make (h : Lawful arguments cells) (hempty : cells.adapter.worker = none) :
    Lawful arguments { cells with adapter := cells.adapter.makeWorker.2 } := by
  have hmade : cells.adapter.makeWorker.2.worker = some (.new arguments) := by
    simp [makeWorker, hempty, h.invocation]
  refine ⟨(invocation_makeWorker _).trans h.invocation, ?_, ?_⟩
  · intro hnone
    rw [hmade] at hnone
    cases hnone
  · intro shared hshared
    refine ⟨[], ?_⟩
    simpa [Cells.shared?, hmade, h.fresh hempty, eq_comm, Worker.Shared.new] using hshared

end Lawful

theorem Worked.lawful {arguments : Invocation} {before after : Cells} {starts : Bool}
    (h : Worked before after starts) (hbefore : Lawful arguments before) :
    Lawful arguments after := by
  cases h with
  | kept hsame =>
      exact hbefore.of_agrees hsame
  | turned turn hsame =>
      exact (hbefore.work turn).of_agrees hsame
  | made turn hempty hsame =>
      exact ((hbefore.make hempty).work turn).of_agrees hsame

end Cells

namespace Hosted

theorem lawful (host : PluginHost) (settings : List Setting) (schedule : List Turn) :
    Cells.Lawful (configured host settings).invocation
      ((new host settings).run schedule).cells := by
  refine run_induction (motive := fun hosted =>
    Cells.Lawful (configured host settings).invocation hosted.cells) host settings ?_ ?_ schedule
  · refine ⟨rfl, fun _ => ⟨rfl, rfl⟩, ?_⟩
    intro shared hshared
    rw [(Cells.shared?_eq_none_iff _).2 (worker_configured host settings)] at hshared
    cases hshared
  · intro before after hstep hbefore
    rcases hstep.worked with ⟨starts, hworked⟩
    exact hworked.lawful hbefore

/-- A worker that there is stays the worker, and goes on with its schedule. -/
theorem exists_run_of_shared? {hosted : Hosted} {shared : Worker.Shared}
    (h : hosted.cells.shared? = some shared) (schedule : List Turn) :
    ∃ turns, (hosted.run schedule).cells.shared? = some (shared.run turns) := by
  induction schedule using List.reverseRecOn with
  | nil =>
      exact ⟨[], h⟩
  | append_singleton schedule turn ih =>
      rcases ih with ⟨turns, hturns⟩
      rcases (stepped (hosted.run schedule) turn).worked with ⟨starts, hworked⟩
      rcases hworked.exists_run hturns with ⟨more, hmore⟩
      refine ⟨turns ++ more, ?_⟩
      rw [run_concat, hmore, Worker.Shared.run_append]

end Hosted
end Adapter
end NativeLaunch
