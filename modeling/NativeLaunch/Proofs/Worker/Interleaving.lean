import Mathlib.Data.List.Induction
import NativeLaunch.Proofs.Worker.Calls

/-!
# Interleavings of calls on one worker

Any number of threads call one worker, each as often as it likes, and their steps interleave in
any order.  This file defines:

* `Shared` — a worker with the calls in progress on it and all that has happened to it;
* `Turn` — whose turn it is: a thread begins a call, takes the next step of its latest call, or
  has its launch come back with some result;
* `Shared.step` and `Shared.run` — what a turn does, and a whole schedule of them.

A thread has at most one call in progress, unless that call is in the launcher: the launcher may
call the worker again, and then the inner call goes first.  A turn that its thread cannot take
changes nothing, so that every list of turns is a schedule.  A launch need not come back: one that
unwinds or hangs is one that never gets its turn.

The last section ties the steps to the functions of `Worker`: a call that nobody interferes with
does what the function of its name does.
-/

namespace NativeLaunch
namespace Worker

/-- A call in progress. -/
structure Frame where
  thread : Nat
  stage : Stage
deriving DecidableEq, Repr

/-- A worker, the calls in progress on it and the events so far; both lists have the latest
first. -/
structure Shared where
  worker : Worker
  calls : List Frame := []
  past : List Event := []

/-- Whose turn it is, and what for. -/
inductive Turn
  | call (thread : Nat) (call : Call)
  | advance (thread : Nat)
  | comeBack (thread : Nat) (result : Except Failure ExitStatus)

/-! ## Frames -/

/-- The stage of a thread's latest call. -/
def latest? (thread : Nat) (calls : List Frame) : Option Stage :=
  (calls.find? (·.thread = thread)).map (·.stage)

/-- Puts a thread's latest call at the next stage, or takes it out. -/
def replaceLatest (thread : Nat) (next : Option Stage) : List Frame → List Frame
  | [] => []
  | frame :: older =>
    if frame.thread = thread then next.toList.map (⟨thread, ·⟩) ++ older
    else frame :: replaceLatest thread next older

theorem exists_split_of_latest? {thread : Nat} {calls : List Frame} {stage : Stage} :
    latest? thread calls = some stage →
      ∃ newer older, calls = newer ++ ⟨thread, stage⟩ :: older ∧
        (∀ frame ∈ newer, frame.thread ≠ thread) := by
  intro h
  rcases Option.map_eq_some_iff.1 h with ⟨frame, hfind, rfl⟩
  rcases List.find?_eq_some_iff_append.1 hfind with ⟨hthread, newer, older, rfl, hnewer⟩
  have hsame : frame.thread = thread := by simpa using hthread
  refine ⟨newer, older, ?_, ?_⟩
  · cases frame
    cases hsame
    rfl
  · intro other hother
    simpa using hnewer other hother

theorem latest?_split {thread : Nat} {stage : Stage} {newer older : List Frame}
    (hnewer : ∀ frame ∈ newer, frame.thread ≠ thread) :
    latest? thread (newer ++ ⟨thread, stage⟩ :: older) = some stage := by
  have hnone : newer.find? (·.thread = thread) = none := by
    simpa [List.find?_eq_none] using hnewer
  simp [latest?, List.find?_append, hnone]

theorem replaceLatest_split {thread : Nat} {stage : Stage} {next : Option Stage}
    {newer older : List Frame} (hnewer : ∀ frame ∈ newer, frame.thread ≠ thread) :
    replaceLatest thread next (newer ++ ⟨thread, stage⟩ :: older) =
      newer ++ (next.toList.map (⟨thread, ·⟩) ++ older) := by
  induction newer with
  | nil =>
      simp [replaceLatest]
  | cons frame newer ih =>
      have hframe : frame.thread ≠ thread := hnewer frame (by simp)
      have hrest : ∀ other ∈ newer, other.thread ≠ thread :=
        fun other hother => hnewer other (List.mem_cons_of_mem _ hother)
      simp [replaceLatest, hframe, ih hrest]

theorem latest?_cons_ne {thread other : Nat} (hne : thread ≠ other) (stage : Stage)
    (calls : List Frame) : latest? thread (⟨other, stage⟩ :: calls) = latest? thread calls := by
  simp [latest?, Ne.symm hne]

/-- A thread's calls are where they were when another thread's call has moved on. -/
theorem latest?_replaceLatest_ne {thread other : Nat} (hne : thread ≠ other) (next : Option Stage)
    (calls : List Frame) :
    latest? thread (replaceLatest other next calls) = latest? thread calls := by
  induction calls with
  | nil =>
      rfl
  | cons frame older ih =>
      rcases frame with ⟨owner, stage⟩
      by_cases howner : owner = other
      · subst howner
        cases next with
        | none =>
            simp [replaceLatest, latest?_cons_ne hne]
        | some next =>
            simp [replaceLatest, latest?_cons_ne hne]
      · have hkeep : replaceLatest other next (⟨owner, stage⟩ :: older) =
            ⟨owner, stage⟩ :: replaceLatest other next older := by
          simp [replaceLatest, howner]
        rw [hkeep]
        by_cases hthread : thread = owner
        · simp [latest?, hthread]
        · rw [latest?_cons_ne hthread, latest?_cons_ne hthread, ih]

namespace Shared

/-- A new worker that nobody has called. -/
def new (invocation : Invocation) : Shared := { worker := Worker.new invocation }

/-- The stages of the calls in progress. -/
def stages (shared : Shared) : List Stage := shared.calls.map (·.stage)

/-- Whether a thread can begin a call: it has none, or its latest is in the launcher. -/
def mayCall (shared : Shared) (thread : Nat) : Bool :=
  match latest? thread shared.calls with
  | none => true
  | some stage => stage = .inside

/-- A thread's latest call makes progress. -/
def proceed (shared : Shared) (thread : Nat) (progress : Progress) : Shared where
  worker := progress.worker
  calls := replaceLatest thread progress.next shared.calls
  past := progress.events ++ shared.past

/-- What a turn does. -/
def step (shared : Shared) : Turn → Shared
  | .call thread call =>
    if shared.mayCall thread then
      { shared with
        calls := ⟨thread, call.first⟩ :: shared.calls
        past := .called thread call :: shared.past }
    else shared
  | .advance thread =>
    match latest? thread shared.calls with
    | some stage => shared.proceed thread (stage.advance thread shared.worker)
    | none => shared
  | .comeBack thread result =>
    match latest? thread shared.calls with
    | some .inside => shared.proceed thread (shared.worker.comeBack thread result)
    | _ => shared

/-- What a schedule does. -/
def run (shared : Shared) (schedule : List Turn) : Shared := schedule.foldl step shared

@[simp] theorem run_nil (shared : Shared) : shared.run [] = shared := rfl

@[simp] theorem run_cons (shared : Shared) (turn : Turn) (schedule : List Turn) :
    shared.run (turn :: schedule) = (shared.step turn).run schedule := rfl

theorem run_append (shared : Shared) (first second : List Turn) :
    shared.run (first ++ second) = (shared.run first).run second :=
  List.foldl_append

theorem run_concat (shared : Shared) (schedule : List Turn) (turn : Turn) :
    shared.run (schedule ++ [turn]) = (shared.run schedule).step turn := by
  simp [run_append]

/-! ## What a turn can do -/

/-- The ways in which a turn changes what is shared. -/
inductive Stepped (shared : Shared) : Shared → Prop
  | idle : Stepped shared shared
  | called (thread : Nat) (call : Call) (free : shared.mayCall thread = true) :
      Stepped shared
        { shared with
          calls := ⟨thread, call.first⟩ :: shared.calls
          past := .called thread call :: shared.past }
  | proceeded (thread : Nat) (stage : Stage) (progress : Progress) (newer older : List Frame)
      (split : shared.calls = newer ++ ⟨thread, stage⟩ :: older)
      (foremost : ∀ frame ∈ newer, frame.thread ≠ thread)
      (takes : stage.Takes thread shared.worker progress) :
      Stepped shared
        ⟨progress.worker, newer ++ (progress.next.toList.map (⟨thread, ·⟩) ++ older),
          progress.events ++ shared.past⟩

theorem stepped_proceed {shared : Shared} {thread : Nat} {stage : Stage} {progress : Progress}
    (hlatest : latest? thread shared.calls = some stage)
    (htakes : stage.Takes thread shared.worker progress) :
    Stepped shared (shared.proceed thread progress) := by
  rcases exists_split_of_latest? hlatest with ⟨newer, older, hsplit, hnewer⟩
  have hcalls : replaceLatest thread progress.next shared.calls =
      newer ++ (progress.next.toList.map (⟨thread, ·⟩) ++ older) := by
    rw [hsplit]
    exact replaceLatest_split hnewer
  have h := Stepped.proceeded thread stage progress newer older hsplit hnewer htakes
  rw [← hcalls] at h
  exact h

theorem stepped (shared : Shared) (turn : Turn) : Stepped shared (shared.step turn) := by
  cases turn with
  | call thread call =>
      by_cases hfree : shared.mayCall thread = true
      · simpa [step, hfree] using Stepped.called thread call hfree
      · simpa [step, hfree] using Stepped.idle
  | advance thread =>
      cases hlatest : latest? thread shared.calls with
      | none =>
          simpa [step, hlatest] using Stepped.idle
      | some stage =>
          simpa [step, hlatest] using stepped_proceed hlatest (stage.takes_advance thread _)
  | comeBack thread result =>
      cases hlatest : latest? thread shared.calls with
      | none =>
          simpa [step, hlatest] using Stepped.idle
      | some stage =>
          by_cases hinside : stage = .inside
          · subst hinside
            simpa [step, hlatest] using stepped_proceed hlatest (Stage.Takes.comeBack result)
          · have hidle : shared.step (.comeBack thread result) = shared := by
              cases stage <;> simp_all [step]
            rw [hidle]
            exact Stepped.idle

/-- A call is at a stage because it was there before, has begun, or has taken a step to it. -/
theorem Stepped.mem_stages {before after : Shared} (h : Stepped before after) {stage : Stage}
    (hmem : stage ∈ after.stages) :
    stage ∈ before.stages ∨ (∃ call, stage = Call.first call) ∨
      ∃ thread current progress, current ∈ before.stages ∧
        current.Takes thread before.worker progress ∧ progress.next = some stage ∧
          after.worker = progress.worker := by
  cases h with
  | idle =>
      exact .inl hmem
  | called thread call _ =>
      rcases List.mem_cons.1 hmem with hfirst | hold
      · exact .inr (.inl ⟨call, hfirst⟩)
      · exact .inl hold
  | proceeded thread current progress newer older hsplit _ htakes =>
      have hstages : before.stages = newer.map (·.stage) ++ current :: older.map (·.stage) := by
        simp [stages, hsplit]
      rw [hstages]
      simp only [stages, List.map_append, List.mem_append] at hmem
      rcases hmem with hnewer | hnext | holder
      · exact .inl (List.mem_append_left _ hnewer)
      · have hsome : progress.next = some stage := by simpa using hnext
        exact .inr (.inr ⟨thread, current, progress, by simp, htakes, hsome, rfl⟩)
      · exact .inl (List.mem_append_right _ (List.mem_cons_of_mem _ holder))

/-- What holds of a new worker and is kept by every turn holds after every schedule. -/
theorem run_induction {motive : Shared → Prop} (invocation : Invocation)
    (start : motive (new invocation))
    (turn : ∀ before after, Stepped before after → motive before → motive after)
    (schedule : List Turn) : motive ((new invocation).run schedule) := by
  induction schedule using List.reverseRecOn with
  | nil =>
      exact start
  | append_singleton schedule last ih =>
      rw [run_concat]
      exact turn _ _ (stepped _ last) ih

/-! ## Events so far -/

/-- The events that a turn adds, the latest first. -/
def news (shared : Shared) (turn : Turn) : List Event :=
  (shared.step turn).past.take ((shared.step turn).past.length - shared.past.length)

theorem Stepped.exists_past {before after : Shared} (h : Stepped before after) :
    ∃ events, after.past = events ++ before.past := by
  cases h with
  | idle =>
      exact ⟨[], rfl⟩
  | called thread call _ =>
      exact ⟨[.called thread call], rfl⟩
  | proceeded _ _ progress _ _ _ _ _ =>
      exact ⟨progress.events, rfl⟩

theorem past_step (shared : Shared) (turn : Turn) :
    (shared.step turn).past = shared.news turn ++ shared.past := by
  rcases (stepped shared turn).exists_past with ⟨events, hevents⟩
  simp [news, hevents]

theorem past_run (shared : Shared) (schedule : List Turn) :
    ∃ events, (shared.run schedule).past = events ++ shared.past := by
  induction schedule generalizing shared with
  | nil =>
      exact ⟨[], rfl⟩
  | cons turn schedule ih =>
      rcases ih (shared.step turn) with ⟨events, hevents⟩
      refine ⟨events ++ shared.news turn, ?_⟩
      rw [run_cons, hevents, past_step, List.append_assoc]

/-- What has happened stays so. -/
theorem mem_past_run {shared : Shared} {event : Event} (schedule : List Turn)
    (h : event ∈ shared.past) : event ∈ (shared.run schedule).past := by
  rcases past_run shared schedule with ⟨events, hevents⟩
  rw [hevents]
  exact List.mem_append_right _ h

/-- Whatever has happened did so at some turn of the schedule. -/
theorem exists_turn_of_mem_past {invocation : Invocation} {schedule : List Turn} {event : Event}
    (h : event ∈ ((new invocation).run schedule).past) :
    ∃ early turn, early ++ [turn] <+: schedule ∧
      event ∈ ((new invocation).run early).news turn := by
  induction schedule using List.reverseRecOn with
  | nil =>
      cases h
  | append_singleton schedule turn ih =>
      rw [run_concat, past_step] at h
      rcases List.mem_append.1 h with hnews | hold
      · exact ⟨schedule, turn, List.prefix_refl _, hnews⟩
      · rcases ih hold with ⟨early, earlier, hearlier, hnews⟩
        exact ⟨early, earlier, hearlier.trans (List.prefix_append _ _), hnews⟩

/-- How many of the events so far are of a kind. -/
def tally (shared : Shared) (kind : Event → Bool) : Nat := shared.past.countP kind

@[simp] theorem tally_false (shared : Shared) : shared.tally (fun _ => false) = 0 := by
  simp [tally]

theorem tally_pos_iff {shared : Shared} {kind : Event → Bool} :
    0 < shared.tally kind ↔ ∃ event ∈ shared.past, kind event = true := by
  simp [tally, List.countP_pos_iff]

theorem tally_le_tally (shared : Shared) {kind other : Event → Bool}
    (h : ∀ event, kind event = true → other event = true) :
    shared.tally kind ≤ shared.tally other :=
  List.countP_mono_left fun event _ => h event

/-- Of two kinds that exclude each other, the events of either add up. -/
theorem tally_or (shared : Shared) {first second : Event → Bool}
    (h : ∀ event, first event = true → second event = false) :
    shared.tally (fun event => first event || second event) =
      shared.tally first + shared.tally second := by
  unfold tally
  induction shared.past with
  | nil =>
      rfl
  | cons event past ih =>
      simp only [List.countP_cons, ih]
      cases hfirst : first event with
      | false =>
          simp only [Bool.false_or, Bool.false_eq_true, if_false]
          omega
      | true =>
          simp only [h event hfirst, Bool.or_false, Bool.false_eq_true, if_true, if_false]
          omega

theorem tally_le_run (shared : Shared) (schedule : List Turn) (kind : Event → Bool) :
    shared.tally kind ≤ (shared.run schedule).tally kind := by
  rcases past_run shared schedule with ⟨events, hevents⟩
  simp [tally, hevents, List.countP_append]

/-- An event that a turn adds comes from a step of the latest call of some thread, unless it is
the beginning of a call. -/
theorem exists_takes_of_mem_news {shared : Shared} {turn : Turn} {event : Event}
    (h : event ∈ shared.news turn) (hnew : ∀ thread call, event ≠ .called thread call) :
    ∃ thread stage progress, latest? thread shared.calls = some stage ∧
      stage.Takes thread shared.worker progress ∧ event ∈ progress.events ∧
        shared.step turn = shared.proceed thread progress := by
  have hpast : (shared.step turn).past = shared.news turn ++ shared.past := past_step shared turn
  have hstep : Stepped shared (shared.step turn) := stepped shared turn
  generalize hafter : shared.step turn = after at hpast hstep
  cases hstep with
  | idle =>
      have hnone : shared.news turn = [] := List.self_eq_append_left.1 hpast
      simp [hnone] at h
  | called thread call _ =>
      have hone : [.called thread call] = shared.news turn := List.append_cancel_right hpast
      rw [← hone, List.mem_singleton] at h
      exact absurd h (hnew thread call)
  | proceeded thread stage progress newer older hsplit hforemost htakes =>
      have hsame : progress.events = shared.news turn := List.append_cancel_right hpast
      refine ⟨thread, stage, progress, ?_, htakes, hsame ▸ h, ?_⟩
      · rw [hsplit]
        exact latest?_split hforemost
      · rw [proceed, hsplit, replaceLatest_split hforemost]

theorem mem_stages_of_latest? {shared : Shared} {thread : Nat} {stage : Stage}
    (h : latest? thread shared.calls = some stage) : stage ∈ shared.stages := by
  rcases exists_split_of_latest? h with ⟨newer, older, hsplit, _⟩
  simp [stages, hsplit]

/-- Whatever has happened, but for the beginnings of calls, came from a step that some call took at
some moment of the schedule. -/
theorem exists_takes_of_mem_past {invocation : Invocation} {schedule : List Turn} {event : Event}
    (h : event ∈ ((new invocation).run schedule).past)
    (hnew : ∀ thread call, event ≠ .called thread call) :
    ∃ early thread stage progress, early <+: schedule ∧
      stage ∈ ((new invocation).run early).stages ∧
        stage.Takes thread ((new invocation).run early).worker progress ∧
          event ∈ progress.events := by
  rcases exists_turn_of_mem_past h with ⟨early, turn, hearlier, hnews⟩
  rcases exists_takes_of_mem_news hnews hnew with
    ⟨thread, stage, progress, hlatest, htakes, hevent, _⟩
  exact ⟨early, thread, stage, progress, (List.prefix_append early [turn]).trans hearlier,
    mem_stages_of_latest? hlatest, htakes, hevent⟩

/-! ## Suspended calls -/

/-- Under a later call of its thread, a call waits in the launcher. -/
def Suspended (calls : List Frame) : Prop :=
  calls.Pairwise fun newer older => newer.thread = older.thread → older.stage = .inside

theorem run_suspended (invocation : Invocation) (schedule : List Turn) :
    Suspended ((new invocation).run schedule).calls := by
  refine run_induction (motive := fun shared => Suspended shared.calls) invocation
    List.Pairwise.nil ?_ schedule
  intro before after hstep hbefore
  cases hstep with
  | idle =>
      exact hbefore
  | called thread call hfree =>
      -- The thread's latest call is in the launcher, and by the hypothesis so are those below it.
      refine List.pairwise_cons.2 ⟨?_, hbefore⟩
      intro older holder hthread
      cases hlatest : latest? thread before.calls with
      | none =>
          have hnot := List.find?_eq_none.1 (Option.map_eq_none_iff.1 hlatest) older holder
          exact absurd hthread.symm (by simpa using hnot)
      | some stage =>
          have hinside : stage = .inside := by simpa [mayCall, hlatest] using hfree
          rcases exists_split_of_latest? hlatest with ⟨front, back, hsplit, hfront⟩
          rw [hsplit] at holder hbefore
          rcases List.mem_append.1 holder with hmem | hmem
          · exact absurd hthread.symm (hfront older hmem)
          · rcases List.mem_cons.1 hmem with rfl | hmem
            · exact hinside
            · exact (List.pairwise_cons.1 (List.pairwise_append.1 hbefore).2.1).1 older hmem hthread
  | proceeded thread stage progress newer older hsplit hforemost _ =>
      -- Only the stage of the thread's latest call changes, and that call is below none of its own.
      rw [hsplit] at hbefore
      rcases List.pairwise_append.1 hbefore with ⟨hnewer, hrest, hacross⟩
      rcases List.pairwise_cons.1 hrest with ⟨hstage, holder⟩
      refine List.pairwise_append.2 ⟨hnewer, List.pairwise_append.2 ⟨?_, holder, ?_⟩, ?_⟩
      · cases progress.next <;> simp
      · intro frame hframe other hother hthread
        rcases List.mem_map.1 hframe with ⟨_, _, rfl⟩
        exact hstage other hother hthread
      · intro frame hframe other hother hthread
        rcases List.mem_append.1 hother with hmem | hmem
        · rcases List.mem_map.1 hmem with ⟨_, _, rfl⟩
          exact absurd hthread (hforemost frame hframe)
        · exact hacross frame hframe other (List.mem_cons_of_mem _ hmem) hthread

/-- A call that is not in the launcher is the latest of its thread. -/
theorem latest?_of_mem {calls : List Frame} {thread : Nat} {stage : Stage}
    (hsuspended : Suspended calls) (hmem : ⟨thread, stage⟩ ∈ calls) (houtside : stage ≠ .inside) :
    latest? thread calls = some stage := by
  rcases List.append_of_mem hmem with ⟨newer, older, rfl⟩
  apply latest?_split
  intro frame hframe hthread
  have hinside := (List.pairwise_append.1 hsuspended).2.2 frame hframe ⟨thread, stage⟩ (by simp)
  exact houtside (hinside hthread)

theorem step_advance {shared : Shared} {thread : Nat} {stage : Stage}
    (h : latest? thread shared.calls = some stage) :
    shared.step (.advance thread) = shared.proceed thread (stage.advance thread shared.worker) := by
  simp [step, h]

theorem latest?_proceed {shared : Shared} {thread : Nat} {stage next : Stage} {progress : Progress}
    (h : latest? thread shared.calls = some stage) (hnext : progress.next = some next) :
    latest? thread (shared.proceed thread progress).calls = some next := by
  rcases exists_split_of_latest? h with ⟨newer, older, hsplit, hnewer⟩
  have hcalls : (shared.proceed thread progress).calls = newer ++ ⟨thread, next⟩ :: older := by
    simp [proceed, hsplit, replaceLatest_split hnewer, hnext]
  rw [hcalls]
  exact latest?_split hnewer

/-! ## Calls that nobody interferes with -/

/-- Turns enough for a thread's call to go on until it is over or in the launcher. -/
def alone (thread : Nat) : List Turn := List.replicate 6 (.advance thread)

theorem run_markScheduled_alone (worker : Worker) (thread : Nat) (past : List Event) :
    ∃ events, (Shared.mk worker [] past).run (.call thread .markScheduled :: alone thread) =
      ⟨worker.markScheduled.2, [],
        .returned thread (.marked worker.markScheduled.1) :: events⟩ := by
  rcases worker with ⟨_, state, _, _, _, _⟩
  -- The state alone decides which way the call goes.
  cases state <;>
    exact ⟨_, by
      simp [alone, step, proceed, latest?, replaceLatest, mayCall, Call.first, Stage.advance,
        Notice.advance, move, WorkerState.canMoveTo, markScheduled]
      rfl⟩

theorem run_stop_alone (worker : Worker) (thread : Nat) (past : List Event) :
    ∃ events, (Shared.mk worker [] past).run (.call thread .stop :: alone thread) =
      ⟨worker.stop.2, [], .returned thread (.stopped worker.stop.1) :: events⟩ := by
  rcases worker with ⟨_, state, _, _, _, _⟩
  cases state <;>
    exact ⟨_, by
      simp [alone, step, proceed, latest?, replaceLatest, mayCall, Call.first, Stage.advance,
        Notice.advance, move, WorkerState.canMoveTo, Worker.stop, countStop, lateReport]
      rfl⟩

/-- A run goes as far as the launcher, or returns if there is no call to be made. -/
theorem run_begin_alone (worker : Worker) (thread : Nat) (past : List Event) :
    ∃ events, (Shared.mk worker [] past).run (.call thread .run :: alone thread) =
      if worker.begin.1 then
        ⟨worker.begin.2, [⟨thread, .inside⟩], .entered thread worker.invocation :: events⟩
      else ⟨worker.begin.2, [], .returned thread .ran :: events⟩ := by
  rcases worker with ⟨_, state, _, _, _, _⟩
  cases state <;>
    exact ⟨_, by
      simp [alone, step, proceed, latest?, replaceLatest, mayCall, Call.first, Stage.advance,
        Notice.advance, move, WorkerState.canMoveTo, begin, setActive, countLaunch]
      rfl⟩

theorem run_finish_alone (worker : Worker) (thread : Nat) (past : List Event)
    (result : Except Failure ExitStatus) :
    ∃ events, (Shared.mk worker [⟨thread, .inside⟩] past).run
        (.comeBack thread result :: alone thread) =
      ⟨worker.finish (.ofLaunch result), [], .returned thread .ran :: events⟩ := by
  rcases worker with ⟨_, state, _, _, _, _⟩
  cases state <;>
    exact ⟨_, by
      simp [alone, step, proceed, comeBack, latest?, replaceLatest, Stage.advance,
        Notice.advance, move, WorkerState.canMoveTo, finish, setActive]
      rfl⟩

end Shared

end Worker
end NativeLaunch
