import NativeLaunch.Proofs.Adapter.Bundled
import NativeLaunch.Proofs.Adapter.ExactReports
import NativeLaunch.Proofs.Registry.Calls

/-!
# What a shutdown leaves behind

A shutdown has the launcher release its files, and when the job has ended too, nothing should be left:
no file, no entry on the launcher's list, and none in the registry of files to be deleted.  A release
takes what is on the list, and a launch that records its file later finds nobody to release it.  This
file defines:

* `LeavesNothing` — what a host relies on;
* `Outlived` — a file was recorded, and nothing was released after that;
* `Phase` — what can have become of the launcher's file, of which there is one at most.

The first two exclude each other, and there is no third (`leavesNothing_iff`).
-/

namespace NativeLaunch

namespace Adapter
namespace Hosted

/-! ## The end of the job -/

theorem entries_le_one (host : PluginHost) (settings : List Setting)
    (schedule : List Adapter.Turn) : ((new host settings).run schedule).entries ≤ 1 := by
  have hruns := runCalls_le_one host settings schedule
  rcases (lawful host settings schedule).exists_past with ⟨turns, hpast⟩
  have hentries := (Worker.accounts (configured host settings).invocation turns).entries_le_wins
  have hwins := Worker.Shared.wins_le_runCalls (configured host settings).invocation turns
  rw [Worker.Shared.tally, Worker.Shared.tally, ← hpast] at hentries hwins
  rw [entries]
  omega

end Hosted

/-- A job returns when its run of the worker does. -/
theorem Stage.Takes.ran_of_ranJob {thread actor : Nat} {cells : Cells} {stage : Stage}
    {progress : Progress} (h : stage.Takes thread cells progress)
    (hreturned : .returned actor .ranJob ∈ progress.events) :
    ∃ runner, .returned runner .ran ∈ progress.cells.past := by
  cases h with
  | ran hheard =>
      rcases Cells.returned_of_heard hheard with ⟨runner, events, hpast, hmem⟩
      refine ⟨runner, ?_⟩
      simp only [returns, hpast]
      exact List.mem_append_left _ hmem
  | prepared made =>
      cases made <;> simp [Adapter.prepared, returns] at hreturned
  | _ =>
      simp_all [returns, answered]

namespace Hosted

theorem ran_of_ranJob (host : PluginHost) (settings : List Setting)
    (schedule : List Adapter.Turn) :
    ∀ thread, .returned thread .ranJob ∈ ((new host settings).run schedule).past →
      ∃ runner, .returned runner .ran ∈ ((new host settings).run schedule).cells.past := by
  refine run_induction (motive := fun hosted => ∀ thread,
    .returned thread .ranJob ∈ hosted.past → ∃ runner, .returned runner .ran ∈ hosted.cells.past)
    host settings ?_ ?_ schedule
  · intro thread hreturned
    cases hreturned
  · intro before after hstep hbefore thread hreturned
    have hkept : ∀ actor, .returned actor .ranJob ∈ before.past →
        ∃ runner, .returned runner .ran ∈ after.cells.past := by
      intro actor hold
      rcases hbefore actor hold with ⟨runner, hran⟩
      rcases hstep.worked with ⟨starts, hworked⟩
      rcases hworked.exists_past with ⟨events, hpast⟩
      exact ⟨runner, by rw [hpast]; exact List.mem_append_right _ hran⟩
    cases hstep with
    | idle =>
        exact hkept thread hreturned
    | proceeded _ stage progress rest _ htakes =>
        rcases List.mem_append.1 hreturned with hnew | hold
        · exact htakes.ran_of_ranJob hnew
        · exact hkept thread hold
    | _ =>
        exact hkept thread (by simpa using hreturned)

/-- When the job has returned, the launcher has been left as often as it was entered. -/
theorem exits_of_ranJob {host : PluginHost} {settings : List Setting}
    {schedule : List Adapter.Turn} {thread : Nat}
    (hreturned : .returned thread .ranJob ∈ ((new host settings).run schedule).past) :
    ((new host settings).run schedule).exits = ((new host settings).run schedule).entries := by
  rcases ran_of_ranJob host settings schedule thread hreturned with ⟨runner, hran⟩
  have hlone := runCalls_le_one host settings schedule
  rcases (lawful host settings schedule).exists_past with ⟨turns, hpast⟩
  rw [hpast] at hran hlone
  have hexits := Worker.Shared.exits_of_lone_run hlone hran
  rw [exits, entries, hpast]
  exact hexits

end Hosted

namespace Bundled

/-! ## What a host relies on -/

/-- A shutdown has returned, and the job has ended. -/
def Over (bundled : Bundled) : Prop :=
  (∃ thread found, .returned thread (.shutDown found) ∈ bundled.hosted.past) ∧
    ∃ thread, .returned thread .ranJob ∈ bundled.hosted.past

/-- Nothing is left of the launcher's files.  In the registry, others may have had entries of the same
names. -/
structure Clean (others : List Path) (bundled : Bundled) : Prop where
  unlisted : bundled.extracted = []
  unlinked : ∀ path ∈ bundled.made, bundled.world.pathExists path = false
  unregistered : ∀ path ∈ bundled.made,
    bundled.world.pending.countP (·.sameComponents path) =
      others.countP (·.sameComponents path)

def LeavesNothing (others : List Path) (bundled : Bundled) : Prop :=
  bundled.Over → Clean others bundled

/-- The path that was recorded last, if nothing has been released since. -/
def unreleased? : List Deed → Option Path
  | [] => none
  | .made _ :: past => unreleased? past
  | .recorded path :: _ => some path
  | .released :: _ => none

/-- It is over, but a file was recorded after the last release. -/
def Outlived (bundled : Bundled) : Prop :=
  bundled.Over ∧ ∃ path, unreleased? bundled.past = some path

/-! ## What becomes of a file -/

/-- The launcher has made a file, which is there and registered. -/
structure Held (others : List Path) (path : Path) (world : World) (past : List Deed) : Prop where
  made : past.filterMap Deed.made? = [path]
  named : ∃ place content, world.files.Names world.workingDirectory path place content
  pending : world.pending = others ++ [path]

/-- The file that the launcher has made has gone again. -/
structure Freed (others : List Path) (path : Path) (world : World) (past : List Deed) : Prop where
  made : past.filterMap Deed.made? = [path]
  free : ∃ place, world.files.Frees world.workingDirectory path place
  pending : world.pending.countP (·.sameComponents path) =
    others.countP (·.sameComponents path)

/-- What is on the launcher's list is what was recorded and has not been released. -/
structure Lists (entry : Option Path) (extracted : List Path) (past : List Deed) : Prop where
  extracted : extracted = entry.toList
  unreleased : unreleased? past = entry

def isEarly : LaunchStage → Bool
  | .extract _ => true
  | .back _ => true
  | _ => false

def isLate : LaunchStage → Bool
  | .load _ _ => true
  | .call => true
  | .back _ => true
  | _ => false

/-- What has become of the launcher's file.  While it is registered and not recorded, the launch that
made it is about to record it. -/
inductive Phase (others : List Path) (bundled : Bundled) : Prop
  | unmade (empty : bundled.made = []) (pending : bundled.world.pending = others)
      (lists : Lists none bundled.extracted bundled.past)
      (early : ∀ launch ∈ bundled.launches, isEarly launch.2 = true)
  | registered (path : Path) (thread : Nat) (invocation : Invocation)
      (held : Held others path bundled.world bundled.past)
      (lists : Lists none bundled.extracted bundled.past)
      (ahead : bundled.launches = [(thread, .record path invocation)])
  | recorded (path : Path) (held : Held others path bundled.world bundled.past)
      (lists : Lists (some path) bundled.extracted bundled.past)
      (late : ∀ launch ∈ bundled.launches, isLate launch.2 = true)
  | gone (path : Path) (freed : Freed others path bundled.world bundled.past)
      (lists : Lists none bundled.extracted bundled.past)
      (late : ∀ launch ∈ bundled.launches, isLate launch.2 = true)

namespace Phase

variable {others : List Path} {bundled : Bundled}

theorem follow (h : Phase others bundled) (hosted : Hosted) {begun : List (Nat × LaunchStage)}
    (hbegun : ∀ launch ∈ begun, isEarly launch.2 = true)
    (hnone : bundled.made ≠ [] → begun = []) :
    Phase others { bundled with hosted := hosted, launches := begun ++ bundled.launches } := by
  -- A launch begins only while no file has been made.
  have hsame : ∀ path, bundled.made = [path] → begun ++ bundled.launches = bundled.launches := by
    intro path hmade
    rw [hnone (by simp [hmade]), List.nil_append]
  cases h with
  | unmade hmade hpending hlists hearly =>
      refine .unmade hmade hpending hlists ?_
      intro launch hlaunch
      rcases List.mem_append.1 hlaunch with hnew | hold
      · exact hbegun launch hnew
      · exact hearly launch hold
  | registered path thread invocation hheld hlists hahead =>
      rw [hsame path hheld.made]
      exact .registered path thread invocation hheld hlists hahead
  | recorded path hheld hlists hlate =>
      rw [hsame path hheld.made]
      exact .recorded path hheld hlists hlate
  | gone path hfreed hlists hlate =>
      rw [hsame path hfreed.made]
      exact .gone path hfreed hlists hlate

theorem release (h : Phase others bundled) : Phase others bundled.release := by
  -- Unless the file is on the list, a release does nothing.
  have hnothing : bundled.extracted = [] →
      bundled.release = { bundled with past := .released :: bundled.past } := by
    intro hempty
    simp [Bundled.release, World.releaseArtifacts, hempty, World.releaseEach]
  cases h with
  | unmade hmade hpending hlists hearly =>
      rw [hnothing hlists.extracted]
      exact .unmade hmade hpending ⟨hlists.extracted, rfl⟩ hearly
  | registered path thread invocation hheld hlists hahead =>
      rw [hnothing hlists.extracted]
      exact .registered path thread invocation ⟨hheld.made, hheld.named, hheld.pending⟩
        ⟨hlists.extracted, rfl⟩ hahead
  | recorded path hheld hlists hlate =>
      rcases hheld.named with ⟨place, content, hnames⟩
      have halike : path.sameComponents path = true := by simp [Path.sameComponents]
      have hlisted : path ∈ bundled.world.pending := by simp [hheld.pending]
      rcases Registry.releaseExtracted_of_names hnames hlisted halike with
        ⟨after, hdone, hafter, hcount⟩
      have hrelease : bundled.release =
          { bundled with world := after, extracted := [], past := .released :: bundled.past } := by
        simp [Bundled.release, World.releaseArtifacts, hlists.extracted, World.releaseEach, hdone]
      rw [hrelease]
      refine .gone path ⟨hheld.made, ⟨place, ?_⟩, ?_⟩ ⟨rfl, rfl⟩ hlate
      · rw [hafter]
        exact hnames.frees_erase
      · simp only [hheld.pending, List.countP_append, List.countP_singleton, halike, if_true]
          at hcount
        exact (Nat.add_right_cancel hcount).symm
  | gone path hfreed hlists hlate =>
      rw [hnothing hlists.extracted]
      exact .gone path ⟨hfreed.made, hfreed.free, hfreed.pending⟩ ⟨hlists.extracted, rfl⟩ hlate

/-- A launch that nobody else makes takes a step. -/
theorem launched (h : Phase others bundled) {bundle : Bundle} {thread : Nat} {stage : LaunchStage}
    {progress : LaunchProgress} (halone : bundled.launches = [(thread, stage)])
    (htakes : stage.Takes bundle bundled.world bundled.extracted progress) :
    Phase others
      ⟨bundled.hosted, progress.world, progress.extracted, [(thread, progress.next)],
        progress.deeds ++ bundled.past⟩ := by
  -- The stages that the phase allows leave few steps.
  cases h with
  | unmade hmade hpending hlists hearly =>
      have hstage : isEarly stage = true := hearly (thread, stage) (by simp [halone])
      cases htakes with
      | extracted invocation path content after hequips =>
          refine .registered path thread invocation ⟨?_, ?_, ?_⟩ ⟨hlists.extracted, ?_⟩ rfl
          · have hpast : bundled.past.filterMap Deed.made? = [] := hmade
            simp [Deed.made?, hpast]
          · rcases hequips.named with ⟨place, hnames⟩
            exact ⟨place, content, hnames⟩
          · rw [hequips.pending_eq, hpending]
          · exact hlists.unreleased
      | unextracted invocation failure after hnames =>
          refine .unmade hmade ?_ hlists (by simp [isEarly])
          rw [show after = _ from hnames]
          exact hpending
      | wait stage =>
          exact .unmade hmade hpending hlists (by simpa using hstage)
      | _ =>
          cases hstage
  | registered path _ invocation hheld hlists hahead =>
      rw [halone] at hahead
      cases hahead
      cases htakes with
      | record =>
          refine .recorded path ⟨hheld.made, hheld.named, hheld.pending⟩ ⟨?_, rfl⟩
            (by simp [isLate])
          simp [hlists.extracted]
      | wait =>
          exact .registered path thread invocation hheld hlists rfl
  | recorded path hheld hlists hlate =>
      have hstage : isLate stage = true := hlate (thread, stage) (by simp [halone])
      cases htakes with
      | wait stage =>
          exact .recorded path hheld hlists (by simpa using hstage)
      | called path invocation block =>
          exact .recorded _ ⟨hheld.made, hheld.named, hheld.pending⟩ hlists (by simp [isLate])
      | uncalled | answered =>
          exact .recorded path hheld hlists (by simp [isLate])
      | _ =>
          cases hstage
  | gone path hfreed hlists hlate =>
      have hstage : isLate stage = true := hlate (thread, stage) (by simp [halone])
      cases htakes with
      | wait stage =>
          exact .gone path hfreed hlists (by simpa using hstage)
      | called path invocation block =>
          exact .gone _ ⟨hfreed.made, hfreed.free, hfreed.pending⟩ hlists (by simp [isLate])
      | uncalled | answered =>
          exact .gone path hfreed hlists (by simp [isLate])
      | _ =>
          cases hstage

theorem cameBack (h : Phase others bundled) (hosted : Hosted) {thread : Nat}
    {result : Except Failure ExitStatus} {rest : List (Nat × LaunchStage)}
    (hperm : bundled.launches.Perm ((thread, .back result) :: rest)) :
    Phase others { bundled with hosted := hosted, launches := rest } := by
  have hrest : ∀ launch ∈ rest, launch ∈ bundled.launches := by
    intro launch hlaunch
    exact hperm.mem_iff.2 (List.mem_cons_of_mem _ hlaunch)
  cases h with
  | unmade hmade hpending hlists hearly =>
      exact .unmade hmade hpending hlists fun launch hlaunch => hearly launch (hrest launch hlaunch)
  | registered path _ invocation hheld hlists hahead =>
      -- The launch that is about to record is not over.
      have hback := hperm.mem_iff.2 List.mem_cons_self
      simp [hahead] at hback
  | recorded path hheld hlists hlate =>
      exact .recorded path hheld hlists fun launch hlaunch => hlate launch (hrest launch hlaunch)
  | gone path hfreed hlists hlate =>
      exact .gone path hfreed hlists fun launch hlaunch => hlate launch (hrest launch hlaunch)

theorem outside (h : Phase others bundled) {files : FileTree}
    (hspared : ∀ path ∈ bundled.made, ∀ follow,
      files.resolve bundled.world.workingDirectory follow path =
        bundled.world.files.resolve bundled.world.workingDirectory follow path) :
    Phase others { bundled with world := { bundled.world with files := files } } := by
  have hheld : ∀ path, Held others path bundled.world bundled.past →
      Held others path { bundled.world with files := files } bundled.past := by
    intro path hheld
    rcases hheld.named with ⟨place, content, hbare, hnamed⟩
    refine ⟨hheld.made, ⟨place, content, hbare, ?_⟩, hheld.pending⟩
    intro follow
    rw [← hnamed follow]
    exact hspared path (by simp [made, hheld.made]) follow
  cases h with
  | unmade hmade hpending hlists hearly =>
      exact .unmade hmade hpending hlists hearly
  | registered path thread invocation hfile hlists hahead =>
      exact .registered path thread invocation (hheld path hfile) hlists hahead
  | recorded path hfile hlists hlate =>
      exact .recorded path (hheld path hfile) hlists hlate
  | gone path hfreed hlists hlate =>
      rcases hfreed.free with ⟨place, hbare, directory, name, hplace, hvacant⟩
      refine .gone path ⟨hfreed.made, ⟨place, hbare, directory, name, hplace, ?_⟩, hfreed.pending⟩
        hlists hlate
      rw [← hvacant]
      exact hspared path (by simp [made, hfreed.made]) false

end Phase

/-! ## Over whole schedules -/

/-- An adapter and its launcher after some schedule. -/
structure Lawful (host : PluginHost) (settings : List Setting) (others : List Path)
    (bundled : Bundled) : Prop where
  reachable : ∃ schedule, bundled.hosted = (Hosted.new host settings).run schedule
  balance : bundled.launches.length + bundled.hosted.exits ≤ bundled.hosted.entries
  -- A file is made by a launch.
  paid : bundled.made ≠ [] → 0 < bundled.hosted.entries
  phase : Phase others bundled

section Lawful

variable {host : PluginHost} {settings : List Setting} {others : List Path}
  {before after : Bundled}

theorem Lawful.step_hosted (h : Lawful host settings others before) (turn : Adapter.Turn) :
    (∃ schedule, before.hosted.step turn = (Hosted.new host settings).run schedule) ∧
      (before.hosted.step turn).entries ≤ 1 ∧
        before.hosted.entries ≤ (before.hosted.step turn).entries := by
  rcases h.reachable with ⟨schedule, hschedule⟩
  have hstep : before.hosted.step turn =
      (Hosted.new host settings).run (schedule ++ [turn]) := by
    rw [Hosted.run_concat, hschedule]
  rcases before.hosted.exists_past_step turn with ⟨events, hpast⟩
  refine ⟨⟨_, hstep⟩, ?_, ?_⟩
  · rw [hstep]
    exact Hosted.entries_le_one host settings _
  · simp [Hosted.entries, hpast, List.countP_append]

theorem Lawful.alone (h : Lawful host settings others before) {thread : Nat} {stage : LaunchStage}
    {rest : List (Nat × LaunchStage)}
    (hperm : before.launches.Perm ((thread, stage) :: rest)) :
    rest = [] ∧ 0 < before.hosted.entries := by
  -- There is one launch at most.
  rcases h.reachable with ⟨schedule, hschedule⟩
  have hentries := Hosted.entries_le_one host settings schedule
  rw [← hschedule] at hentries
  have hbalance := h.balance
  rw [hperm.length_eq, List.length_cons] at hbalance
  refine ⟨List.eq_nil_of_length_eq_zero ?_, ?_⟩
  · omega
  · omega

/-- The adapter moves on. -/
theorem Lawful.follow (h : Lawful host settings others before) (turn : Adapter.Turn)
    (hinside : (before.hosted.step turn).exits = before.hosted.exits) :
    Lawful host settings others (before.follow (before.hosted.step turn)) := by
  rcases h.step_hosted turn with ⟨hreachable, hone, hmono⟩
  rcases before.hosted.exists_past_step turn with ⟨events, hpast⟩
  have hbalance := h.balance
  have hsince : since before.hosted.cells.past (before.hosted.step turn).cells.past = events := by
    simp [since, hpast]
  have hbegun : (events.filterMap LaunchStage.begun?).length + before.hosted.entries =
      (before.hosted.step turn).entries := by
    have hkinds : (fun event => (LaunchStage.begun? event).isSome) = Worker.Event.isEntry := by
      funext event
      cases event <;> rfl
    rw [Hosted.entries, Hosted.entries, hpast, List.countP_append,
      List.length_filterMap_eq_countP, hkinds]
  have hfollow : before.follow (before.hosted.step turn) =
      { before with
        hosted := before.hosted.step turn
        launches := events.filterMap LaunchStage.begun? ++ before.launches } := by
    rw [Bundled.follow, hsince]
  rw [hfollow]
  refine ⟨hreachable, ?_, ?_, ?_⟩
  · simp only [List.length_append, hinside]
    omega
  · intro hmade
    exact Nat.lt_of_lt_of_le (h.paid hmade) hmono
  · apply h.phase.follow
    · intro launch hlaunch
      rcases List.mem_filterMap.1 hlaunch with ⟨event, _, hevent⟩
      cases event with
      | entered thread invocation =>
          cases hevent
          rfl
      | _ =>
          cases hevent
    -- A second launch would be one too many.
    · intro hmade
      have hpaid := h.paid hmade
      exact List.eq_nil_of_length_eq_zero (by omega)

theorem Lawful.release (h : Lawful host settings others before) :
    Lawful host settings others before.release :=
  ⟨h.reachable, h.balance, h.paid, h.phase.release⟩

theorem Stepped.lawful {bundle : Bundle} (h : Stepped bundle before after)
    (hbefore : Lawful host settings others before) : Lawful host settings others after := by
  cases h with
  | idle =>
      exact hbefore
  | moved turn hinside =>
      exact hbefore.follow turn hinside
  | released turn hinside =>
      exact (hbefore.follow turn hinside).release
  | launched thread stage progress rest hperm htakes =>
      rcases hbefore.alone hperm with ⟨rfl, hentered⟩
      have hbalance := hbefore.balance
      rw [hperm.length_eq] at hbalance
      exact ⟨hbefore.reachable, hbalance, fun _ => hentered,
        hbefore.phase.launched (List.perm_singleton.1 hperm) htakes⟩
  | cameBack thread result rest hperm hleft =>
      rcases hbefore.step_hosted (.comeBack thread result) with ⟨hreachable, _, hmono⟩
      have hbalance := hbefore.balance
      rw [hperm.length_eq, List.length_cons] at hbalance
      refine ⟨hreachable, ?_, ?_, hbefore.phase.cameBack _ hperm⟩
      · change rest.length + (before.hosted.step _).exits ≤ _
        rw [hleft]
        exact Nat.le_trans (by omega) hmono
      · intro hmade
        exact Nat.lt_of_lt_of_le (hbefore.paid hmade) hmono
  | outside files hspared =>
      exact ⟨hbefore.reachable, hbefore.balance, hbefore.paid, hbefore.phase.outside hspared⟩

/-- Once the job has ended, no launch is in progress. -/
theorem Lawful.launches_of_over (h : Lawful host settings others before) (hover : before.Over) :
    before.launches = [] := by
  rcases h.reachable with ⟨schedule, hschedule⟩
  rcases hover.2 with ⟨thread, hreturned⟩
  have hbalance := h.balance
  rw [hschedule] at hreturned hbalance
  rw [Hosted.exits_of_ranJob hreturned] at hbalance
  exact List.eq_nil_of_length_eq_zero (by omega)

end Lawful

section Schedules

variable {Library : Type} (loader : Loader Library) (bundle : Bundle) (host : PluginHost)
  (settings : List Setting) (world : World) (schedule : List Turn)

theorem lawful :
    Lawful host settings world.pending
      ((new host settings world).run loader bundle schedule) := by
  refine run_induction loader bundle host settings world ?_ ?_ schedule
  · refine ⟨⟨[], rfl⟩, Nat.le_refl 0, ?_, ?_⟩
    · intro hmade
      exact absurd rfl hmade
    · refine .unmade rfl rfl ⟨rfl, rfl⟩ ?_
      intro launch hlaunch
      cases hlaunch
  · intro before after hstep hbefore
    exact hstep.lawful hbefore

/-- When it is over, a shutdown has left nothing behind but where a file was recorded after the last
release. -/
theorem leavesNothing_iff :
    LeavesNothing world.pending ((new host settings world).run loader bundle schedule) ↔
      ¬ Outlived ((new host settings world).run loader bundle schedule) := by
  have hlawful := lawful loader bundle host settings world schedule
  generalize (new host settings world).run loader bundle schedule = bundled at hlawful
  constructor
  · rintro hnothing ⟨hover, path, hpath⟩
    have hempty := (hnothing hover).unlisted
    cases hlawful.phase with
    | recorded _ _ hlists _ =>
        rw [hlists.extracted] at hempty
        cases hempty
    | unmade _ _ hlists _ =>
        rw [hlists.unreleased] at hpath
        cases hpath
    | registered _ _ _ _ hlists _ =>
        rw [hlists.unreleased] at hpath
        cases hpath
    | gone _ _ hlists _ =>
        rw [hlists.unreleased] at hpath
        cases hpath
  · intro hclear hover
    have hended := hlawful.launches_of_over hover
    cases hlawful.phase with
    | unmade hmade _ hlists _ =>
        refine ⟨hlists.extracted, ?_, ?_⟩ <;> simp [hmade]
    | registered _ _ _ _ _ hahead =>
        rw [hended] at hahead
        cases hahead
    | recorded path _ hlists _ =>
        exact absurd ⟨hover, path, hlists.unreleased⟩ hclear
    | gone path hfreed hlists _ =>
        rcases hfreed.free with ⟨place, hfrees⟩
        refine ⟨hlists.extracted, ?_, ?_⟩
        · simp [made, hfreed.made, World.pathExists, FileTree.pathExists, hfrees.find_error,
            Except.isOk, Except.toBool]
        · simpa [made, hfreed.made] using hfreed.pending

end Schedules

/-! ## Releases that come too early -/

theorem step_extract {Library : Type} (loader : Loader Library) {bundle : Bundle}
    {bundled : Bundled} {world after : World} {artifact : Artifact} {thread : Nat}
    {invocation : Invocation} (hworld : bundled.world = world)
    (hlaunches : bundled.launches = [(thread, .extract invocation)])
    (hresult : world.resolveAndExtract bundle = (.ok artifact, after)) :
    bundled.step loader bundle (.launch thread) =
      ⟨bundled.hosted, after, bundled.extracted,
        [(thread, .record artifact.temporaryFilePath invocation)],
        .made artifact.temporaryFilePath :: bundled.past⟩ := by
  simp [step, hlaunches, hworld, LaunchStage.advance, hresult, proceed]

/-- It is over, and a file is still on the launcher's list. -/
theorem not_leavesNothing {others : List Path} {bundled : Bundled} {path : Path}
    {thread runner i j : Nat} {found : Bool}
    (hrun : bundled.hosted.past[i]? = some (.returned thread (.shutDown found)) ∧
      bundled.hosted.past[j]? = some (.returned runner .ranJob) ∧ bundled.extracted = [path]) :
    ¬ LeavesNothing others bundled := by
  rcases hrun with ⟨hshutDown, hended, hlisted⟩
  intro hnothing
  have hover : bundled.Over :=
    ⟨⟨thread, found, List.mem_of_getElem? hshutDown⟩, runner, List.mem_of_getElem? hended⟩
  have hempty := (hnothing hover).unlisted
  rw [hlisted] at hempty
  cases hempty

/-- A shutdown, from its first step to its last. -/
def shuttingDown : List Turn :=
  (Adapter.Turn.call 2 .shutdown :: List.replicate 8 (.advance 2)).map .host

/-- An init, and the job that it submits, up to its entry into the launcher. -/
def launching : List Turn :=
  ([Adapter.Turn.call 0 .init, .advance 0] ++ Hosted.launchedInit).map .host

/-- The rest of a launch that has made its file, and of the job. -/
def returning : List Turn :=
  [.launch 1, .launch 1, .answer 1 0, .launch 1] ++ List.replicate 6 (.host (.advance 1))

/-- A shutdown misses the file if it releases between the making of the file and its recording, or
before the init. -/
theorem outlived_earlyRelease :
    ¬ LeavesNothing []
        ((new ⟨"proxy", .ofString "data"⟩ [] World.furnished).run (World.answering 0)
          World.provisions (launching ++ .launch 1 :: (shuttingDown ++ returning))) ∧
      ¬ LeavesNothing []
        ((new ⟨"proxy", .ofString "data"⟩ [] World.furnished).run (World.answering 0)
          World.provisions (shuttingDown ++ launching ++ .launch 1 :: returning)) := by
  have hok : (World.furnished.resolveAndExtract World.provisions).1.isOk = true := by
    have hresolved : World.furnished.host.resolve =
        .ok ⟨.linux, "x86_64", "lib", ".so", "/linux/x86_64/libpico_limbo.so"⟩ := rfl
    simp only [World.resolveAndExtract, hresolved]
    cbv
  obtain ⟨artifact, after, hresult⟩ : ∃ artifact after,
      World.furnished.resolveAndExtract World.provisions = (.ok artifact, after) := by
    cases hresult : World.furnished.resolveAndExtract World.provisions with
    | mk answer after =>
        cases answer with
        | ok artifact =>
            exact ⟨artifact, after, rfl⟩
        | error failure =>
            rw [hresult] at hok
            cases hok
  constructor
  · rw [run_append, run_cons, step_extract (World.answering 0) (by cbv) (by cbv) hresult]
    refine not_leavesNothing (?_ : _[1]? = some (Event.returned 2 (.shutDown true)) ∧
      _[0]? = some (Event.returned 1 .ranJob) ∧ _ = [artifact.temporaryFilePath])
    cbv
  · rw [run_append, run_cons, step_extract (World.answering 0) (by cbv) (by cbv) hresult]
    refine not_leavesNothing (?_ : _[7]? = some (Event.returned 2 (.shutDown false)) ∧
      _[0]? = some (Event.returned 1 .ranJob) ∧ _ = [artifact.temporaryFilePath])
    cbv

end Bundled
end Adapter
end NativeLaunch
