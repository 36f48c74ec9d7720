import Mathlib.Data.List.Induction
import NativeLaunch.Proofs.Frames
import NativeLaunch.Proofs.Launch.Extraction
import NativeLaunch.Proofs.Registry.Calls

/-!
# Interleavings of extractions, releases and cleanups

Any number of extractions, releases and cleanups are in progress at a time, and their steps
interleave in any order.  In between, others do to the files what they like.  This file defines:

* `Shared` — the surroundings with the calls in progress and all that has happened;
* `Turn` — a call begins or takes its next step, the generator of names hands one out, or has no more
  to hand out, or others change the files;
* `Shared.step` and `Shared.run` — what a turn does, and a whole schedule of them.

A turn that cannot be taken changes nothing, so that every list of turns is a schedule.  The last
section ties the steps to the functions of `World`: a call that nobody interferes with does what the
function of its name does.
-/

namespace NativeLaunch
namespace Registry

/-- The surroundings, the calls in progress and the events so far, the latest first. -/
structure Shared where
  world : World
  calls : List (Nat × Stage) := []
  past : List Event := []

inductive Turn
  | call (caller : Nat) (call : Call)
  | advance (caller : Nat)
  | name (caller : Nat) (path : Path)
  | giveUp (caller : Nat) (kind : FaultKind)
  | outside (files : FileTree)

namespace Shared

/-- A process that has just started, with nothing registered. -/
def new (world : World) : Shared := { world := { world with pending := [] } }

def stages (shared : Shared) : List Stage := shared.calls.map Prod.snd

/-- A call makes progress.  It goes to the front; the order of calls does not matter. -/
def proceed (shared : Shared) (caller : Nat) (progress : Progress) : Shared where
  world := progress.world
  calls := progress.next.toList.map (Prod.mk caller) ++
    shared.calls.eraseP fun call => caller == call.1
  past := progress.events ++ shared.past

/-- What a turn does. -/
def step (shared : Shared) : Turn → Shared
  | .call caller call =>
    match shared.calls.lookup caller with
    | some _ => shared
    | none =>
      { shared with
        calls := (caller, call.first) :: shared.calls
        past := .called caller call :: shared.past }
  | .advance caller =>
    match shared.calls.lookup caller with
    | some stage => shared.proceed caller (stage.advance caller shared.world)
    | none => shared
  | .name caller path =>
    match shared.calls.lookup caller with
    | some (.naming descriptor stream) =>
      shared.proceed caller (named caller descriptor stream path shared.world)
    | _ => shared
  | .giveUp caller kind =>
    match shared.calls.lookup caller with
    | some (.naming descriptor _) =>
      shared.proceed caller (unnamed caller descriptor kind shared.world)
    | _ => shared
  | .outside files => { shared with world := { shared.world with files := files } }

/-- What a schedule does. -/
def run (shared : Shared) (schedule : List Turn) : Shared := schedule.foldl step shared

@[simp] theorem run_nil (shared : Shared) : shared.run [] = shared := rfl

@[simp] theorem run_cons (shared : Shared) (turn : Turn) (schedule : List Turn) :
    shared.run (turn :: schedule) = (shared.step turn).run schedule := rfl

theorem run_append (shared : Shared) (first second : List Turn) :
    shared.run (first ++ second) = (shared.run first).run second :=
  List.foldl_append

theorem run_concat (shared : Shared) (schedule : List Turn) (turn : Turn) :
    shared.run (schedule ++ [turn]) = (shared.run schedule).step turn := by
  simp [run_append]

/-! ## One turn -/

/-- A turn does nothing, begins a call, changes the files, or lets a call take a step. -/
inductive Stepped (before : Shared) : Shared → Prop
  | idle : Stepped before before
  | called (caller : Nat) (call : Call) :
      Stepped before
        { before with
          calls := (caller, call.first) :: before.calls
          past := .called caller call :: before.past }
  | changed (files : FileTree) :
      Stepped before { before with world := { before.world with files := files } }
  | proceeded (caller : Nat) (stage : Stage) (progress : Progress) (rest : List (Nat × Stage))
      (perm : before.calls.Perm ((caller, stage) :: rest))
      (takes : stage.Takes caller before.world progress) :
      Stepped before
        ⟨progress.world, progress.next.toList.map (Prod.mk caller) ++ rest,
          progress.events ++ before.past⟩

theorem stepped_proceed {shared : Shared} {caller : Nat} {stage : Stage} {progress : Progress}
    (hlatest : shared.calls.lookup caller = some stage)
    (htakes : stage.Takes caller shared.world progress) :
    Stepped shared (shared.proceed caller progress) :=
  .proceeded caller stage progress _ (perm_of_lookup hlatest) htakes

theorem stepped (shared : Shared) (turn : Turn) : Stepped shared (shared.step turn) := by
  cases turn with
  | call caller call =>
      simp only [step]
      split
      · exact .idle
      · exact .called caller call
  | advance caller =>
      simp only [step]
      split
      · rename_i stage hlatest
        exact stepped_proceed hlatest (stage.takes_advance caller shared.world)
      · exact .idle
  | name caller path =>
      simp only [step]
      split
      · rename_i descriptor stream hlatest
        exact stepped_proceed hlatest (takes_named caller shared.world descriptor stream path)
      · exact .idle
  | giveUp caller kind =>
      simp only [step]
      split
      · rename_i descriptor stream hlatest
        exact stepped_proceed hlatest (.unnamed descriptor stream kind)
      · exact .idle
  | outside files =>
      exact .changed files

/-- What holds at the start and is kept by every turn holds after every schedule. -/
theorem run_induction {motive : Shared → Prop} (world : World) (start : motive (new world))
    (turn : ∀ before after, Stepped before after → motive before → motive after)
    (schedule : List Turn) : motive ((new world).run schedule) := by
  induction schedule using List.reverseRecOn with
  | nil =>
      exact start
  | append_singleton schedule last ih =>
      rw [run_concat]
      exact turn _ _ (stepped _ last) ih

/-! ## Calls that nobody interferes with -/

section Alone

variable (world : World) (caller : Nat) (past : List Event)

theorem run_release_alone (path : Path) :
    ∃ events, (mk world [] past).run [.call caller (.release path), .advance caller] =
      ⟨(world.releaseExtracted path).2, [],
        .returned caller (.released path (world.releaseExtracted path).1) :: events⟩ := by
  refine ⟨.called caller (.release path) :: past, ?_⟩
  simp [step, Call.first, proceed, Stage.advance, returns]

theorem run_deleting_alone (todo : List Path) (count : Nat) :
    ∃ turns events, (mk world [(caller, .deleting todo count)] past).run turns =
      ⟨(world.unlinkEach todo).2, [],
        .returned caller (.cleaned (count + (world.unlinkEach todo).1)) :: events⟩ := by
  -- On the paths that the cleanup has left: it counts one or drops it, and goes on with the rest.
  induction todo generalizing world past count with
  | nil =>
      refine ⟨[.advance caller], past, ?_⟩
      simp [step, proceed, Stage.advance, returns, World.unlinkEach]
  | cons path rest ih =>
      cases hunlink : world.unlink path with
      | mk answer unlinked =>
          cases answer with
          | ok done =>
              rcases ih unlinked (.counted caller path :: past) (count + 1) with
                ⟨turns, events, hturns⟩
              refine ⟨.advance caller :: turns, events, ?_⟩
              simp [step, proceed, Stage.advance, World.unlinkEach, hunlink, hturns]
              omega
          | error kind =>
              rcases ih world (.dropped caller path :: past) count with ⟨turns, events, hturns⟩
              refine ⟨.advance caller :: turns, events, ?_⟩
              simp [step, proceed, Stage.advance, World.unlinkEach, hunlink, hturns]

theorem run_cleanUp_alone :
    ∃ turns events, (mk world [] past).run (.call caller .cleanUp :: turns) =
      ⟨world.runExitCleanup.2, [],
        .returned caller (.cleaned world.runExitCleanup.1) :: events⟩ := by
  rcases run_deleting_alone { world with pending := [] } caller (.called caller .cleanUp :: past)
    world.pending 0 with ⟨turns, events, hturns⟩
  refine ⟨.advance caller :: turns, events, ?_⟩
  simp only [run_cons]
  simpa [step, Call.first, proceed, Stage.advance, World.runExitCleanup] using hturns

/-- The generator of names hands out those that an extraction by itself would try in a directory. -/
theorem run_naming_within_alone (directory : Path) (descriptor : PlatformDescriptor)
    (stream : Stream) (attempts : Nat) :
    ∃ turns events, (mk world [(caller, .naming descriptor stream)] past).run turns =
      match World.createTemporaryWithin directory Platform.libraryName descriptor.fileExtension
        attempts world with
      | (.error fault, after) =>
        ⟨after, [], .returned caller (.extracted (.error (.extraction descriptor.resourceSubpath
          world.temporaryDirectory fault))) :: events⟩
      | (.ok (path, place), after) =>
        ⟨after, [(caller, .filling descriptor.resourceSubpath path place stream)], events⟩ := by
  induction attempts generalizing world past with
  | zero =>
      -- The names are used up, and the generator says so.
      refine ⟨[.giveUp caller .alreadyExists], past, ?_⟩
      simp [step, proceed, unnamed, returns, World.createTemporaryWithin]
  | succ attempts ih =>
      rw [World.createTemporaryWithin]
      generalize hpath : directory.join
        ⟨TemporaryName.spell Platform.libraryName descriptor.fileExtension world.serial⟩ = path
      cases hnew : world.files.createNew world.workingDirectory path with
      | mk answer files =>
          cases answer with
          | ok place =>
              refine ⟨[.name caller path], .named caller path :: past, ?_⟩
              simp [step, proceed, named, World.withFiles, hnew]
          | error kind =>
              by_cases htaken : kind = .alreadyExists
              -- The name is taken, and the extraction is where it was, with the next one to come.
              · subst htaken
                rcases ih { world with serial := world.serial + 1 } (.named caller path :: past) with
                  ⟨turns, events, hturns⟩
                refine ⟨.name caller path :: turns, events, ?_⟩
                simpa [step, proceed, named, World.withFiles, hnew] using hturns
              · refine ⟨[.name caller path], .named caller path :: past, ?_⟩
                cases kind <;> simp_all [step, proceed, named, World.withFiles]

/-- Without a directory to look in, the generator has no name to hand out. -/
theorem run_naming_alone (descriptor : PlatformDescriptor) (stream : Stream) :
    ∃ turns events, (mk world [(caller, .naming descriptor stream)] past).run turns =
      match world.createTemporary Platform.libraryName descriptor.fileExtension with
      | (.error fault, after) =>
        ⟨after, [], .returned caller (.extracted (.error (.extraction descriptor.resourceSubpath
          world.temporaryDirectory fault))) :: events⟩
      | (.ok (path, place), after) =>
        ⟨after, [(caller, .filling descriptor.resourceSubpath path place stream)], events⟩ := by
  unfold World.createTemporary
  cases Path.seenFrom? world.currentDirectory? world.temporaryDirectory with
  | none =>
      refine ⟨[.giveUp caller .notFound], past, ?_⟩
      simp [step, proceed, unnamed, returns]
  | some directory =>
      exact run_naming_within_alone world caller past directory descriptor stream _

/-- A file that was just made still stands when it is filled. -/
theorem run_filling_alone {made : World} {path : Path} {place : Location}
    (hmakes : World.MakesFile world path place made) (resource : String) (stream : Stream) :
    ∃ turns events, (mk made [(caller, .filling resource path place stream)] past).run turns =
      match World.copy made.medium [] stream with
      | .error fault =>
        ⟨(made.unlink path).2, [],
          .returned caller (.extracted (.error (.extraction resource path fault))) :: events⟩
      | .ok content =>
        ⟨World.register { made with files := made.files.insert place (.file content) } path, [],
          .returned caller (.extracted (.ok ⟨resource, path⟩)) :: events⟩ := by
  refine ⟨[.advance caller, .advance caller], past, ?_⟩
  cases hcopied : World.copy made.medium [] stream with
  | error fault =>
      simp [step, proceed, Stage.advance, returns, hcopied]
  | ok content =>
      -- Nobody has come between, so that what is copied has somewhere to go.
      have hfile : made.files.node? place = some (.file []) := by
        rw [hmakes.made]
        exact (hmakes.free.names_insert []).node?_eq_some
      simp [step, proceed, Stage.advance, returns, hcopied, fill, hfile]

theorem run_extract_alone (bundle : Bundle) (descriptor : PlatformDescriptor) :
    ∃ turns events, (mk world [] past).run (.call caller (.extract bundle descriptor) :: turns) =
      ⟨(world.extract bundle descriptor).2, [],
        .returned caller (.extracted (world.extract bundle descriptor).1) :: events⟩ := by
  simp only [World.extract]
  cases hopened : bundle.openResource world.files world.workingDirectory
      descriptor.resourceSubpath with
  | error fault =>
      refine ⟨[.advance caller], .called caller (.extract bundle descriptor) :: past, ?_⟩
      simp [step, Call.first, proceed, Stage.advance, returns, hopened]
  | ok opened =>
      cases opened with
      | none =>
          refine ⟨[.advance caller], .called caller (.extract bundle descriptor) :: past, ?_⟩
          simp [step, Call.first, proceed, Stage.advance, returns, hopened]
      | some stream =>
          rcases run_naming_alone world caller (.called caller (.extract bundle descriptor) :: past)
            descriptor stream with ⟨turns, events, hturns⟩
          -- The names are tried from where the opened resource has brought the call.
          have hbegun : ∀ later,
              (mk world [] past).run
                (.call caller (.extract bundle descriptor) :: .advance caller :: later) =
              (mk world [(caller, .naming descriptor stream)]
                (.called caller (.extract bundle descriptor) :: past)).run later := by
            intro later
            simp [step, Call.first, proceed, Stage.advance, hopened]
          cases hmade : world.createTemporary Platform.libraryName descriptor.fileExtension with
          | mk answer made =>
              rw [hmade] at hturns
              cases answer with
              | error fault =>
                  exact ⟨.advance caller :: turns, events, (hbegun turns).trans hturns⟩
              | ok found =>
                  rcases found with ⟨path, place⟩
                  rcases run_filling_alone world caller events (World.createTemporary_ok hmade)
                    descriptor.resourceSubpath stream with ⟨more, left, hmore⟩
                  refine ⟨.advance caller :: (turns ++ more), left, ?_⟩
                  rw [hbegun, run_append, hturns, hmore]
                  cases hcopied : World.copy made.medium [] stream <;> simp only [hcopied]

end Alone

end Shared
end Registry
end NativeLaunch
