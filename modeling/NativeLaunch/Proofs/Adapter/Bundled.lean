import NativeLaunch.Proofs.Adapter.Interleaving
import NativeLaunch.Proofs.Launch.Pipeline

/-!
# An adapter and the launcher of a bundle

The launcher of a bundle keeps a list of the files that it has extracted.  A launch puts its file on
the list some time after it has made it, and a shutdown, which waits for nobody, releases what is on
the list when it comes to that.  This file defines:

* `LaunchStage` — where a launch stands, named for the step that it takes next;
* `LaunchStage.advance` — that step, made of the functions of `World`;
* `LaunchStage.Takes` — the same as a relation, together with the return of the native component;
* `Bundled` — an adapter in use, with its launcher's list, the launches in progress, and the
  surroundings;
* `Turn`, `Bundled.step` and `Bundled.run` — whose turn it is, what it does, and whole schedules.

What the adapter does is what `Hosted` says.  A launch begins when its worker enters the launcher, and
the worker comes back when the launch is over.  A release is one step: whoever makes it holds the lock
of the list throughout.
-/

namespace NativeLaunch

/-- The same loader over a component that does nothing. -/
def Loader.muted {Library : Type} (loader : Loader Library) : Loader Library :=
  World.oracle loader.load loader.hasEntry fun _ _ _ => 0

namespace Adapter

/-! ## Launches -/

inductive LaunchStage
  | extract (invocation : Invocation)
  | record (path : Path) (invocation : Invocation)
  | load (path : Path) (invocation : Invocation)
  -- The native component has been called.
  | call
  | back (result : Except Failure ExitStatus)

/-- What has been done with the launcher's files. -/
inductive Deed
  | made (path : Path)
  | recorded (path : Path)
  | released
deriving DecidableEq, Repr

def Deed.made? : Deed → Option Path
  | .made path => some path
  | _ => none

/-- What a step of a launch leads to: the next stage, the surroundings, the launcher's list, and what
was done, the latest first. -/
structure LaunchProgress where
  next : LaunchStage
  world : World
  extracted : List Path
  deeds : List Deed

namespace LaunchStage

variable {Library : Type}

/-- The step that a launch takes by itself.  Of the call of the native component, all but what that
does is part of the loading. -/
def advance (loader : Loader Library) (bundle : Bundle) (world : World) (extracted : List Path) :
    LaunchStage → LaunchProgress
  | .extract invocation =>
    match world.resolveAndExtract bundle with
    | (.ok artifact, after) =>
      ⟨.record artifact.temporaryFilePath invocation, after, extracted,
        [.made artifact.temporaryFilePath]⟩
    | (.error failure, after) => ⟨.back (.error failure), after, extracted, []⟩
  | .record path invocation =>
    ⟨.load path invocation, world, extracted ++ [path], [.recorded path]⟩
  | .load path invocation =>
    match world.invoke loader.muted path invocation with
    | (.ok _, after) => ⟨.call, after, extracted, []⟩
    | (.error failure, after) => ⟨.back (.error failure), after, extracted, []⟩
  | stage => ⟨stage, world, extracted, []⟩

/-- The steps that are possible at a stage, one way each, with what they do to the surroundings. -/
inductive Takes (bundle : Bundle) (world : World) (extracted : List Path) :
    LaunchStage → LaunchProgress → Prop
  | wait (stage : LaunchStage) : Takes bundle world extracted stage ⟨stage, world, extracted, []⟩
  | extracted (invocation : Invocation) (path : Path) (content : Bytes) (after : World)
      (equips : World.Equips world path content after) :
      Takes bundle world extracted (.extract invocation)
        ⟨.record path invocation, after, extracted, [.made path]⟩
  | unextracted (invocation : Invocation) (failure : Failure) (after : World)
      (names : World.UsesNames world after) :
      Takes bundle world extracted (.extract invocation)
        ⟨.back (.error failure), after, extracted, []⟩
  | record (path : Path) (invocation : Invocation) :
      Takes bundle world extracted (.record path invocation)
        ⟨.load path invocation, world, extracted ++ [path], [.recorded path]⟩
  | called (path : Path) (invocation : Invocation) (block : ArgumentBlock) :
      Takes bundle world extracted (.load path invocation)
        ⟨.call, world.atCall path block, extracted, []⟩
  | uncalled (path : Path) (invocation : Invocation) (failure : Failure) :
      Takes bundle world extracted (.load path invocation)
        ⟨.back (.error failure), world, extracted, []⟩
  -- The component decides when it returns, and what.
  | answered (value : Nat) :
      Takes bundle world extracted .call
        ⟨.back (.ok ⟨UInt8.ofNat value⟩), world, extracted, []⟩

theorem takes_advance (loader : Loader Library) (bundle : Bundle) (world : World)
    (extracted : List Path) (stage : LaunchStage) :
    stage.Takes bundle world extracted (stage.advance loader bundle world extracted) := by
  cases stage with
  | extract invocation =>
      rcases World.copied_or_halts loader bundle invocation world with
        ⟨path, content, after, hcopied⟩ | ⟨_, failure, after, _, hresult, hafter⟩
      · rcases hcopied.resolveAndExtract_eq with ⟨artifact, hresult, rfl⟩
        simp only [advance, hresult]
        exact .extracted invocation _ content after hcopied.equips
      · simp only [advance, hresult]
        exact .unextracted invocation failure after hafter
  | record path invocation =>
      exact .record path invocation
  | load path invocation =>
      rcases World.uncalled_or_calls loader.muted invocation world path with
        ⟨_, failure, huncalled⟩ | ⟨library, block, hcalls⟩
      · simp only [advance, huncalled.invoke_eq]
        exact .uncalled path invocation failure
      · simp only [advance, hcalls.invoke_eq]
        exact .called path invocation block
  | call =>
      exact .wait _
  | back result =>
      exact .wait _

end LaunchStage

/-! ## Schedules -/

/-- An adapter in use with its launcher: what is on the launcher's list, the launches in progress, and
what has been done with its files, the latest first. -/
structure Bundled where
  hosted : Hosted
  world : World
  extracted : List Path := []
  launches : List (Nat × LaunchStage) := []
  past : List Deed := []

/-- How often the launcher was left. -/
def Hosted.exits (hosted : Hosted) : Nat := hosted.cells.past.countP Worker.Event.isExit

/-- The events that have come in front of others. -/
def since {Event : Type} (before after : List Event) : List Event :=
  after.take (after.length - before.length)

/-- The launch that begins when a worker enters the launcher. -/
def LaunchStage.begun? : Worker.Event → Option (Nat × LaunchStage)
  | .entered thread invocation => some (thread, .extract invocation)
  | _ => none

def Event.isRelease : Event → Bool
  | .released _ => true
  | _ => false

namespace Bundled

/-- Whose turn it is, and what for. -/
inductive Turn
  | host (turn : Adapter.Turn)
  | launch (thread : Nat)
  | answer (thread : Nat) (value : Nat)
  | outside (files : FileTree)

/-- A launcher that nothing has been extracted by, in surroundings where others may have registered
files of theirs. -/
def new (host : PluginHost) (settings : List Setting) (world : World) : Bundled :=
  { hosted := Hosted.new host settings, world := world }

/-- The files that the launcher has made, released or not. -/
def made (bundled : Bundled) : List Path := bundled.past.filterMap Deed.made?

/-- Releases what is on the launcher's list. -/
def release (bundled : Bundled) : Bundled :=
  let (_, kept, after) := bundled.world.releaseArtifacts bundled.extracted
  { bundled with world := after, extracted := kept, past := .released :: bundled.past }

/-- The adapter has moved on; what it has entered the launcher for begins. -/
def follow (bundled : Bundled) (after : Hosted) : Bundled :=
  { bundled with
    hosted := after
    launches :=
      (since bundled.hosted.cells.past after.cells.past).filterMap LaunchStage.begun? ++
        bundled.launches }

/-- A thread's launch makes progress. -/
def proceed (bundled : Bundled) (thread : Nat) (progress : LaunchProgress) : Bundled where
  hosted := bundled.hosted
  world := progress.world
  extracted := progress.extracted
  launches := (thread, progress.next) ::
    bundled.launches.eraseP fun launch => thread == launch.1
  past := progress.deeds ++ bundled.past

/-- Others change the files as they like, but not those that the launcher has made. -/
def spares (bundled : Bundled) (files : FileTree) : Bool :=
  bundled.made.all fun path => [true, false].all fun follow =>
    files.resolve bundled.world.workingDirectory follow path =
      bundled.world.files.resolve bundled.world.workingDirectory follow path

variable {Library : Type}

/-- What a turn does. -/
def step (loader : Loader Library) (bundle : Bundle) (bundled : Bundled) : Turn → Bundled
  | .host turn =>
    let after := bundled.hosted.step turn
    -- The launcher is left when the launch is over, and not before.
    if after.exits = bundled.hosted.exits then
      if (since bundled.hosted.past after.past).any Event.isRelease then
        (bundled.follow after).release
      else bundled.follow after
    else bundled
  | .launch thread =>
    match bundled.launches.lookup thread with
    | some (.back result) =>
      let after := bundled.hosted.step (.comeBack thread result)
      if after.exits = bundled.hosted.exits + 1 then
        { bundled with
          hosted := after
          launches := bundled.launches.eraseP fun launch => thread == launch.1 }
      else bundled
    | some stage =>
      bundled.proceed thread (stage.advance loader bundle bundled.world bundled.extracted)
    | none => bundled
  | .answer thread value =>
    match bundled.launches.lookup thread with
    | some .call =>
      bundled.proceed thread
        ⟨.back (.ok ⟨UInt8.ofNat value⟩), bundled.world, bundled.extracted, []⟩
    | _ => bundled
  | .outside files =>
    if bundled.spares files then { bundled with world := { bundled.world with files := files } }
    else bundled

/-- What a schedule does. -/
def run (loader : Loader Library) (bundle : Bundle) (bundled : Bundled) (schedule : List Turn) :
    Bundled :=
  schedule.foldl (step loader bundle) bundled

section Run

variable {loader : Loader Library} {bundle : Bundle}

@[simp] theorem run_nil (bundled : Bundled) : bundled.run loader bundle [] = bundled := rfl

@[simp] theorem run_cons (bundled : Bundled) (turn : Turn) (schedule : List Turn) :
    bundled.run loader bundle (turn :: schedule) =
      (bundled.step loader bundle turn).run loader bundle schedule := rfl

theorem run_append (bundled : Bundled) (first second : List Turn) :
    bundled.run loader bundle (first ++ second) =
      (bundled.run loader bundle first).run loader bundle second :=
  List.foldl_append

theorem run_concat (bundled : Bundled) (schedule : List Turn) (turn : Turn) :
    bundled.run loader bundle (schedule ++ [turn]) =
      (bundled.run loader bundle schedule).step loader bundle turn := by
  simp [run_append]

end Run

/-! ## One turn -/

/-- A turn does nothing, or moves the adapter, a launch, or the files of others. -/
inductive Stepped (bundle : Bundle) (before : Bundled) : Bundled → Prop
  | idle : Stepped bundle before before
  | moved (turn : Adapter.Turn)
      (inside : (before.hosted.step turn).exits = before.hosted.exits) :
      Stepped bundle before (before.follow (before.hosted.step turn))
  | released (turn : Adapter.Turn)
      (inside : (before.hosted.step turn).exits = before.hosted.exits) :
      Stepped bundle before (before.follow (before.hosted.step turn)).release
  | launched (thread : Nat) (stage : LaunchStage) (progress : LaunchProgress)
      (rest : List (Nat × LaunchStage)) (perm : before.launches.Perm ((thread, stage) :: rest))
      (takes : stage.Takes bundle before.world before.extracted progress) :
      Stepped bundle before
        ⟨before.hosted, progress.world, progress.extracted, (thread, progress.next) :: rest,
          progress.deeds ++ before.past⟩
  | cameBack (thread : Nat) (result : Except Failure ExitStatus)
      (rest : List (Nat × LaunchStage))
      (perm : before.launches.Perm ((thread, .back result) :: rest))
      (left : (before.hosted.step (.comeBack thread result)).exits = before.hosted.exits + 1) :
      Stepped bundle before
        { before with hosted := before.hosted.step (.comeBack thread result), launches := rest }
  | outside (files : FileTree)
      (spared : ∀ path ∈ before.made, ∀ follow,
        files.resolve before.world.workingDirectory follow path =
          before.world.files.resolve before.world.workingDirectory follow path) :
      Stepped bundle before { before with world := { before.world with files := files } }

theorem stepped_proceed {bundle : Bundle} {bundled : Bundled} {thread : Nat} {stage : LaunchStage}
    {progress : LaunchProgress} (hlatest : bundled.launches.lookup thread = some stage)
    (htakes : stage.Takes bundle bundled.world bundled.extracted progress) :
    Stepped bundle bundled (bundled.proceed thread progress) :=
  .launched thread stage progress _ (perm_of_lookup hlatest) htakes

theorem stepped (loader : Loader Library) (bundle : Bundle) (bundled : Bundled) (turn : Turn) :
    Stepped bundle bundled (bundled.step loader bundle turn) := by
  cases turn with
  | host turn =>
      simp only [step]
      split
      · rename_i hinside
        split
        · exact .released turn hinside
        · exact .moved turn hinside
      · exact .idle
  | launch thread =>
      cases hlatest : bundled.launches.lookup thread with
      | none =>
          simpa [step, hlatest] using Stepped.idle
      | some stage =>
          have hadvances := stepped_proceed hlatest
            (stage.takes_advance loader bundle bundled.world bundled.extracted)
          cases stage with
          | back result =>
              simp only [step, hlatest]
              split
              · rename_i hleft
                exact .cameBack thread result _ (perm_of_lookup hlatest) hleft
              · exact .idle
          | _ =>
              simpa only [step, hlatest] using hadvances
  | answer thread value =>
      by_cases hlatest : bundled.launches.lookup thread = some .call
      · simpa only [step, hlatest] using stepped_proceed hlatest (.answered value)
      · have hidle : bundled.step loader bundle (.answer thread value) = bundled := by
          unfold step
          split <;> simp_all
        rw [hidle]
        exact .idle
  | outside files =>
      by_cases hspares : bundled.spares files = true
      · rw [step, if_pos hspares]
        refine .outside files ?_
        intro path hmade follow
        simp only [spares, List.all_eq_true, decide_eq_true_eq] at hspares
        exact hspares path hmade follow (by cases follow <;> simp)
      · simpa [step, hspares] using Stepped.idle

/-- What holds of a new adapter with its launcher and is kept by every turn holds after every
schedule. -/
theorem run_induction {motive : Bundled → Prop} (loader : Loader Library) (bundle : Bundle)
    (host : PluginHost) (settings : List Setting) (world : World)
    (start : motive (new host settings world))
    (turn : ∀ before after, Stepped bundle before after → motive before → motive after)
    (schedule : List Turn) : motive ((new host settings world).run loader bundle schedule) := by
  induction schedule using List.reverseRecOn with
  | nil =>
      exact start
  | append_singleton schedule last ih =>
      rw [run_concat]
      exact turn _ _ (stepped loader bundle _ last) ih

/-! ## Launches that nobody interferes with -/

section Alone

variable {loader : Loader Library} {bundle : Bundle} {invocation : Invocation} {world : World}
  {path : Path}

theorem uncalled_muted {stage : World.Stage} {failure : Failure}
    (h : World.Uncalled loader invocation world path stage failure) :
    World.Uncalled loader.muted invocation world path stage failure := by
  cases h with
  | arguments hfails =>
      exact .arguments hfails
  | library hmarshals hfails =>
      exact .library hmarshals hfails
  | symbol hmarshals hloads hfails =>
      exact .symbol hmarshals hloads hfails

theorem invoke_muted {library : Library} {block : ArgumentBlock}
    (h : World.Calls loader invocation world path library block) :
    world.invoke loader.muted path invocation = (.ok ⟨0⟩, world.atCall path block) := by
  have hmuted : World.Calls loader.muted invocation world path library block :=
    ⟨h.marshals, h.loads, h.finds⟩
  exact hmuted.invoke_eq

/-- A launch that nobody interferes with does what the launcher of the bundle does. -/
theorem run_launch_alone (load : World → Path → Option Library) (hasEntry : Library → Bool)
    (value : Library → ArgumentBlock → World → Nat) (bundle : Bundle) (invocation : Invocation)
    (hosted : Hosted) (world : World) (extracted : List Path) (thread : Nat)
    (rest : List (Nat × LaunchStage)) (past : List Deed) :
    ∃ turns deeds,
      (Bundled.mk hosted world extracted ((thread, .extract invocation) :: rest) past).run
          (World.oracle load hasEntry value) bundle turns =
        ⟨hosted,
          (world.launchNoting (World.oracle load hasEntry value) bundle invocation extracted).2.2,
          (world.launchNoting (World.oracle load hasEntry value) bundle invocation extracted).2.1,
          (thread, .back
            (world.launchNoting (World.oracle load hasEntry value) bundle invocation
              extracted).1) :: rest, deeds⟩ := by
  rcases World.copied_or_halts (World.oracle load hasEntry value) bundle invocation world with
    ⟨path, content, after, hcopied⟩ | ⟨_, failure, after, _, hresult, _⟩
  · rcases hcopied.resolveAndExtract_eq with ⟨artifact, hresult, rfl⟩
    rw [hcopied.launchNoting_eq, hcopied.launch_eq]
    rcases World.uncalled_or_calls (World.oracle load hasEntry value) invocation after
      artifact.temporaryFilePath with ⟨_, failure, huncalled⟩ | ⟨library, block, hcalls⟩
    · refine ⟨List.replicate 3 (.launch thread),
        .recorded artifact.temporaryFilePath :: .made artifact.temporaryFilePath :: past, ?_⟩
      simp [step, proceed, LaunchStage.advance, hresult, huncalled.invoke_eq,
        (uncalled_muted huncalled).invoke_eq]
    -- The component answers what the loader says of it.
    · refine ⟨List.replicate 3 (.launch thread) ++
        [.answer thread (value library block (after.atCall artifact.temporaryFilePath block))],
        .recorded artifact.temporaryFilePath :: .made artifact.temporaryFilePath :: past, ?_⟩
      have hcall : (World.oracle load hasEntry value).call library block = fun here =>
          (value library block here, here) := rfl
      rw [hcalls.invoke_eq, hcall]
      simp [step, proceed, LaunchStage.advance, hresult, invoke_muted hcalls]
  · rw [(World.launch_of_uncopied hresult).2]
    refine ⟨[.launch thread], past, ?_⟩
    simp [step, LaunchStage.advance, hresult, proceed]

end Alone

end Bundled
end Adapter
end NativeLaunch
