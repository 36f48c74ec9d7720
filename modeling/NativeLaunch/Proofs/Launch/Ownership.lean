import NativeLaunch.Launcher
import NativeLaunch.Proofs.Launch.Clearance
import NativeLaunch.Proofs.Launch.Pipeline
import NativeLaunch.Proofs.Processor.Effects

/-!
# Whose files are whose

A process has any number of launchers.  Each notes the files that it extracted in a list, and a clone
shares the list of its original.  The registry of the process is another list, which extractions,
releases and cleanups change without a look at the launchers'.  So the two drift apart, and others may
change the files besides.  This file defines:

* `Fleet` — the launchers of a process and their lists;
* `Fleet.Turn`, `Fleet.step` and `Fleet.run` — what can happen, and a whole history of it;
* `Fleet.Sound` — each file is noted once at most, in one list at most;
* `Fleet.Owns` — what a launcher has is its own, and that and nothing else is released with it.

Of the names of temporary files nothing is assumed but that none is used for two of the files.
-/

namespace NativeLaunch

/-! ## What a launch registers -/

namespace World

section Launch

variable {Library : Type} {loader : Loader Library} (hbooks : loader.LeavesBooks)
include hbooks

theorem pending_invoke (world : World) (path : Path) (invocation : Invocation) :
    (world.invoke loader path invocation).2.pending = world.pending := by
  rcases uncalled_or_calls loader invocation world path with
    ⟨stage, failure, huncalled⟩ | ⟨library, block, hcalls⟩
  · rw [huncalled.invoke_eq]
  · rw [hcalls.invoke_eq, hbooks.pending]
    rfl

/-- A launch registers what it notes. -/
theorem exists_noted (bundle : Bundle) (invocation : Invocation) (extracted : List Path)
    (world : World) :
    ∃ result noted after,
      world.launchNoting loader bundle invocation extracted = (result, extracted ++ noted, after) ∧
        after.pending = world.pending ++ noted := by
  rcases copied_or_halts loader bundle invocation world with
    ⟨path, content, copied, hcopied⟩ | ⟨stage, failure, after, _, hresult, hafter⟩
  · refine ⟨_, [path], _, hcopied.launchNoting_eq extracted, ?_⟩
    rw [hcopied.launch_eq, pending_invoke hbooks, hcopied.equips.pending_eq]
  · refine ⟨.error failure, [], after, ?_, ?_⟩
    · rw [List.append_nil]
      exact (launch_of_uncopied hresult).2 extracted
    · rw [show after = _ from hafter, List.append_nil]

end Launch
end World

/-! ## Launchers and their lists -/

/-- A launcher, with the number of the list that it holds. -/
structure Handle where
  bundle : Bundle
  list : Nat

/-- The launchers of a process and the lists that they hold, with all files that were extracted so far. -/
structure Fleet where
  world : World
  launchers : List Handle := []
  lists : List (List Path) := []
  made : List Path := []

namespace Fleet

inductive Turn
  | create (bundle : Bundle)
  | clone (launcher : Nat)
  | launch (launcher : Nat) (invocation : Invocation)
  | clear (launcher : Nat)
  -- These go past the launchers.
  | extract (bundle : Bundle) (descriptor : PlatformDescriptor)
  | release (path : Path)
  | cleanUp
  -- Others change what they like; the registry is out of their reach.
  | outside (next : World)

/-- A process that has just started, with nothing registered. -/
def new (world : World) : Fleet := { world := { world with pending := [] } }

def held (fleet : Fleet) (list : Nat) : List Path := fleet.lists[list]?.getD []

/-- The files that a launcher has noted. -/
def extracted (fleet : Fleet) (launcher : Nat) : List Path :=
  match fleet.launchers[launcher]? with
  | none => []
  | some handle => fleet.held handle.list

/-- Two launchers are clones if they hold the same list. -/
def Clones (fleet : Fleet) (launcher other : Nat) : Prop :=
  fleet.launchers[launcher]?.map Handle.list = fleet.launchers[other]?.map Handle.list

section Steps

variable {Library : Type} (loader : Loader Library)

/-- What a turn does; that of a launcher that does not exist does nothing. -/
def step (fleet : Fleet) : Turn → Fleet
  | .create bundle =>
    { fleet with
      launchers := fleet.launchers ++ [⟨bundle, fleet.lists.length⟩]
      lists := fleet.lists ++ [[]] }
  | .clone launcher =>
    { fleet with launchers := fleet.launchers ++ fleet.launchers[launcher]?.toList }
  | .launch launcher invocation =>
    match fleet.launchers[launcher]? with
    | none => fleet
    | some handle =>
      let held := fleet.held handle.list
      let (_, extracted, after) :=
        (Launcher.ofBundle loader handle.bundle).launch invocation held fleet.world
      { fleet with
        world := after
        lists := fleet.lists.set handle.list extracted
        made := fleet.made ++ extracted.drop held.length }
  | .clear launcher =>
    match fleet.launchers[launcher]? with
    | none => fleet
    | some handle =>
      let (_, kept, after) :=
        (Launcher.ofBundle loader handle.bundle).release (fleet.held handle.list) fleet.world
      { fleet with world := after, lists := fleet.lists.set handle.list kept }
  | .extract bundle descriptor =>
    match fleet.world.extract bundle descriptor with
    | (.ok artifact, after) =>
      { fleet with world := after, made := fleet.made ++ [artifact.temporaryFilePath] }
    | (.error _, after) => { fleet with world := after }
  | .release path => { fleet with world := (fleet.world.releaseExtracted path).2 }
  | .cleanUp => { fleet with world := fleet.world.runExitCleanup.2 }
  | .outside next => { fleet with world := { next with pending := fleet.world.pending } }

def run (fleet : Fleet) (schedule : List Turn) : Fleet := schedule.foldl (step loader) fleet

end Steps

/-! ## What a turn does to the lists -/

/-- The ways in which a turn changes the registry and the launchers' lists. -/
inductive Stepped (before : Fleet) : Fleet → Prop
  | created (bundle : Bundle) :
      Stepped before
        { before with
          launchers := before.launchers ++ [⟨bundle, before.lists.length⟩]
          lists := before.lists ++ [[]] }
  | cloned (launcher : Nat) :
      Stepped before
        { before with launchers := before.launchers ++ before.launchers[launcher]?.toList }
  -- The registry at most has lost some of its files.
  | passed (after : World) (shrinks : after.pending.Subperm before.world.pending) :
      Stepped before { before with world := after }
  -- A file was extracted, past the launchers or by one of them, which fails at times.
  | extracted (after : World) (path : Path) (grows : after.pending = before.world.pending ++ [path]) :
      Stepped before { before with world := after, made := before.made ++ [path] }
  | noted (handle : Handle) (after : World) (paths : List Path) (member : handle ∈ before.launchers)
      (grows : after.pending = before.world.pending ++ paths) :
      Stepped before
        { before with
          world := after
          lists := before.lists.set handle.list (before.held handle.list ++ paths)
          made := before.made ++ paths }
  -- Files were released, and are taken off both lists.
  | cleared (handle : Handle) (after : World) (kept : List Path) (member : handle ∈ before.launchers)
      (shorter : kept.Sublist (before.held handle.list))
      (shrinks : after.pending.Subperm before.world.pending) :
      Stepped before
        { before with world := after, lists := before.lists.set handle.list kept }

section Steps

variable {Library : Type} {loader : Loader Library} (hbooks : loader.LeavesBooks)
include hbooks

theorem stepped (fleet : Fleet) (turn : Turn) : Stepped fleet (fleet.step loader turn) := by
  cases turn with
  | create bundle =>
      exact .created bundle
  | clone launcher =>
      exact .cloned launcher
  | launch launcher invocation =>
      simp only [step]
      cases hhandle : fleet.launchers[launcher]? with
      | none =>
          exact .passed fleet.world (List.Subperm.refl _)
      | some handle =>
          rcases World.exists_noted hbooks handle.bundle invocation (fleet.held handle.list)
              fleet.world with ⟨result, noted, after, hresult, hpending⟩
          simp only [Launcher.ofBundle, hresult, List.drop_left]
          exact .noted handle after noted (List.mem_of_getElem? hhandle) hpending
  | clear launcher =>
      simp only [step]
      cases hhandle : fleet.launchers[launcher]? with
      | none =>
          exact .passed fleet.world (List.Subperm.refl _)
      | some handle =>
          rcases World.exists_releasesEach fleet.world (fleet.held handle.list) with
            ⟨gone, hreleases⟩
          exact .cleared handle _ _ (List.mem_of_getElem? hhandle) hreleases.kept_sublist
            hreleases.pending_subperm
  | extract bundle descriptor =>
      simp only [step]
      rcases World.unextracted_or_extracted bundle descriptor fleet.world with
        ⟨stage, failure, hunextracted⟩ | ⟨path, content, after, hextracted⟩
      · rcases hunextracted.extract_eq with ⟨after, hresult, hafter⟩
        rw [hresult]
        refine .passed after ?_
        rw [show after = _ from hafter]
      · rw [hextracted.extract_eq]
        exact .extracted after path hextracted.equips.pending_eq
  | release path =>
      exact .passed _ (World.releases_releaseExtracted fleet.world path).pending_subperm
  | cleanUp =>
      refine .passed _ ?_
      rw [World.runExitCleanup_eq]
      exact List.nil_subperm
  | outside next =>
      exact .passed _ (List.Subperm.refl _)

end Steps

/-! ## Over whole histories -/

/-- Each file is noted once at most, and in one list at most; the same goes for the registry. -/
structure Sound (fleet : Fleet) : Prop where
  handles : ∀ handle ∈ fleet.launchers, handle.list < fleet.lists.length
  listed : fleet.lists.flatten.Subperm fleet.made
  registered : fleet.world.pending.Subperm fleet.made

/-- A list is put in another's place among all lists. -/
theorem exists_flatten_set {fleet : Fleet} {list : Nat} (h : list < fleet.lists.length) :
    ∃ others, fleet.lists.flatten.Perm (fleet.held list ++ others) ∧
      ∀ replacement, (fleet.lists.set list replacement).flatten.Perm (replacement ++ others) := by
  have hset : ∀ replacement, (fleet.lists.set list replacement).flatten.Perm
      (replacement ++
        ((fleet.lists.take list).flatten ++ (fleet.lists.drop (list + 1)).flatten)) := by
    intro replacement
    rw [List.set_eq_take_append_cons_drop, if_pos h, List.flatten_append, List.flatten_cons]
    exact List.perm_append_comm_assoc _ _ _
  have hheld : fleet.lists.set list (fleet.held list) = fleet.lists := by
    rw [held, List.getElem?_eq_getElem h, Option.getD_some, List.set_getElem_self]
  refine ⟨_, ?_, hset⟩
  have hsame := hset (fleet.held list)
  rw [hheld] at hsame
  exact hsame

theorem Stepped.sound {before after : Fleet} (h : Stepped before after) (hbefore : before.Sound) :
    after.Sound := by
  cases h with
  | created bundle =>
      refine ⟨?_, ?_, hbefore.registered⟩
      · intro handle hhandle
        rw [List.length_append, List.length_singleton]
        rcases List.mem_append.1 hhandle with hold | hnew
        · exact Nat.lt_succ_of_lt (hbefore.handles handle hold)
        · rw [List.mem_singleton.1 hnew]
          exact Nat.lt_succ_self _
      · rw [List.flatten_concat, List.append_nil]
        exact hbefore.listed
  | cloned launcher =>
      refine ⟨?_, hbefore.listed, hbefore.registered⟩
      intro handle hhandle
      rcases List.mem_append.1 hhandle with hold | hnew
      · exact hbefore.handles handle hold
      · exact hbefore.handles handle (List.mem_of_getElem? (Option.mem_toList.1 hnew))
  | passed after hshrinks =>
      exact ⟨hbefore.handles, hbefore.listed, hshrinks.trans hbefore.registered⟩
  | extracted after path hgrows =>
      refine ⟨hbefore.handles, ?_, ?_⟩
      · exact hbefore.listed.trans (List.sublist_append_left _ _).subperm
      · rw [hgrows]
        exact (List.subperm_append_right [path]).2 hbefore.registered
  | noted handle after paths hhandle hgrows =>
      have hlist := hbefore.handles handle hhandle
      rcases exists_flatten_set hlist with ⟨others, hflatten, hset⟩
      refine ⟨?_, ?_, ?_⟩
      · rw [List.length_set]
        exact hbefore.handles
      · -- The files that are new come to the end of their list and of all files.
        have hmoved : ((before.held handle.list ++ paths) ++ others).Perm
            (before.lists.flatten ++ paths) := by
          refine List.Perm.trans ?_ (hflatten.symm.append_right paths)
          rw [List.append_assoc, List.append_assoc]
          exact List.perm_append_comm.append_left _
        exact ((hset _).trans hmoved).subperm.trans
          ((List.subperm_append_right paths).2 hbefore.listed)
      · rw [hgrows]
        exact (List.subperm_append_right paths).2 hbefore.registered
  | cleared handle after kept hhandle hshorter hshrinks =>
      have hlist := hbefore.handles handle hhandle
      rcases exists_flatten_set hlist with ⟨others, hflatten, hset⟩
      refine ⟨?_, ?_, hshrinks.trans hbefore.registered⟩
      · rw [List.length_set]
        exact hbefore.handles
      · have hless : (kept ++ others).Subperm (before.held handle.list ++ others) :=
          (hshorter.append_right others).subperm
        exact (hset kept).subperm.trans (hless.trans (hflatten.symm.subperm.trans hbefore.listed))

theorem sound {Library : Type} {loader : Loader Library} (hbooks : loader.LeavesBooks)
    (world : World) (schedule : List Turn) : ((new world).run loader schedule).Sound := by
  induction schedule using List.reverseRecOn with
  | nil =>
      refine ⟨?_, List.nil_subperm, List.nil_subperm⟩
      intro handle hhandle
      cases hhandle
  | append_singleton schedule turn ih =>
      rw [run, List.foldl_concat]
      exact (stepped hbooks _ turn).sound ih

/-! ## Ownership -/

/-- What a launcher has is its own, and that and nothing else is released with it. -/
structure Owns {Library : Type} (loader : Loader Library) (fleet : Fleet) : Prop where
  unlike : ∀ launcher, Registry.Unlike (fleet.extracted launcher)
  apart : ∀ launcher other, ¬ fleet.Clones launcher other →
    ∀ path ∈ fleet.extracted launcher, ∀ otherPath ∈ fleet.extracted other,
      path.sameComponents otherPath = false
  clears : ∀ launcher < fleet.launchers.length, ∃ gone,
    (fleet.world.releaseArtifacts (fleet.extracted launcher)).1 = gone.length ∧
      World.Clears fleet.made fleet.world (fleet.extracted launcher) gone
        ((fleet.step loader (.clear launcher)).extracted launcher)
        (fleet.step loader (.clear launcher)).world
  others : ∀ launcher other, ¬ fleet.Clones launcher other →
    (fleet.step loader (.clear launcher)).extracted other = fleet.extracted other

section Lists

variable {fleet : Fleet} {launcher other : Nat} {handle otherHandle : Handle}

theorem extracted_of_handle (h : fleet.launchers[launcher]? = some handle) :
    fleet.extracted launcher = fleet.held handle.list := by
  rw [extracted, h]

theorem extracted_of_none (h : fleet.launchers[launcher]? = none) :
    fleet.extracted launcher = [] := by
  rw [extracted, h]

theorem list_ne (hhandle : fleet.launchers[launcher]? = some handle)
    (hother : fleet.launchers[other]? = some otherHandle) (hclones : ¬ fleet.Clones launcher other) :
    handle.list ≠ otherHandle.list := by
  intro hsame
  apply hclones
  rw [Clones, hhandle, hother, Option.map_some, Option.map_some, hsame]

theorem step_clear {Library : Type} (loader : Loader Library)
    (h : fleet.launchers[launcher]? = some handle) :
    fleet.step loader (.clear launcher) =
      { fleet with
        world := (fleet.world.releaseArtifacts (fleet.held handle.list)).2.2
        lists := fleet.lists.set handle.list
          (fleet.world.releaseArtifacts (fleet.held handle.list)).2.1 } := by
  rw [step, h]
  rfl

/-- A clearance leaves a launcher what was kept, and other lists alone. -/
theorem extracted_step_clear {Library : Type} (loader : Loader Library)
    (hhandle : fleet.launchers[launcher]? = some handle) (hlist : handle.list < fleet.lists.length) :
    (fleet.step loader (.clear launcher)).extracted launcher =
      (fleet.world.releaseArtifacts (fleet.extracted launcher)).2.1 := by
  rw [step_clear loader hhandle, extracted_of_handle hhandle]
  simp only [extracted, hhandle, held, List.getElem?_set_self hlist, Option.getD_some]

theorem extracted_step_clear_ne {Library : Type} (loader : Loader Library)
    (hclones : ¬ fleet.Clones launcher other) :
    (fleet.step loader (.clear launcher)).extracted other = fleet.extracted other := by
  cases hhandle : fleet.launchers[launcher]? with
  | none =>
      rw [step, hhandle]
  | some handle =>
      rw [step_clear loader hhandle]
      cases hother : fleet.launchers[other]? with
      | none =>
          simp only [extracted, hother]
      | some otherHandle =>
          have hne := list_ne hhandle hother hclones
          simp only [extracted, hother, held, List.getElem?_set_ne hne]

namespace Sound

variable (h : fleet.Sound)
include h

theorem held_eq (hhandle : fleet.launchers[launcher]? = some handle) :
    ∃ hlist : handle.list < fleet.lists.length, fleet.held handle.list = fleet.lists[handle.list] := by
  have hlist := h.handles handle (List.mem_of_getElem? hhandle)
  refine ⟨hlist, ?_⟩
  rw [held, List.getElem?_eq_getElem hlist, Option.getD_some]

theorem extracted_subset (launcher : Nat) : fleet.extracted launcher ⊆ fleet.made := by
  cases hhandle : fleet.launchers[launcher]? with
  | none =>
      rw [extracted_of_none hhandle]
      exact List.nil_subset _
  | some handle =>
      rcases h.held_eq hhandle with ⟨hlist, hheld⟩
      rw [extracted_of_handle hhandle, hheld]
      intro path hpath
      exact h.listed.subset (List.mem_flatten.2 ⟨_, List.getElem_mem hlist, hpath⟩)

variable (hnames : (fleet.made.map Path.fileName?).Nodup)
include hnames

theorem nodup_flatten :
    (∀ list ∈ fleet.lists, list.Nodup) ∧ fleet.lists.Pairwise List.Disjoint := by
  have hmade : fleet.made.Nodup := hnames.of_map
  rcases h.listed with ⟨listed, hperm, hsublist⟩
  exact List.nodup_flatten.1 (hperm.nodup_iff.1 (hmade.sublist hsublist))

theorem extracted_nodup (launcher : Nat) : (fleet.extracted launcher).Nodup := by
  cases hhandle : fleet.launchers[launcher]? with
  | none =>
      rw [extracted_of_none hhandle]
      exact List.nodup_nil
  | some handle =>
      rcases h.held_eq hhandle with ⟨hlist, hheld⟩
      rw [extracted_of_handle hhandle, hheld]
      exact (h.nodup_flatten hnames).1 _ (List.getElem_mem hlist)

theorem extracted_disjoint (hclones : ¬ fleet.Clones launcher other) :
    (fleet.extracted launcher).Disjoint (fleet.extracted other) := by
  cases hhandle : fleet.launchers[launcher]? with
  | none =>
      rw [extracted_of_none hhandle]
      exact List.disjoint_nil_left _
  | some handle =>
      cases hother : fleet.launchers[other]? with
      | none =>
          rw [extracted_of_none hother]
          exact List.disjoint_nil_right _
      | some otherHandle =>
          rcases h.held_eq hhandle with ⟨hlist, hheld⟩
          rcases h.held_eq hother with ⟨hotherList, hotherHeld⟩
          have hne := list_ne hhandle hother hclones
          rw [extracted_of_handle hhandle, extracted_of_handle hother, hheld, hotherHeld]
          have hpairwise := List.pairwise_iff_getElem.1 (h.nodup_flatten hnames).2
          rcases Nat.lt_or_gt_of_ne hne with hlt | hgt
          · exact hpairwise _ _ hlist hotherList hlt
          · intro path hpath hother
            exact hpairwise _ _ hotherList hlist hgt hother hpath

end Sound

end Lists

/-- Whatever has happened: if no name was used for two files, no launcher has another's files, and each
releases its own. -/
theorem owns {Library : Type} {loader : Loader Library} (hbooks : loader.LeavesBooks)
    (world : World) (schedule : List Turn)
    (hnames : (((new world).run loader schedule).made.map Path.fileName?).Nodup) :
    Owns loader ((new world).run loader schedule) := by
  have hsound := sound hbooks world schedule
  generalize (new world).run loader schedule = fleet at hnames hsound ⊢
  have hunlike : ∀ path ∈ fleet.made, ∀ other ∈ fleet.made, path ≠ other →
      path.sameComponents other = false := by
    intro path hpath other hother hne
    rw [Bool.eq_false_iff]
    intro halike
    exact hne (World.eq_of_alike hnames hpath hother halike)
  refine ⟨?_, ?_, ?_, ?_⟩
  · intro launcher
    refine (hsound.extracted_nodup hnames launcher).imp_of_mem ?_
    intro path other hpath hother hne
    exact hunlike path (hsound.extracted_subset launcher hpath) other
      (hsound.extracted_subset launcher hother) hne
  · intro launcher other hclones path hpath otherPath hotherPath
    refine hunlike path (hsound.extracted_subset launcher hpath) otherPath
      (hsound.extracted_subset other hotherPath) ?_
    rintro rfl
    exact hsound.extracted_disjoint hnames hclones hpath hotherPath
  · intro launcher hlauncher
    have hhandle := List.getElem?_eq_getElem hlauncher
    rcases hsound.held_eq hhandle with ⟨hlist, _⟩
    rcases World.exists_clears hnames (hsound.extracted_subset launcher)
      (hsound.extracted_nodup hnames launcher) hsound.registered.subset with
      ⟨gone, kept, after, hreleases, hclears⟩
    refine ⟨gone, by rw [hreleases], ?_⟩
    have hworld : (fleet.step loader (.clear launcher)).world = after := by
      rw [step_clear loader hhandle, ← extracted_of_handle hhandle, hreleases]
    rw [extracted_step_clear loader hhandle hlist, hworld, hreleases]
    exact hclears
  · intro launcher other hclones
    exact extracted_step_clear_ne loader hclones

/-! ## Three launchers -/

theorem step_launch {Library : Type} (loader : Loader Library) {fleet : Fleet} {launcher : Nat}
    {handle : Handle} {invocation : Invocation} {descriptor : PlatformDescriptor}
    {artifact : Artifact} {after : World} (hhandle : fleet.launchers[launcher]? = some handle)
    (hresolved : fleet.world.host.resolve = .ok descriptor)
    (hextract : fleet.world.extract handle.bundle descriptor = (.ok artifact, after)) :
    fleet.step loader (.launch launcher invocation) =
      { fleet with
        world := (after.invoke loader artifact.temporaryFilePath invocation).2
        lists := fleet.lists.set handle.list
          (fleet.held handle.list ++ [artifact.temporaryFilePath])
        made := fleet.made ++ [artifact.temporaryFilePath] } := by
  simp only [step, hhandle, Launcher.ofBundle, World.launchNoting, World.resolveAndExtract,
    hresolved, hextract, List.drop_left]

/-- No library loads, so that each launch fails when it has extracted its file. -/
def barren : Loader Unit := World.oracle (fun _ _ => none) (fun _ => true) fun _ _ _ => 0

def linux : PlatformDescriptor :=
  ⟨.linux, "x86_64", "lib", ".so", "/linux/x86_64/libpico_limbo.so"⟩

def invocation : Invocation := ⟨"limbo_bridge", "server.toml", []⟩

/-- The surroundings after some files were extracted, the latest first. -/
def stocked (names : List String) : World :=
  { World.furnished with
    files := ⟨names.map (fun name =>
        ([Utf8.encode "tmp", Utf8.encode name], .file [0x7F, 0x45, 0x4C, 0x46])) ++
      World.furnished.files.nodes⟩
    serial := names.length
    pending := names.reverse.map fun name => .ofString ("/tmp/" ++ name) }

def crew (world : World) (lists : List (List Path)) (made : List Path) : Fleet where
  world := world
  launchers := [⟨World.provisions, 0⟩, ⟨World.provisions, 1⟩, ⟨World.provisions, 0⟩]
  lists := lists
  made := made

/-- A clone launches, and so does a launcher that is none; a file is extracted past them, and the clone's
file is released under another spelling. -/
def companions : List Turn :=
  [.create World.provisions, .create World.provisions, .clone 0, .launch 2 invocation,
    .launch 1 invocation, .extract World.provisions linux,
    .release (.ofString "/tmp/./pico_limboAAAAAA.so")]

theorem run_companions :
    (new World.furnished).run barren companions =
      (crew (stocked ["pico_limboBAAAAA.so", "pico_limboAAAAAA.so"])
        [[.ofString "/tmp/pico_limboAAAAAA.so"], [.ofString "/tmp/pico_limboBAAAAA.so"]]
        [.ofString "/tmp/pico_limboAAAAAA.so", .ofString "/tmp/pico_limboBAAAAA.so"]).run barren
          (companions.drop 5) := by
  have hfirst : (stocked []).extract World.provisions linux =
      (.ok ⟨"/linux/x86_64/libpico_limbo.so", .ofString "/tmp/pico_limboAAAAAA.so"⟩,
        stocked ["pico_limboAAAAAA.so"]) := by cbv
  have hsecond : (stocked ["pico_limboAAAAAA.so"]).extract World.provisions linux =
      (.ok ⟨"/linux/x86_64/libpico_limbo.so", .ofString "/tmp/pico_limboBAAAAA.so"⟩,
        stocked ["pico_limboBAAAAA.so", "pico_limboAAAAAA.so"]) := by cbv
  calc
    (new World.furnished).run barren companions =
        ((crew (stocked []) [[], []] []).step barren (.launch 2 invocation)).run barren
          (companions.drop 4) := rfl
    _ = ((crew (stocked ["pico_limboAAAAAA.so"]) [[.ofString "/tmp/pico_limboAAAAAA.so"], []]
          [.ofString "/tmp/pico_limboAAAAAA.so"]).step barren (.launch 1 invocation)).run barren
          (companions.drop 5) := by
        rw [step_launch barren rfl rfl hfirst]
        rfl
    _ = _ := by
        rw [step_launch barren rfl rfl hsecond]
        rfl

/-- The clone's original keeps a file that is no longer registered, and the other launcher releases its
own. -/
theorem owns_companions :
    barren.LeavesBooks ∧
      (((new World.furnished).run barren companions).made.map Path.fileName?).Nodup ∧
      Owns barren ((new World.furnished).run barren companions) ∧
      (((new World.furnished).run barren companions).step barren (.clear 0)).extracted 0 =
        [.ofString "/tmp/pico_limboAAAAAA.so"] ∧
      (((new World.furnished).run barren companions).step barren (.clear 1)).extracted 1 = [] ∧
      (((new World.furnished).run barren companions).step barren (.clear 1)).world.pending =
        [.ofString "/tmp/pico_limboCAAAAA.so"] := by
  have hbooks : barren.LeavesBooks := ⟨fun _ _ _ => rfl, fun _ _ _ => rfl⟩
  have hmade : ((new World.furnished).run barren companions).made =
      [.ofString "/tmp/pico_limboAAAAAA.so", .ofString "/tmp/pico_limboBAAAAA.so",
        .ofString "/tmp/pico_limboCAAAAA.so"] := by
    rw [run_companions]
    cbv
  have hnames : (((new World.furnished).run barren companions).made.map Path.fileName?).Nodup := by
    rw [hmade]
    decide
  refine ⟨hbooks, hnames, owns hbooks World.furnished companions hnames, ?_, ?_, ?_⟩
  · rw [run_companions]
    cbv
  · rw [run_companions]
    cbv
  · rw [run_companions]
    cbv

end Fleet
end NativeLaunch
