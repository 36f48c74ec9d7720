import NativeLaunch.Extraction
import NativeLaunch.Proofs.Registry.Entries

/-!
# Extractions, releases and cleanups, step by step

All extractions of a process register their files in one list, from which releases and cleanups take
them.  The list has a lock, and the files have none: a release unlinks under the lock, a cleanup
empties the list first and unlinks afterwards, and an extraction makes its file long before it
registers it.  This file defines:

* `Call` and `Answer` — what is asked for and what comes of it;
* `Stage` — where a call stands, named for the step that it takes next;
* `Stage.advance` — that step, made of the functions of `World`;
* `Stage.Takes` — the same as a relation, together with the steps that the generator of names
  decides, saying of each what it does to the list.

A guard that is dropped at the end of a program makes a cleanup whose count nobody reads.
-/

namespace NativeLaunch
namespace Registry

/-! ## Calls -/

inductive Call
  | extract (bundle : Bundle) (descriptor : PlatformDescriptor)
  | release (path : Path)
  | cleanUp

inductive Answer
  | extracted (result : Except Failure Artifact)
  | released (path : Path) (done : Bool)
  | cleaned (count : Nat)

inductive Event
  | called (caller : Nat) (call : Call)
  -- The generator of names has handed one out.
  | named (caller : Nat) (path : Path)
  -- A cleanup has deleted a file and counted it, or has failed to and forgotten it.
  | counted (caller : Nat) (path : Path)
  | dropped (caller : Nat) (path : Path)
  | returned (caller : Nat) (answer : Answer)

inductive Stage
  -- An extraction opens the artifact, tries names until it has made a file, and copies; then it
  -- registers the file, or takes it back.
  | opening (bundle : Bundle) (descriptor : PlatformDescriptor)
  | naming (descriptor : PlatformDescriptor) (stream : Stream)
  | filling (resource : String) (path : Path) (place : Location) (stream : Stream)
  | registering (resource : String) (path : Path)
  | discarding (failure : Failure) (path : Path)
  -- A release is one step.
  | releasing (path : Path)
  -- A cleanup takes the list, and then deletes file after file.
  | taking
  | deleting (todo : List Path) (count : Nat)

def Call.first : Call → Stage
  | .extract bundle descriptor => .opening bundle descriptor
  | .release path => .releasing path
  | .cleanUp => .taking

/-! ## Steps -/

/-- What a step leads to: the next stage unless the call is over, the surroundings, and the events,
the latest first. -/
structure Progress where
  next : Option Stage
  world : World
  events : List Event

def returns (caller : Nat) (answer : Answer) (world : World) : Progress :=
  ⟨none, world, [.returned caller answer]⟩

/-- Writes to a file that was opened before, if it still stands where it was made. -/
def fill (world : World) (place : Location) (content : Bytes) : World :=
  match world.files.node? place with
  | some (.file _) => { world with files := world.files.insert place (.file content) }
  | _ => world

/-- The step that a call takes by itself. -/
def Stage.advance (caller : Nat) (world : World) : Stage → Progress
  | .opening bundle descriptor =>
    let resource := descriptor.resourceSubpath
    match bundle.openResource world.files world.workingDirectory resource with
    | .error fault =>
      returns caller (.extracted (.error (.extraction resource (.ofString resource) fault))) world
    | .ok none => returns caller (.extracted (.error (.artifactNotFound resource))) world
    | .ok (some stream) => ⟨some (.naming descriptor stream), world, []⟩
  | .naming descriptor stream => ⟨some (.naming descriptor stream), world, []⟩
  | .filling resource path place stream =>
    match World.copy world.medium [] stream with
    | .error fault => ⟨some (.discarding (.extraction resource path fault) path), world, []⟩
    | .ok content => ⟨some (.registering resource path), fill world place content, []⟩
  | .registering resource path =>
    returns caller (.extracted (.ok ⟨resource, path⟩)) (world.register path)
  | .discarding failure path =>
    returns caller (.extracted (.error failure)) (world.unlink path).2
  | .releasing path =>
    let (done, after) := world.releaseExtracted path
    returns caller (.released path done) after
  | .taking => ⟨some (.deleting world.pending 0), { world with pending := [] }, []⟩
  | .deleting [] count => returns caller (.cleaned count) world
  | .deleting (path :: rest) count =>
    match world.unlink path with
    | (.ok _, unlinked) => ⟨some (.deleting rest (count + 1)), unlinked, [.counted caller path]⟩
    | (.error _, _) => ⟨some (.deleting rest count), world, [.dropped caller path]⟩

/-- The generator hands out a name, under which a file is made unless it is taken. -/
def named (caller : Nat) (descriptor : PlatformDescriptor) (stream : Stream) (path : Path)
    (world : World) : Progress :=
  let next := { world with serial := world.serial + 1 }
  match next.withFiles (next.files.createNew next.workingDirectory path) with
  | (.ok place, made) =>
    ⟨some (.filling descriptor.resourceSubpath path place stream), made, [.named caller path]⟩
  | (.error .alreadyExists, _) => ⟨some (.naming descriptor stream), next, [.named caller path]⟩
  | (.error kind, _) =>
    ⟨none, next,
      [.returned caller (.extracted (.error
          (.extraction descriptor.resourceSubpath world.temporaryDirectory (.system kind)))),
        .named caller path]⟩

/-- The generator hands out no further name, for a reason of its own. -/
def unnamed (caller : Nat) (descriptor : PlatformDescriptor) (kind : FaultKind) (world : World) :
    Progress :=
  returns caller (.extracted (.error
    (.extraction descriptor.resourceSubpath world.temporaryDirectory (.system kind)))) world

/-! ## Releases -/

@[simp] theorem pending_unlink (world : World) (path : Path) :
    (world.unlink path).2.pending = world.pending := rfl

/-- A release leaves everything as it is, or takes one entry for its path out of the list. -/
theorem releaseExtracted_cases (world : World) (path : Path) :
    world.releaseExtracted path = (false, world) ∨
      ∃ entry after, world.releaseExtracted path = (true, after) ∧
        entry.sameComponents path = true ∧ world.pending.Perm (entry :: after.pending) := by
  cases hrelease : world.releaseExtracted path with
  | mk answer after =>
      have hreleases := World.Releases.of_eq hrelease
      cases answer with
      | false =>
          rw [hreleases.eq_of_false]
          exact .inl rfl
      | true =>
          rcases hreleases.exists_perm with ⟨entry, halike, hperm⟩
          exact .inr ⟨entry, after, rfl, halike, hperm⟩

/-- A registered file that is there can be released. -/
theorem releaseExtracted_of_names {world : World} {path entry : Path} {place : Location}
    {content : Bytes} (hnames : world.files.Names world.workingDirectory path place content)
    (hlisted : entry ∈ world.pending) (halike : entry.sameComponents path = true) :
    ∃ after, world.releaseExtracted path = (true, after) ∧
      after = { world with files := world.files.erase place, pending := after.pending } ∧
        world.pending.countP (·.sameComponents path) =
          after.pending.countP (·.sameComponents path) + 1 := by
  cases hrelease : world.releaseExtracted path with
  | mk answer after =>
      have hreleases := World.Releases.of_eq hrelease
      have hok : (world.unlink path).1.isOk = true := World.isOk_unlink_iff.2 ⟨place, hnames.removes⟩
      have htrue : answer = true := hreleases.true_iff.2 ⟨⟨entry, hlisted, halike⟩, hok⟩
      subst htrue
      refine ⟨after, rfl, ?_, ?_⟩
      · cases hreleases with
        | done _ _ hremoves =>
            rw [hnames.removes.unique hremoves]
      · rcases hreleases.exists_perm with ⟨first, hfirst, hperm⟩
        rw [hperm.countP_eq, List.countP_cons, if_pos hfirst]

/-! ## What a step can do -/

/-- The steps that are possible at a stage, one way each, with what they do to the list. -/
inductive Stage.Takes (caller : Nat) (world : World) : Stage → Progress → Prop
  | wait (stage : Stage) : Takes caller world stage ⟨some stage, world, []⟩
  | unopened (bundle : Bundle) (descriptor : PlatformDescriptor) (failure : Failure) :
      Takes caller world (.opening bundle descriptor)
        (returns caller (.extracted (.error failure)) world)
  | opened (bundle : Bundle) (descriptor : PlatformDescriptor) (stream : Stream) :
      Takes caller world (.opening bundle descriptor)
        ⟨some (.naming descriptor stream), world, []⟩
  | made (descriptor : PlatformDescriptor) (stream : Stream) (path : Path) (place : Location)
      (after : World) (same : after.pending = world.pending) :
      Takes caller world (.naming descriptor stream)
        ⟨some (.filling descriptor.resourceSubpath path place stream), after,
          [.named caller path]⟩
  | taken (descriptor : PlatformDescriptor) (stream : Stream) (path : Path) (after : World)
      (same : after.pending = world.pending) :
      Takes caller world (.naming descriptor stream)
        ⟨some (.naming descriptor stream), after, [.named caller path]⟩
  | unmade (descriptor : PlatformDescriptor) (stream : Stream) (path : Path) (failure : Failure)
      (after : World) (same : after.pending = world.pending) :
      Takes caller world (.naming descriptor stream)
        ⟨none, after, [.returned caller (.extracted (.error failure)), .named caller path]⟩
  | unnamed (descriptor : PlatformDescriptor) (stream : Stream) (kind : FaultKind) :
      Takes caller world (.naming descriptor stream) (unnamed caller descriptor kind world)
  | filled (resource : String) (path : Path) (place : Location) (stream : Stream)
      (content : Bytes) :
      Takes caller world (.filling resource path place stream)
        ⟨some (.registering resource path), fill world place content, []⟩
  | unfilled (resource : String) (path : Path) (place : Location) (stream : Stream)
      (failure : Failure) :
      Takes caller world (.filling resource path place stream)
        ⟨some (.discarding failure path), world, []⟩
  | registered (resource : String) (path : Path) :
      Takes caller world (.registering resource path)
        (returns caller (.extracted (.ok ⟨resource, path⟩)) (world.register path))
  | discarded (failure : Failure) (path : Path) :
      Takes caller world (.discarding failure path)
        (returns caller (.extracted (.error failure)) (world.unlink path).2)
  | released (path entry : Path) (after : World) (found : entry.sameComponents path = true)
      (perm : world.pending.Perm (entry :: after.pending)) :
      Takes caller world (.releasing path) (returns caller (.released path true) after)
  | unreleased (path : Path) :
      Takes caller world (.releasing path) (returns caller (.released path false) world)
  | took :
      Takes caller world .taking ⟨some (.deleting world.pending 0), { world with pending := [] }, []⟩
  | counted (path : Path) (rest : List Path) (count : Nat) :
      Takes caller world (.deleting (path :: rest) count)
        ⟨some (.deleting rest (count + 1)), (world.unlink path).2, [.counted caller path]⟩
  | dropped (path : Path) (rest : List Path) (count : Nat) :
      Takes caller world (.deleting (path :: rest) count)
        ⟨some (.deleting rest count), world, [.dropped caller path]⟩
  | cleaned (count : Nat) :
      Takes caller world (.deleting [] count) (returns caller (.cleaned count) world)

theorem Stage.takes_advance (caller : Nat) (world : World) (stage : Stage) :
    stage.Takes caller world (stage.advance caller world) := by
  cases stage with
  | opening bundle descriptor =>
      simp only [Stage.advance]
      split
      · exact .unopened bundle descriptor _
      · exact .unopened bundle descriptor _
      · exact .opened bundle descriptor _
  | naming descriptor stream =>
      exact .wait _
  | filling resource path place stream =>
      simp only [Stage.advance]
      split
      · exact .unfilled resource path place stream _
      · exact .filled resource path place stream _
  | registering resource path =>
      exact .registered resource path
  | discarding failure path =>
      exact .discarded failure path
  | releasing path =>
      simp only [Stage.advance]
      rcases releaseExtracted_cases world path with hsame | ⟨entry, after, hdone, hfound, hperm⟩
      · rw [hsame]
        exact .unreleased path
      · rw [hdone]
        exact .released path entry after hfound hperm
  | taking =>
      exact .took
  | deleting todo count =>
      cases todo with
      | nil =>
          exact .cleaned count
      | cons path rest =>
          simp only [Stage.advance]
          split
          · rename_i unlinked hunlink
            have hafter : unlinked = (world.unlink path).2 := by rw [hunlink]
            rw [hafter]
            exact .counted path rest count
          · exact .dropped path rest count

theorem takes_named (caller : Nat) (world : World) (descriptor : PlatformDescriptor)
    (stream : Stream) (path : Path) :
    (Stage.naming descriptor stream).Takes caller world
      (named caller descriptor stream path world) := by
  simp only [named, World.withFiles]
  split
  · rename_i place made hnew
    exact .made descriptor stream path place made (by rw [← (Prod.mk.inj hnew).2])
  · exact .taken descriptor stream path _ rfl
  · exact .unmade descriptor stream path _ _ rfl

end Registry
end NativeLaunch
