import Mathlib.Data.List.Induction
import NativeLaunch.Proofs.FileTree.Walking
import NativeLaunch.Proofs.Launch.Copying
import NativeLaunch.Proofs.Launch.Extraction

/-!
# Exact copies

An extraction leaves a whole copy of the artifact, or nothing at all.  This file defines:

* `Bundle.Resources.ofCalls` — what is held in memory after some calls that add a resource each;
* `Delivers` — a file has come to stand where nothing stood, and nothing else has changed;
* `CopiesExactly` — what comes of a stream without faults;
* `LeavesNoTrace` — what a failure says, and that it is all there is of it.

The first theorem is about the extractions that succeed (`extract_exact`), the second about those that
fail (`extract_traceless`).
-/

namespace NativeLaunch

/-! ## Resources in memory -/

namespace Bundle
namespace Resources

/-- What is held after some calls that add a resource each, the first call first. -/
def ofCalls (calls : List (String × Bytes)) : Resources :=
  calls.foldl (fun resources call => resources.add call.1 call.2) []

theorem lookup_add (resources : Resources) (path : String) (content : Bytes) (other : String) :
    (resources.add path content).lookup other =
      if other = path then some content else resources.lookup other := by
  by_cases hother : other = path
  · simp [add, hother]
  · simp only [add, lookup_cons_ne hother, lookup_filter_ne, if_neg hother]

theorem ofCalls_concat (calls : List (String × Bytes)) (path : String) (content : Bytes) :
    ofCalls (calls ++ [(path, content)]) = (ofCalls calls).add path content := by
  simp [ofCalls]

/-- Of all calls for a path, the last one counts. -/
theorem lookup_ofCalls {path : String} {content : Bytes} (earlier : List (String × Bytes))
    {later : List (String × Bytes)} (hlater : ∀ call ∈ later, call.1 ≠ path) :
    (ofCalls (earlier ++ (path, content) :: later)).lookup path = some content := by
  induction later using List.reverseRecOn with
  | nil =>
      rw [ofCalls_concat, lookup_add, if_pos rfl]
  | append_singleton later last ih =>
      have hlast : last.1 ≠ path := hlater last (by simp)
      have hcalls : earlier ++ (path, content) :: (later ++ [last]) =
          earlier ++ (path, content) :: later ++ [(last.1, last.2)] := by
        simp
      rw [hcalls, ofCalls_concat, lookup_add, if_neg hlast.symm]
      apply ih
      intro call hcall
      exact hlater call (List.mem_append_left _ hcall)

end Resources
end Bundle

namespace World

/-! ## Files that are delivered -/

/-- A file of some content has come to stand where nothing stood, and is registered last; no other file
has changed, and all that could be read reads as before. -/
structure Delivers (before : World) (path : Path) (content : Bytes) (after : World) : Prop
    extends Equips before path content after where
  filled : after.read path = .ok content
  spared : ∃ place, before.files.Frees before.workingDirectory path place ∧
    after.files.Names after.workingDirectory path place content ∧
    ∀ other, other ≠ place → after.files.node? other = before.files.node? other
  kept : ∀ other bytes, before.read other = .ok bytes → after.read other = .ok bytes

/-- What an extraction for a platform makes of a stream without faults that last. -/
structure CopiesExactly (descriptor : PlatformDescriptor) (world : World) : Prop where
  scripted : ∀ (bundle : Bundle) (stream : Stream),
    bundle.openResource world.files world.workingDirectory descriptor.resourceSubpath =
      .ok (some stream) →
    stream.IsClean → world.medium.Holds stream.content →
    ∃ path after, world.extract bundle descriptor =
        (.ok ⟨descriptor.resourceSubpath, path⟩, after) ∧
      Delivers world path stream.content after
  -- That is so whatever the buffer is through which the stream is copied.
  buffered : ∀ (stream : Stream) (size : Nat), 0 < size →
    copyThrough size world.medium [] stream = copy world.medium [] stream
  remembered : ∀ (earlier : List (String × Bytes)) (content : Bytes)
    (later : List (String × Bytes)), (∀ call ∈ later, call.1 ≠ descriptor.resourceSubpath) →
    world.medium.Holds content →
    ∃ path after,
      world.extract (.memory
          (.ofCalls (earlier ++ (descriptor.resourceSubpath, content) :: later))) descriptor =
        (.ok ⟨descriptor.resourceSubpath, path⟩, after) ∧
      Delivers world path content after

section Delivers

variable {bundle : Bundle} {descriptor : PlatformDescriptor} {world after : World} {path : Path}
  {content : Bytes} {stream : Stream}

theorem read_of_within {other : Path} {bytes : Bytes}
    (hwithin : world.files.Within after.files)
    (hworking : after.workingDirectory = world.workingDirectory)
    (h : world.read other = .ok bytes) : after.read other = .ok bytes := by
  unfold read FileTree.read at h ⊢
  rw [hworking]
  cases hfind : world.files.find world.workingDirectory other with
  | error kind =>
      simp [hfind] at h
  | ok found =>
      rcases found with ⟨place, node⟩
      rw [hwithin.find hfind]
      simpa [hfind] using h

theorem Extracted.delivers (h : Extracted bundle descriptor world path content after) :
    Delivers world path content after := by
  have hequips := h.equips
  cases h with
  | @intro stream path place made content opens makes copies =>
      have hmade := createTemporary_ok makes
      have hfree := hmade.free.node?_eq_none
      have hfiles : made.files.insert place (.file content) =
          world.files.insert place (.file content) := by
        rw [hmade.made, FileTree.insert_insert]
      have hworking : made.workingDirectory = world.workingDirectory := by rw [hmade.made]
      have hnames : (made.files.insert place (.file content)).Names made.workingDirectory path place
          content := by
        rw [hfiles, hworking]
        exact hmade.free.names_insert content
      refine { hequips with filled := ?_, spared := ⟨place, hmade.free, hnames, ?_⟩, kept := ?_ }
      · simp [read, FileTree.read, hnames.find_eq]
      · intro other hother
        simp only [hfiles, FileTree.node?_insert (FileTree.ne_nil_of_node? hfree), if_neg hother]
      · intro other bytes hread
        refine read_of_within ?_ hworking hread
        simp only [hfiles]
        exact FileTree.within_insert hfree _

/-- A resource whose stream can be copied is extracted, if a file can be made. -/
theorem exists_delivers
    (hcreates : (world.createTemporary Platform.libraryName descriptor.fileExtension).1.isOk = true)
    (hopens : bundle.openResource world.files world.workingDirectory descriptor.resourceSubpath =
      .ok (some stream))
    (hclean : stream.IsClean) (hholds : world.medium.Holds stream.content) :
    ∃ path after, world.extract bundle descriptor = (.ok ⟨descriptor.resourceSubpath, path⟩, after) ∧
      Delivers world path stream.content after := by
  cases hmakes : world.createTemporary Platform.libraryName descriptor.fileExtension with
  | mk answer made =>
      cases answer with
      | error fault =>
          rw [hmakes] at hcreates
          cases hcreates
      | ok found =>
          rcases found with ⟨path, place⟩
          have hcopies : copy world.medium [] stream = .ok stream.content :=
            copy_eq_ok_iff.2 ⟨hclean, hholds, rfl⟩
          have hextracted : Extracted bundle descriptor world path stream.content _ :=
            .intro hopens hmakes hcopies
          exact ⟨path, _, hextracted.extract_eq, hextracted.delivers⟩

/-- The one chunk of a resource in memory, which may be empty, is the content of its stream. -/
theorem isClean_single (content : Bytes) :
    Stream.IsClean [.chunk content] ∧ Stream.content [.chunk content] = content := by
  cases content with
  | nil =>
      simp [Stream.IsClean, Stream.content, Stream.beforeEnd]
  | cons byte bytes =>
      simp [Stream.IsClean, Stream.content, Stream.beforeEnd, ReadStep.bytes]

end Delivers

/-- Where a file can be made and written, an extraction copies the artifact byte by byte. -/
theorem extract_exact {descriptor : PlatformDescriptor} {world : World}
    (hcreates :
      (world.createTemporary Platform.libraryName descriptor.fileExtension).1.isOk = true) :
    CopiesExactly descriptor world where
  scripted bundle stream hopens hclean hholds := exists_delivers hcreates hopens hclean hholds
  buffered stream size hsize := copyThrough_eq hsize world.medium [] stream
  remembered earlier content later hlater hholds := by
    rcases isClean_single content with ⟨hclean, hcontent⟩
    have hopens : (Bundle.memory (.ofCalls
        (earlier ++ (descriptor.resourceSubpath, content) :: later))).openResource world.files
          world.workingDirectory descriptor.resourceSubpath = .ok (some [.chunk content]) := by
      simp only [Bundle.memory, Bundle.Resources.lookup_ofCalls earlier hlater, Option.map_some]
    rw [← hcontent] at hholds
    have hdelivers := exists_delivers hcreates hopens hclean hholds
    rw [hcontent] at hdelivers
    exact hdelivers

/-- A script with interruptions, in which more comes after the end. -/
def restless : Stream :=
  [.fault ⟨.interrupted, none⟩, .chunk [0x7F, 0x45], .fault ⟨.interrupted, some "signal"⟩,
    .chunk [0x4C, 0x46], .chunk [], .fault ⟨.unexpectedEof, none⟩, .chunk [0x00]]

theorem extract_restless :
    (furnished.createTemporary Platform.libraryName ".so").1.isOk = true ∧
      CopiesExactly ⟨.linux, "x86_64", "lib", ".so", "/linux/x86_64/libpico_limbo.so"⟩ furnished ∧
      ∃ path after, furnished.extract (.uniform (.ok restless))
          ⟨.linux, "x86_64", "lib", ".so", "/linux/x86_64/libpico_limbo.so"⟩ =
          (.ok ⟨"/linux/x86_64/libpico_limbo.so", path⟩, after) ∧
        after.read path = .ok [0x7F, 0x45, 0x4C, 0x46] := by
  have hcreates : (furnished.createTemporary Platform.libraryName ".so").1.isOk = true := by cbv
  have hclean : restless.IsClean := by
    simp [Stream.IsClean, Stream.beforeEnd, restless, Fault.isInterruption]
  have hholds : furnished.medium.Holds restless.content := ⟨by simp [Medium.Fits, furnished], rfl⟩
  have hexact : CopiesExactly ⟨.linux, "x86_64", "lib", ".so", "/linux/x86_64/libpico_limbo.so"⟩
      furnished := extract_exact hcreates
  rcases hexact.scripted (.uniform (.ok restless)) restless rfl hclean hholds with
    ⟨path, after, hextract, hdelivers⟩
  exact ⟨hcreates, hexact, path, after, hextract, hdelivers.filled⟩

/-! ## Files that are not -/

/-- What is said of an extraction that fails, and what is left of it. -/
structure LeavesNoTrace (bundle : Bundle) (descriptor : PlatformDescriptor) (world : World) :
    Prop where
  failed : ∀ failure, (world.extract bundle descriptor).1 = .error failure ↔
    ∃ stage, Unextracted bundle descriptor world stage failure
  -- A missing entry, and nothing else, is told as one, whatever becomes of temporary files.
  missing : ∀ resource, (world.extract bundle descriptor).1 = .error (.artifactNotFound resource) ↔
    resource = descriptor.resourceSubpath ∧
      bundle.openResource world.files world.workingDirectory descriptor.resourceSubpath = .ok none
  uncreated : ∀ failure, Unextracted bundle descriptor world .file failure →
    ∃ fault, failure = .extraction descriptor.resourceSubpath world.temporaryDirectory fault ∧
      fault.isInterruption = false
  -- A copy tells the first of its faults that lasts, and the file that it has filled up to there.
  broken : ∀ stream path place made fault,
    bundle.openResource world.files world.workingDirectory descriptor.resourceSubpath =
      .ok (some stream) →
    world.createTemporary Platform.libraryName descriptor.fileExtension =
      (.ok (path, place), made) →
    ((world.extract bundle descriptor).1 =
        .error (.extraction descriptor.resourceSubpath path fault) ↔
      stream.Breaks world.medium [] fault)
  removed : ∀ resource path fault,
    Unextracted bundle descriptor world .copy (.extraction resource path fault) →
    world.pathExists path = false ∧ (world.extract bundle descriptor).2.pathExists path = false
  traceless : ∀ failure, (world.extract bundle descriptor).1 = .error failure →
    UsesNames world (world.extract bundle descriptor).2

section Traceless

variable {bundle : Bundle} {descriptor : PlatformDescriptor} {world : World} {failure : Failure}

theorem extract_eq_error_iff :
    (world.extract bundle descriptor).1 = .error failure ↔
      ∃ stage, Unextracted bundle descriptor world stage failure := by
  constructor
  · intro hfailed
    rcases unextracted_or_extracted bundle descriptor world with
      ⟨stage, other, hunextracted⟩ | ⟨path, content, after, hextracted⟩
    · rcases hunextracted.extract_eq with ⟨after, hresult, _⟩
      rw [hresult] at hfailed
      cases hfailed
      exact ⟨stage, hunextracted⟩
    · rw [hextracted.extract_eq] at hfailed
      cases hfailed
  · rintro ⟨stage, hunextracted⟩
    rcases hunextracted.extract_eq with ⟨after, hresult, _⟩
    rw [hresult]

theorem Unextracted.usesNames {stage : Stage}
    (h : Unextracted bundle descriptor world stage failure) :
    UsesNames world (world.extract bundle descriptor).2 := by
  rcases h.extract_eq with ⟨after, hresult, hafter⟩
  rw [hresult]
  exact hafter

theorem UsesNames.pathExists_eq {after : World} (h : UsesNames world after) (path : Path) :
    after.pathExists path = world.pathExists path := by
  rw [show after = _ from h]
  rfl

end Traceless

/-- An extraction that fails says at which stage, and leaves everything as it was but for the names that
it has used up. -/
theorem extract_traceless (bundle : Bundle) (descriptor : PlatformDescriptor) (world : World) :
    LeavesNoTrace bundle descriptor world where
  failed failure := extract_eq_error_iff
  missing resource := by
    rw [extract_eq_error_iff]
    constructor
    · rintro ⟨stage, hunextracted⟩
      cases hunextracted with
      | missing hfails =>
          exact ⟨rfl, hfails⟩
    · rintro ⟨rfl, hfails⟩
      exact ⟨.resource, .missing hfails⟩
  uncreated failure hunextracted := by
    cases hunextracted with
    | file _ hfails =>
        exact ⟨_, rfl, (createTemporary_error hfails).1⟩
  broken stream path place made fault hopens hmakes := by
    rw [extract_eq_error_iff, ← copy_eq_error_iff]
    constructor
    · rintro ⟨stage, hunextracted⟩
      -- The resource was opened and the file was made, so that only the copy is left to fail.
      cases hunextracted with
      | unreadable hfails =>
          rw [hopens] at hfails
          cases hfails
      | file _ hfails =>
          rw [hmakes] at hfails
          cases hfails
      | copy hopens' _ hfails =>
          rw [hopens] at hopens'
          cases hopens'
          exact hfails
    · intro hfails
      exact ⟨.copy, .copy hopens hmakes hfails⟩
  removed resource path fault hunextracted := by
    have hfresh : world.pathExists path = false := by
      cases hunextracted with
      | copy _ hmakes _ =>
          have hfree := (createTemporary_ok hmakes).free
          simp [pathExists, FileTree.pathExists, hfree.find_error, Except.isOk, Except.toBool]
    refine ⟨hfresh, ?_⟩
    rw [hunextracted.usesNames.pathExists_eq, hfresh]
  traceless failure hfailed := by
    rcases extract_eq_error_iff.1 hfailed with ⟨stage, hunextracted⟩
    exact hunextracted.usesNames

end World
end NativeLaunch
