import Mathlib.Data.List.FinRange
import NativeLaunch.Proofs.Registry.Accounts

/-!
# What a release takes away

A release that succeeds has unlinked its path and taken one entry off the list.  The entry that is
dropped then unlinks its own spelling once more, and finds nothing there.  The cleanup at the end tries
every entry once.  This file defines:

* `World.Discharges` — what has changed when a release has succeeded;
* `World.tried` — the surroundings after some paths were unlinked, as far as they could be;
* `World.ReleasesOne` — all that releases and the cleanup do to the list and to the files.
-/

namespace NativeLaunch
namespace World

/-! ## What a release has changed -/

/-- One entry is off the list and what the path led to is gone; all else is as it was. -/
structure Discharges (before : World) (path entry : Path) (index : Nat) (place : Location)
    (after : World) : Prop where
  listed : before.pending[index]? = some entry
  alike : entry.sameComponents path = true
  removes : before.files.Removes before.workingDirectory path place
  frame : after = { before with files := after.files, pending := after.pending }
  -- Of the entries there is one less, and only the last one has moved.
  length_eq : after.pending.length + 1 = before.pending.length
  moved : ∀ i < after.pending.length,
    after.pending[i]? = if i = index then before.pending.getLast? else before.pending[i]?
  forgotten : ∀ other ∈ after.pending, other.sameComponents path = false
  gone : after.files.node? place = none
  spared : ∀ other, other ≠ place → after.files.node? other = before.files.node? other
  -- The entry that is dropped unlinks its own spelling, to no effect.
  exhausted : (after.unlink entry).2 = after

/-- Among unlike entries, no other is alike to the path of one that is taken out. -/
theorem unlike_swapRemove {entries : List Path} {path entry : Path} {index : Nat}
    (hunlike : Registry.Unlike entries) (hlisted : entries[index]? = some entry)
    (halike : entry.sameComponents path = true) :
    ∀ other ∈ swapRemove entries index, other.sameComponents path = false := by
  rcases List.getElem?_eq_some_iff.1 hlisted with ⟨hlt, rfl⟩
  have hcount := (perm_swapRemove hlt).countP_eq (·.sameComponents path)
  have hone := Registry.countP_le_one hunlike path
  rw [List.countP_cons, if_pos halike] at hcount
  have hzero : (swapRemove entries index).countP (·.sameComponents path) = 0 := by omega
  intro other hother
  have hother := List.countP_eq_zero.1 hzero other hother
  simpa using hother

theorem Releases.discharges {world after : World} {path : Path}
    (hunlike : Registry.Unlike world.pending) (h : Releases world path true after) :
    ∃ entry index place, Discharges world path entry index place after := by
  cases h with
  | @done index entry place hlisted halike hremoves =>
      have hlt : index < world.pending.length := (List.getElem?_eq_some_iff.1 hlisted).1
      refine ⟨entry, index, place, {
        listed := hlisted, alike := halike, removes := hremoves, frame := rfl
        length_eq := length_swapRemove hlt, moved := ?_
        forgotten := unlike_swapRemove hunlike hlisted halike
        gone := ?_, spared := ?_, exhausted := ?_ }⟩
      · intro i hi
        exact getElem?_swapRemove hlt hi
      · rw [FileTree.node?_erase hremoves.ne_nil, if_pos rfl]
      · intro other hother
        rw [FileTree.node?_erase hremoves.ne_nil, if_neg hother]
      · have hback : path.sameComponents entry = true :=
          Registry.sameComponents_iff.2 (Registry.sameComponents_iff.1 halike).symm
        simp only [unlink, withFiles, FileTree.unlink_alike hremoves hback]

/-! ## Cleaning up -/

/-- The surroundings after some paths were unlinked one after the other, if they could be. -/
def tried (world : World) (paths : List Path) : World :=
  paths.foldl (fun world path => (world.unlink path).2) world

/-- How many of some paths can be unlinked, each when those before it have been tried. -/
def countUnlinked (world : World) (paths : List Path) : Nat :=
  (List.finRange paths.length).countP fun i : Fin paths.length =>
    ((world.tried (paths.take i)).unlink paths[i]).1.isOk

theorem countUnlinked_cons (world : World) (path : Path) (rest : List Path) :
    world.countUnlinked (path :: rest) =
      (if (world.unlink path).1.isOk then 1 else 0) +
        (world.unlink path).2.countUnlinked rest := by
  have hpositions : List.finRange (path :: rest).length =
      0 :: (List.finRange rest.length).map Fin.succ := List.finRange_succ
  unfold countUnlinked
  rw [hpositions, List.countP_cons, List.countP_map, Nat.add_comm]
  rfl

theorem unlinkEach_eq (world : World) (paths : List Path) :
    world.unlinkEach paths = (world.countUnlinked paths, world.tried paths) := by
  induction paths generalizing world with
  | nil =>
      rfl
  | cons path rest ih =>
      rw [unlinkEach, countUnlinked_cons]
      rcases unlink_cases world path with ⟨kind, hunlink, _⟩ | ⟨place, hunlink, _⟩
      · simp only [hunlink, tried, List.foldl_cons]
        rw [ih, tried]
        simp [Except.isOk, Except.toBool]
      · simp only [hunlink, tried, List.foldl_cons]
        rw [ih, tried]
        simp [Except.isOk, Except.toBool, Nat.add_comm]

/-- Paths are unlinked in the same way whatever is registered. -/
theorem tried_pending (world : World) (pending paths : List Path) :
    tried { world with pending := pending } paths =
      { world.tried paths with pending := pending } := by
  induction paths generalizing world with
  | nil =>
      rfl
  | cons path rest ih =>
      exact ih (world.unlink path).2

theorem runExitCleanup_eq (world : World) :
    world.runExitCleanup =
      (world.countUnlinked world.pending, { world.tried world.pending with pending := [] }) := by
  unfold runExitCleanup
  rw [unlinkEach_eq, tried_pending]
  unfold countUnlinked
  simp only [tried_pending]
  rfl

/-! ## The whole of it -/

/-- What releases and the cleanup make of what is registered and of the files. -/
structure ReleasesOne (world : World) : Prop where
  released_iff : ∀ path, (world.releaseExtracted path).1 = true ↔
    (∃ entry ∈ world.pending, entry.sameComponents path = true) ∧
      (world.unlink path).1.isOk = true
  discharges : ∀ path after, world.releaseExtracted path = (true, after) →
    ∃ entry index place, Discharges world path entry index place after
  refused : ∀ path after, world.releaseExtracted path = (false, after) → after = world
  cleaned : world.runExitCleanup =
    (world.countUnlinked world.pending, { world.tried world.pending with pending := [] })
  finished : world.runExitCleanup.2.runExitCleanup = (0, world.runExitCleanup.2)

/-- Among unlike entries, a release takes away one and its file, or nothing, and the cleanup tries each
of them once. -/
theorem releases_one {world : World} (hunlike : Registry.Unlike world.pending) :
    ReleasesOne world where
  released_iff path := (releases_releaseExtracted world path).true_iff
  discharges path after h := (Releases.of_eq h).discharges hunlike
  refused path after h := (Releases.of_eq h).eq_of_false
  cleaned := runExitCleanup_eq world
  finished := by
    simp only [runExitCleanup_eq world]
    rfl

/-- Two files and a directory that has taken the place of a third. -/
def littered : World where
  files := ⟨[([Utf8.encode "tmp"], .directory),
    ([Utf8.encode "tmp", Utf8.encode "a"], .file [0x7F]),
    ([Utf8.encode "tmp", Utf8.encode "b"], .directory),
    ([Utf8.encode "tmp", Utf8.encode "c"], .file [])]⟩
  pending := [.ofString "/tmp/a", .ofString "/tmp/b", .ofString "/tmp/c"]

/-- The first entry is released under another spelling, the second cannot be, and the cleanup counts the
third. -/
theorem releases_littered :
    Registry.Unlike littered.pending ∧ ReleasesOne littered ∧
      (littered.releaseExtracted (.ofString "/tmp//./a")).1 = true ∧
      (littered.releaseExtracted (.ofString "/tmp//./a")).2.pending =
        [.ofString "/tmp/c", .ofString "/tmp/b"] ∧
      (littered.releaseExtracted (.ofString "/tmp/b")).1 = false ∧
      (littered.releaseExtracted (.ofString "/tmp//./a")).2.runExitCleanup.1 = 1 := by
  have hunlike : Registry.Unlike littered.pending := by
    simp only [Registry.Unlike]
    decide
  exact ⟨hunlike, releases_one hunlike, by cbv, by cbv, by cbv, by cbv⟩

end World
end NativeLaunch
