import NativeLaunch.Proofs.FileTree.Crossing
import NativeLaunch.Proofs.Launch.Extraction
import NativeLaunch.Proofs.Registry.Releases

/-!
# Releases in another order

A release moves the last entry of the registry to where the one was that it takes out.  So two orders of
the same releases leave two lists, and what is found at an index after the one is not there after the
other.  But what a release removes does not depend on those before it, and the lists have the same
entries.  This file defines:

* `World.released?` — what the release of a path removes, if anything;
* `World.Orderly` — no two entries of the registry are alike, and none crosses another;
* `World.releaseInTurn` — releases one after the other, with the answer for each path;
* `World.Apart` — no two of some paths remove the same;
* `World.Settled` — what releases leave, in terms of the surroundings before all of them;
* `World.Undisturbed` — what a process makes of its surroundings while nobody else changes them;
* `World.OrderFree` — two orders of the same releases make no difference.

The order makes no difference as long as no entry leads to a link that another is led over.  Where one
does, the other can be released before that link is gone, and not after.  A process on its own registers
no such path: it registers files that it has made, and no way leads over a file (`Undisturbed.orderly`).
-/

namespace NativeLaunch
namespace World

/-! ## One release -/

section Release

variable {world : World} {path other : Path} {place : Location}

/-- What the release of a path removes, if anything. -/
def released? (world : World) (path : Path) : Option Location :=
  if world.pending.any (·.sameComponents path) then
    world.files.removed? world.workingDirectory path
  else none

theorem released?_eq_some_iff : world.released? path = some place ↔
    (∃ entry ∈ world.pending, entry.sameComponents path = true) ∧
      world.files.Removes world.workingDirectory path place := by
  rw [released?, Option.ite_none_right_eq_some, List.any_eq_true, FileTree.removed?_eq_some_iff]

theorem removed?_of_released? (h : world.released? path = some place) :
    world.files.removed? world.workingDirectory path = some place :=
  FileTree.removed?_eq_some_iff.2 (released?_eq_some_iff.1 h).2

theorem releaseExtracted_of_none (h : world.released? path = none) :
    world.releaseExtracted path = (false, world) := by
  cases hrelease : world.releaseExtracted path with
  | mk answer after =>
      cases Releases.of_eq hrelease with
      | unlisted _ =>
          rfl
      | undeleted _ =>
          rfl
      | @done index entry place hlisted halike hremoves =>
          have hsome := released?_eq_some_iff.2 ⟨⟨entry, List.mem_of_getElem? hlisted, halike⟩, hremoves⟩
          rw [h] at hsome
          cases hsome

/-- What a release leaves that removes what stands at a place: all but that, and but the one entry that is
alike to its path. -/
structure Removed (world : World) (path : Path) (place : Location) (after : World) : Prop where
  files_eq : after.files = world.files.erase place
  pending_perm : after.pending.Perm (world.pending.filter (!·.sameComponents path))
  frame : after = { world with files := after.files, pending := after.pending }

theorem exists_releaseExtracted (hunlike : Registry.Unlike world.pending)
    (h : world.released? path = some place) :
    ∃ after, world.releaseExtracted path = (true, after) ∧ world.Removed path place after := by
  rcases released?_eq_some_iff.1 h with ⟨hregistered, hremoves⟩
  cases hrelease : world.releaseExtracted path with
  | mk answer after =>
      cases Releases.of_eq hrelease with
      | unlisted hnone =>
          rcases hregistered with ⟨entry, hentry, halike⟩
          rw [hnone entry hentry] at halike
          cases halike
      | undeleted hstays =>
          rw [isOk_unlink_iff.2 ⟨place, hremoves⟩] at hstays
          cases hstays
      | @done index entry erased hlisted halike herased =>
          rcases List.getElem?_eq_some_iff.1 hlisted with ⟨hlt, rfl⟩
          -- None of the entries that are left is alike, so that a filter leaves them all.
          have hothers : (swapRemove world.pending index).filter (!·.sameComponents path) =
              swapRemove world.pending index := by
            rw [List.filter_eq_self]
            intro other hother
            rw [unlike_swapRemove hunlike hlisted halike other hother]
            rfl
          have hperm := (perm_swapRemove hlt).filter (!·.sameComponents path)
          rw [List.filter_cons_of_neg (by simpa using halike), hothers] at hperm
          exact ⟨_, rfl, by rw [herased.unique hremoves], hperm.symm, rfl⟩

/-- No two entries of the registry are alike, and none leads to a link that another is led over. -/
structure Orderly (world : World) : Prop where
  unlike : Registry.Unlike world.pending
  uncrossed : world.files.Uncrossed world.workingDirectory world.pending

namespace Orderly

/-- A registry in order is in order after a release. -/
theorem releases {answer : Bool} {after : World} (h : world.Orderly)
    (hreleases : Releases world path answer after) : after.Orderly where
  unlike := h.unlike.subperm hreleases.pending_subperm
  uncrossed := by
    rw [hreleases.workingDirectory_eq]
    exact h.uncrossed.within hreleases.within hreleases.pending_subperm.subset

/-- Of two registered paths none crosses the other, whatever their spelling. -/
theorem alike_or_uncrossed {entry entry' : Path} (h : world.Orderly)
    (hentry : entry ∈ world.pending) (halike : entry.sameComponents path = true)
    (hentry' : entry' ∈ world.pending) (halike' : entry'.sameComponents other = true) :
    path.sameComponents other = true ∨
      world.files.crosses world.workingDirectory path other = false := by
  rw [← FileTree.crosses_alike halike halike']
  refine (h.uncrossed entry hentry entry' hentry').imp_left ?_
  intro hentries
  rw [Registry.sameComponents_iff] at *
  exact (halike.symm.trans hentries).trans halike'

/-- After a release, each path would remove what it would have removed before, unless that is gone. -/
theorem released?_eq {after : World} (horderly : world.Orderly)
    (h : world.released? path = some place) (hafter : world.Removed path place after)
    (other : Path) : after.released? other = (world.released? other).filter (· ≠ place) := by
  rcases released?_eq_some_iff.1 h with ⟨⟨entry, hentry, halike⟩, hremoves⟩
  have hpending : after.pending.any (·.sameComponents other) =
      world.pending.any fun entry => !entry.sameComponents path && entry.sameComponents other := by
    rw [hafter.pending_perm.any_eq, List.any_filter]
  have hdirectory : after.workingDirectory = world.workingDirectory := by rw [hafter.frame]
  rw [released?, released?, hpending, hdirectory, hafter.files_eq]
  by_cases hother : world.pending.any (·.sameComponents other) = true
  · rw [if_pos hother]
    rcases List.any_eq_true.1 hother with ⟨entry', hentry', halike'⟩
    by_cases hsame : path.sameComponents other = true
    · -- The entry of both is off the list, and what both led to is gone.
      rw [if_neg, eq_comm, Option.filter_eq_none_iff]
      · intro place' hplace'
        have hremoves' := FileTree.removed?_eq_some_iff.1 hplace'
        simpa using hremoves.alike hsame hremoves'
      · simp only [Registry.sameComponents_iff] at hsame
        simp [Path.sameComponents, hsame]
    · rw [if_pos]
      · exact FileTree.removed?_erase hremoves
          (horderly.alike_or_uncrossed hentry halike hentry' halike')
      · have hunlike' : entry'.sameComponents path = false := by
          rw [Bool.eq_false_iff]
          intro hpath
          rw [Registry.sameComponents_iff] at hpath halike' hsame
          exact hsame (hpath.symm.trans halike')
        exact List.any_eq_true.2 ⟨entry', hentry', by rw [hunlike', halike']; rfl⟩
  · rw [if_neg hother, if_neg]
    · rfl
    · simp_all

theorem released?_of_apart {after : World} (horderly : world.Orderly)
    (h : world.released? path = some place) (hafter : world.Removed path place after)
    (hapart : ∀ place ∈ world.files.removed? world.workingDirectory path,
      place ∉ world.files.removed? world.workingDirectory other) :
    after.released? other = world.released? other := by
  rw [horderly.released?_eq h hafter]
  cases hother : world.released? other with
  | none =>
      rfl
  | some place' =>
      have hne : place' ≠ place := by
        rintro rfl
        exact hapart place' (removed?_of_released? h) (removed?_of_released? hother)
      rw [Option.filter_some, if_pos (by simpa using hne)]

end Orderly

end Release

/-! ## Releases in turn -/

/-- Releases paths one after the other; answers for each of them whether it was released. -/
def releaseInTurn (world : World) : List Path → List (Path × Bool) × World
  | [] => ([], world)
  | path :: rest =>
    let (answer, next) := world.releaseExtracted path
    let (answers, after) := next.releaseInTurn rest
    ((path, answer) :: answers, after)

/-- A launcher releases its files in turn and keeps those that were not released. -/
theorem releaseEach_eq (world : World) (paths : List Path) :
    world.releaseEach paths =
      (((world.releaseInTurn paths).1.filter (!·.2)).map Prod.fst, (world.releaseInTurn paths).2) := by
  induction paths generalizing world with
  | nil =>
      rfl
  | cons path rest ih =>
      rw [releaseEach, releaseInTurn]
      rcases hrelease : world.releaseExtracted path with ⟨answer, next⟩
      cases answer <;> simp [ih]

theorem map_fst_releaseInTurn (world : World) (paths : List Path) :
    (world.releaseInTurn paths).1.map Prod.fst = paths := by
  induction paths generalizing world with
  | nil =>
      rfl
  | cons path rest ih =>
      simp [releaseInTurn, ih]

/-- What a launcher counts are the paths that were released. -/
theorem releaseArtifacts_eq (world : World) (paths : List Path) :
    world.releaseArtifacts paths =
      ((world.releaseInTurn paths).1.countP (·.2),
        ((world.releaseInTurn paths).1.filter (!·.2)).map Prod.fst,
        (world.releaseInTurn paths).2) := by
  have hlength : (world.releaseInTurn paths).1.length = paths.length := by
    rw [← List.length_map Prod.fst, map_fst_releaseInTurn]
  have hcount := @List.length_eq_countP_add_countP _ (·.2) (world.releaseInTurn paths).1
  rw [releaseArtifacts, releaseEach_eq]
  simp only [List.length_map, ← List.countP_eq_length_filter]
  simp only [Bool.not_eq_true, Bool.decide_eq_false] at hcount
  rw [← hlength, hcount, Nat.add_sub_cancel]

/-- No two of some paths remove what stands at one place. -/
def Apart (world : World) (paths : List Path) : Prop :=
  paths.Pairwise fun path other =>
    ∀ place ∈ world.files.removed? world.workingDirectory path,
      place ∉ world.files.removed? world.workingDirectory other

theorem Apart.perm {world : World} {paths others : List Path} (h : world.Apart paths)
    (hperm : paths.Perm others) : world.Apart others :=
  List.Pairwise.perm h hperm fun hdistinct place hother hpath => hdistinct place hpath hother

theorem Releases.apart {world after : World} {path : Path} {answer : Bool} {paths : List Path}
    (h : Releases world path answer after) (hapart : world.Apart paths) : after.Apart paths := by
  refine hapart.imp fun {first second} hdistinct place hfirst hsecond => ?_
  rw [h.workingDirectory_eq] at hfirst hsecond
  simp only [Option.mem_def, FileTree.removed?_eq_some_iff] at hfirst hsecond hdistinct
  exact hdistinct place (hfirst.within h.within) (hsecond.within h.within)

/-- What releases leave, and their answers, in terms of what each of them would remove as the first. -/
structure Settled (world : World) (paths : List Path) (answers : List (Path × Bool))
    (after : World) : Prop where
  answers_eq : answers = paths.map fun path => (path, (world.released? path).isSome)
  files_eq : after.files = world.files.eraseAll (paths.filterMap world.released?)
  pending_perm : after.pending.Perm (world.pending.filter fun entry =>
    !(paths.filter fun path => (world.released? path).isSome).any entry.sameComponents)
  frame : after = { world with files := after.files, pending := after.pending }

namespace Settled

variable {world next after : World} {path : Path} {rest : List Path} {answers : List (Path × Bool)}

theorem refused (hnone : world.released? path = none) (h : world.Settled rest answers after) :
    world.Settled (path :: rest) ((path, false) :: answers) after where
  answers_eq := by simp [hnone, h.answers_eq]
  files_eq := by simp [hnone, h.files_eq]
  pending_perm := by simpa [hnone] using h.pending_perm
  frame := h.frame

/-- To what the others remove, the first adds what it removes, if the others remove what they would have
removed before it. -/
theorem removed {place : Location} (hsome : world.released? path = some place)
    (hnext : world.Removed path place next)
    (hsame : ∀ other ∈ rest, next.released? other = world.released? other)
    (h : next.Settled rest answers after) :
    world.Settled (path :: rest) ((path, true) :: answers) after where
  answers_eq := by
    rw [List.map_cons, hsome]
    refine congrArg (List.cons _) (h.answers_eq.trans ?_)
    exact List.map_congr_left fun other hother => by rw [hsame other hother]
  files_eq := by
    rw [List.filterMap_cons_some hsome, ← FileTree.eraseAll_erase, ← hnext.files_eq,
      ← List.filterMap_congr hsame]
    exact h.files_eq
  pending_perm := by
    have hfilter : rest.filter (fun other => (next.released? other).isSome) =
        rest.filter fun other => (world.released? other).isSome :=
      List.filter_congr fun other hother => by rw [hsame other hother]
    refine h.pending_perm.trans ((hnext.pending_perm.filter _).trans ?_)
    rw [List.filter_filter]
    refine List.Perm.of_eq (List.filter_congr fun entry _ => ?_)
    rw [hfilter, List.filter_cons_of_pos (by rw [hsome]; rfl), List.any_cons, Bool.not_or,
      Bool.and_comm]
  frame := by
    rw [h.frame, hnext.frame]

end Settled

/-- What a release removes does not depend on those before it. -/
theorem Orderly.settled {world : World} {paths : List Path} (horderly : world.Orderly)
    (hapart : world.Apart paths) :
    world.Settled paths (world.releaseInTurn paths).1 (world.releaseInTurn paths).2 := by
  induction paths generalizing world with
  | nil =>
      exact ⟨rfl, by simp [World.releaseInTurn], by simp [World.releaseInTurn], rfl⟩
  | cons path rest ih =>
      rcases List.pairwise_cons.1 hapart with ⟨hfirst, hrest⟩
      rw [World.releaseInTurn]
      cases hremoved : world.released? path with
      | none =>
          rw [releaseExtracted_of_none hremoved]
          exact (ih horderly hrest).refused hremoved
      | some place =>
          rcases exists_releaseExtracted horderly.unlike hremoved with ⟨next, hrelease, hnext⟩
          have hreleases := Releases.of_eq hrelease
          rw [hrelease]
          -- The rest begin where the first has been released, and find what they would have found.
          refine (ih (horderly.releases hreleases) (hreleases.apart hrest)).removed hremoved hnext ?_
          intro other hother
          exact horderly.released?_of_apart hremoved hnext (hfirst other hother)

theorem Orderly.releaseInTurn {world : World} (h : world.Orderly) (paths : List Path) :
    (world.releaseInTurn paths).2.Orderly := by
  induction paths generalizing world with
  | nil =>
      exact h
  | cons path rest ih =>
      exact ih (h.releases (releases_releaseExtracted world path))

/-- Each path gets the answer that it would get as the first of all. -/
theorem Orderly.answers_eq {world : World} {paths : List Path} (h : world.Orderly)
    (hapart : world.Apart paths) : (world.releaseInTurn paths).1 =
      paths.map fun path => (path, (world.releaseExtracted path).1) := by
  rw [(h.settled hapart).answers_eq]
  refine List.map_congr_left fun path _ => ?_
  cases hremoved : world.released? path with
  | none =>
      rw [releaseExtracted_of_none hremoved]
      rfl
  | some place =>
      rcases exists_releaseExtracted h.unlike hremoved with ⟨after, hrelease, _⟩
      rw [hrelease]
      rfl

/-! ## The cleanup -/

/-- Of a list with one more entry, that one and the different others are to be counted. -/
theorem card_toFinset_cons {α : Type} [DecidableEq α] (first : α) (rest : List α) :
    (rest.filter (· ≠ first)).toFinset.card + 1 = (first :: rest).toFinset.card := by
  rw [List.toFinset_filter, List.toFinset_cons]
  simp only [decide_eq_true_eq]
  rw [Finset.filter_ne', ← Finset.erase_insert_eq_erase]
  exact Finset.card_erase_add_one (Finset.mem_insert_self first _)

/-- If none of some paths crosses another, to unlink them deletes each place that one of them leads to, and
each of these places counts once. -/
theorem unlinkEach_of_uncrossed {world : World} {paths : List Path}
    (huncrossed : world.files.Uncrossed world.workingDirectory paths) :
    world.unlinkEach paths =
      ((paths.filterMap (world.files.removed? world.workingDirectory)).toFinset.card,
        { world with
          files :=
            world.files.eraseAll (paths.filterMap (world.files.removed? world.workingDirectory)) }) := by
  induction paths generalizing world with
  | nil =>
      simp [unlinkEach]
  | cons path rest ih =>
      have hrest := huncrossed.within (FileTree.Within.refl _) (List.subset_cons_self path rest)
      rcases unlink_cases world path with ⟨kind, hunlink, hstays⟩ | ⟨place, hunlink, hremoves⟩
      · rw [unlinkEach, hunlink, List.filterMap_cons_none (FileTree.removed?_eq_none_iff.2 hstays)]
        exact ih hrest
      · have hsome := FileTree.removed?_eq_some_iff.2 hremoves
        have hless : (world.files.erase place).Uncrossed world.workingDirectory rest :=
          hrest.within (FileTree.erase_within hremoves.ne_nil) (List.Subset.refl rest)
        -- Those of the rest that lead there too fail now, and the others remove what they would have.
        have hplaces : rest.filterMap ((world.files.erase place).removed? world.workingDirectory) =
            (rest.filterMap (world.files.removed? world.workingDirectory)).filter (· ≠ place) := by
          rw [List.filter_filterMap]
          refine List.filterMap_congr fun other hother => FileTree.removed?_erase hremoves ?_
          exact huncrossed path List.mem_cons_self other (List.mem_cons_of_mem path hother)
        have hcleaned := @ih { world with files := world.files.erase place } hless
        rw [hplaces] at hcleaned
        rw [unlinkEach, hunlink, List.filterMap_cons_some hsome]
        simp only [hcleaned]
        rw [card_toFinset_cons, FileTree.eraseAll_erase_filter]

/-- A cleanup makes no difference between the orders in which a registry may stand. -/
theorem Orderly.runExitCleanup_perm {world : World} {pending : List Path} (h : world.Orderly)
    (hperm : pending.Perm world.pending) :
    { world with pending := pending }.runExitCleanup = world.runExitCleanup := by
  have hother := h.uncrossed.within (FileTree.Within.refl _) hperm.subset
  have hplaces := hperm.filterMap (world.files.removed? world.workingDirectory)
  have hcount := List.toFinset_eq_of_perm _ _ hplaces
  have hfiles := @FileTree.eraseAll_congr world.files _ _ fun place => hplaces.mem_iff
  unfold runExitCleanup
  calc { world with pending := [] }.unlinkEach pending
    _ = _ := @unlinkEach_of_uncrossed { world with pending := [] } pending hother
    _ = _ := by simp only [hcount, hfiles]
    _ = { world with pending := [] }.unlinkEach world.pending :=
        (@unlinkEach_of_uncrossed { world with pending := [] } world.pending h.uncrossed).symm

/-! ## A process on its own -/

/-- No entry of the registry leads to a link. -/
def Linkless (world : World) : Prop :=
  ∀ path ∈ world.pending, ∀ place target,
    world.files.lead world.workingDirectory path ≠ .ok (.present place (.link target))

namespace Linkless

variable {world after : World}

theorem uncrossed (h : world.Linkless) :
    world.files.Uncrossed world.workingDirectory world.pending :=
  FileTree.uncrossed_of_lead h

/-- An extraction registers a file that it has made, and makes no link. -/
theorem extract (h : world.Linkless) (bundle : Bundle) (descriptor : PlatformDescriptor) :
    (world.extract bundle descriptor).2.Linkless := by
  rcases unextracted_or_extracted bundle descriptor world with
    ⟨stage, failure, hfails⟩ | ⟨path, content, after, hextracted⟩
  · rcases hfails.extract_eq with ⟨after, hextract, huses⟩
    rw [hextract, show after = _ from huses]
    exact h
  · rw [hextracted.extract_eq]
    rcases hextracted.equips.named with ⟨place, hnames⟩
    cases hextracted with
    | @intro stream path place' made content opens makes copies =>
        have hmakes := createTemporary_ok makes
        rw [hmakes.made, FileTree.insert_insert] at hnames ⊢
        intro entry hentry other target hlead
        rcases List.mem_append.1 hentry with hold | hnew
        · exact h entry hold other target (FileTree.lead_of_insert hmakes.free.node?_eq_none hlead)
        · cases List.mem_singleton.1 hnew
          have hfile := FileTree.walk_of_resolve (by simp) (hnames.named false)
          cases hfile.symm.trans hlead

theorem releases {path : Path} {answer : Bool} (h : world.Linkless)
    (hreleases : Releases world path answer after) : after.Linkless := by
  intro entry hentry place target hlead
  rw [hreleases.workingDirectory_eq] at hlead
  exact h entry (hreleases.pending_subperm.subset hentry) place target
    (hreleases.within.walk hlead)

end Linkless

/-- What a process that begins with an empty registry makes of its surroundings, if nobody else changes
them. -/
inductive Undisturbed : World → Prop
  | start (world : World) (empty : world.pending = []) : Undisturbed world
  | extract {world : World} (bundle : Bundle) (descriptor : PlatformDescriptor)
      (before : Undisturbed world) : Undisturbed (world.extract bundle descriptor).2
  | release {world : World} (path : Path) (before : Undisturbed world) :
      Undisturbed (world.releaseExtracted path).2
  | cleanUp {world : World} (before : Undisturbed world) : Undisturbed world.runExitCleanup.2

theorem Undisturbed.linkless {world : World} (h : Undisturbed world) : world.Linkless := by
  induction h with
  | start world hempty =>
      intro path hpath
      rw [hempty] at hpath
      cases hpath
  | extract bundle descriptor _ ih =>
      exact ih.extract bundle descriptor
  | @release world path _ ih =>
      exact ih.releases (releases_releaseExtracted world path)
  | @cleanUp world _ _ =>
      intro path hpath
      rw [runExitCleanup_eq] at hpath
      cases hpath

/-- A registry that a process has built on its own is in order, unless a name was used twice. -/
theorem Undisturbed.orderly {world : World} (h : Undisturbed world)
    (hunlike : Registry.Unlike world.pending) : world.Orderly :=
  ⟨hunlike, h.linkless.uncrossed⟩

/-! ## The order makes no difference -/

/-- Two orders of the same releases: each path gets the answer that it would get as the first of all, the
same is registered after them, all else is the same, and so is what the cleanup makes of it. -/
structure OrderFree (world : World) (paths others : List Path) : Prop where
  answers : (world.releaseInTurn paths).1 =
    paths.map fun path => (path, (world.releaseExtracted path).1)
  otherAnswers : (world.releaseInTurn others).1 =
    others.map fun path => (path, (world.releaseExtracted path).1)
  total : (world.releaseArtifacts paths).1 = (world.releaseArtifacts others).1
  files : (world.releaseInTurn paths).2.files = (world.releaseInTurn others).2.files
  pending : (world.releaseInTurn paths).2.pending.Perm (world.releaseInTurn others).2.pending
  frame : (world.releaseInTurn paths).2 =
    { (world.releaseInTurn others).2 with pending := (world.releaseInTurn paths).2.pending }
  cleanup : (world.releaseInTurn paths).2.runExitCleanup =
    (world.releaseInTurn others).2.runExitCleanup

/-- If no entry of a registry without repetitions leads to a link that another is led over, releases of
different things can be made in any order. -/
theorem order_free {world : World} {paths others : List Path}
    (hunlike : Registry.Unlike world.pending)
    (huncrossed : world.files.Uncrossed world.workingDirectory world.pending)
    (hperm : paths.Perm others) (hapart : world.Apart paths) : OrderFree world paths others := by
  have horderly : world.Orderly := ⟨hunlike, huncrossed⟩
  -- Each order is compared with the surroundings before both, in which no order is left.
  have hsettled := horderly.settled hapart
  have hothers := horderly.settled (hapart.perm hperm)
  have hanswers : (world.releaseInTurn paths).1.Perm (world.releaseInTurn others).1 := by
    rw [hsettled.answers_eq, hothers.answers_eq]
    exact hperm.map _
  have hfiles : (world.releaseInTurn paths).2.files = (world.releaseInTurn others).2.files := by
    rw [hsettled.files_eq, hothers.files_eq]
    exact FileTree.eraseAll_congr fun place => (hperm.filterMap _).mem_iff
  have hpending :
      (world.releaseInTurn paths).2.pending.Perm (world.releaseInTurn others).2.pending := by
    refine hsettled.pending_perm.trans (List.Perm.trans (List.Perm.of_eq ?_) hothers.pending_perm.symm)
    exact List.filter_congr fun entry _ => by rw [(hperm.filter _).any_eq]
  have hframe : (world.releaseInTurn paths).2 =
      { (world.releaseInTurn others).2 with pending := (world.releaseInTurn paths).2.pending } := by
    rw [hothers.frame, ← hfiles]
    exact hsettled.frame
  exact {
    answers := horderly.answers_eq hapart
    otherAnswers := horderly.answers_eq (hapart.perm hperm)
    total := by
      rw [releaseArtifacts_eq, releaseArtifacts_eq]
      exact hanswers.countP_eq _
    files := hfiles
    pending := hpending
    frame := hframe
    cleanup := by
      rw [hframe]
      exact (horderly.releaseInTurn others).runExitCleanup_perm hpending }

/-- Two files, of which one is registered over a link to its directory, a directory that has taken the
place of a third, and a link that is registered. -/
def tangled : World where
  files := ⟨[([Utf8.encode "tmp"], .directory),
    ([Utf8.encode "var"], .link (Utf8.encode "/tmp")),
    ([Utf8.encode "tmp", Utf8.encode "a"], .file [0x7F]),
    ([Utf8.encode "tmp", Utf8.encode "b"], .directory),
    ([Utf8.encode "tmp", Utf8.encode "c"], .file []),
    ([Utf8.encode "tmp", Utf8.encode "d"], .link (Utf8.encode "/var"))]⟩
  pending := [.ofString "/tmp/a", .ofString "/var/c", .ofString "/tmp/b", .ofString "/tmp/d"]

/-- Two releases succeed in either order, and leave the others in two orders; the cleanup counts the
link. -/
theorem order_free_tangled :
    Registry.Unlike tangled.pending ∧
      tangled.files.Uncrossed tangled.workingDirectory tangled.pending ∧
      tangled.Apart [.ofString "/tmp//./a", .ofString "/tmp/b", .ofString "/var/c"] ∧
      OrderFree tangled [.ofString "/tmp//./a", .ofString "/tmp/b", .ofString "/var/c"]
        [.ofString "/var/c", .ofString "/tmp//./a", .ofString "/tmp/b"] ∧
      (tangled.releaseInTurn [.ofString "/tmp//./a", .ofString "/tmp/b", .ofString "/var/c"]).2.pending =
        [.ofString "/tmp/d", .ofString "/tmp/b"] ∧
      (tangled.releaseInTurn [.ofString "/var/c", .ofString "/tmp//./a", .ofString "/tmp/b"]).2.pending =
        [.ofString "/tmp/b", .ofString "/tmp/d"] ∧
      (tangled.releaseInTurn
        [.ofString "/var/c", .ofString "/tmp//./a", .ofString "/tmp/b"]).2.runExitCleanup.1 = 1 := by
  have hunlike : Registry.Unlike tangled.pending := by
    simp only [Registry.Unlike]
    decide
  have huncrossed : tangled.files.Uncrossed tangled.workingDirectory tangled.pending :=
    of_decide_eq_true (by cbv)
  have hapart : tangled.Apart [.ofString "/tmp//./a", .ofString "/tmp/b", .ofString "/var/c"] := by
    have ha : tangled.files.removed? tangled.workingDirectory (.ofString "/tmp//./a") =
        some [Utf8.encode "tmp", Utf8.encode "a"] := by cbv
    have hb : tangled.files.removed? tangled.workingDirectory (.ofString "/tmp/b") = none := by cbv
    have hc : tangled.files.removed? tangled.workingDirectory (.ofString "/var/c") =
        some [Utf8.encode "tmp", Utf8.encode "c"] := by cbv
    have hne : Utf8.encode "c" ≠ Utf8.encode "a" := by decide
    simp [Apart, ha, hb, hc, hne]
  have hperm : [Path.ofString "/tmp//./a", .ofString "/tmp/b", .ofString "/var/c"].Perm
      [.ofString "/var/c", .ofString "/tmp//./a", .ofString "/tmp/b"] := by
    decide
  exact ⟨hunlike, huncrossed, hapart, order_free hunlike huncrossed hperm hapart, by cbv, by cbv, by cbv⟩

/-- A link and a file are registered in a directory to which only that link leads. -/
def looped : World where
  files := ⟨[([Utf8.encode "tmp"], .link (Utf8.encode "e/link")),
    ([Utf8.encode "e"], .directory),
    ([Utf8.encode "e", Utf8.encode "link"], .link (Utf8.encode ".")),
    ([Utf8.encode "e", Utf8.encode "file"], .file [0x7F])]⟩
  pending := [.ofString "/tmp/link", .ofString "/tmp/file"]

/-- Both can be released if the file comes first; after the link is gone, no path leads to the file. -/
theorem not_order_free_looped :
    Registry.Unlike looped.pending ∧
      [Path.ofString "/tmp/file", .ofString "/tmp/link"].Perm
        [.ofString "/tmp/link", .ofString "/tmp/file"] ∧
      looped.Apart [.ofString "/tmp/file", .ofString "/tmp/link"] ∧
      (looped.releaseArtifacts [.ofString "/tmp/file", .ofString "/tmp/link"]).1 = 2 ∧
      (looped.releaseArtifacts [.ofString "/tmp/link", .ofString "/tmp/file"]).1 = 1 ∧
      ¬ OrderFree looped [.ofString "/tmp/file", .ofString "/tmp/link"]
        [.ofString "/tmp/link", .ofString "/tmp/file"] := by
  have hunlike : Registry.Unlike looped.pending := by
    simp only [Registry.Unlike]
    decide
  have hapart : looped.Apart [.ofString "/tmp/file", .ofString "/tmp/link"] := by
    have hfile : looped.files.removed? looped.workingDirectory (.ofString "/tmp/file") =
        some [Utf8.encode "e", Utf8.encode "file"] := by cbv
    have hlink : looped.files.removed? looped.workingDirectory (.ofString "/tmp/link") =
        some [Utf8.encode "e", Utf8.encode "link"] := by cbv
    have hne : Utf8.encode "link" ≠ Utf8.encode "file" := by decide
    simp [Apart, hfile, hlink, hne]
  have hboth :
      (looped.releaseArtifacts [.ofString "/tmp/file", .ofString "/tmp/link"]).1 = 2 := by cbv
  have hone : (looped.releaseArtifacts [.ofString "/tmp/link", .ofString "/tmp/file"]).1 = 1 := by cbv
  refine ⟨hunlike, by decide, hapart, hboth, hone, ?_⟩
  intro hfree
  have htotal := hfree.total
  rw [hboth, hone] at htotal
  cases htotal

end World
end NativeLaunch
