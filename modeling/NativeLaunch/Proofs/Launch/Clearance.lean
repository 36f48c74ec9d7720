import NativeLaunch.Launch
import NativeLaunch.Proofs.Registry.Releases

/-!
# Releasing a list of files

A launcher releases its files one after the other.  Each release reorders the registry and takes away
what its path leads to, and those that fail stay in the launcher's list.  This file defines:

* `World.ReleasesEach` — the releases of a list, with the paths that are gone and those that are kept;
* `World.Plain` — what a path can remove is a plain file, and no link that other paths go through;
* `World.Clears` — what has become of the list, of the registry and of the files.

Registered paths and listed ones are among the known paths, and no two of these have the same file name.
Then a path is registered if it is on the registry's list as it is spelled, and no two paths remove the
same file.
-/

namespace NativeLaunch
namespace World

/-! ## Known paths -/

section Known

variable {known : List Path} {path other : Path}

theorem eq_of_fileName? (hnames : (known.map Path.fileName?).Nodup) (hpath : path ∈ known)
    (hother : other ∈ known) (hsame : path.fileName? = other.fileName?) : path = other :=
  List.inj_on_of_nodup_map hnames hpath hother hsame

theorem eq_of_alike (hnames : (known.map Path.fileName?).Nodup) (hpath : path ∈ known)
    (hother : other ∈ known) (halike : path.sameComponents other = true) : path = other := by
  apply eq_of_fileName? hnames hpath hother
  unfold Path.fileName?
  rw [Registry.sameComponents_iff.1 halike]

/-- Among known paths, to be registered is to be on the list. -/
theorem registered_iff {pending : List Path} (hnames : (known.map Path.fileName?).Nodup)
    (hpending : pending ⊆ known) (hpath : path ∈ known) :
    (∃ entry ∈ pending, entry.sameComponents path = true) ↔ path ∈ pending := by
  constructor
  · rintro ⟨entry, hentry, halike⟩
    rw [← eq_of_alike hnames (hpending hentry) hpath halike]
    exact hentry
  · intro hlisted
    exact ⟨path, hlisted, Registry.sameComponents_iff.2 rfl⟩

end Known

/-- Among known paths, the entry that is taken out is the path itself. -/
theorem Releases.perm {known : List Path} {world after : World} {path : Path}
    (hnames : (known.map Path.fileName?).Nodup) (hpending : world.pending ⊆ known)
    (hpath : path ∈ known) (h : Releases world path true after) :
    world.pending.Perm (path :: after.pending) := by
  rcases h.exists_perm with ⟨entry, halike, hperm⟩
  have hentry : entry ∈ world.pending := hperm.mem_iff.2 List.mem_cons_self
  rw [eq_of_alike hnames (hpending hentry) hpath halike] at hperm
  exact hperm

/-! ## One after the other -/

/-- Paths are released one after the other; some are gone then, and the others are kept. -/
inductive ReleasesEach : World → List Path → List Path → List Path → World → Prop
  | nil (world : World) : ReleasesEach world [] [] [] world
  | gone {world next after : World} {path : Path} {rest gone kept : List Path}
      (first : world.releaseExtracted path = (true, next))
      (others : ReleasesEach next rest gone kept after) :
      ReleasesEach world (path :: rest) (path :: gone) kept after
  | kept {world after : World} {path : Path} {rest gone kept : List Path}
      (first : world.releaseExtracted path = (false, world))
      (others : ReleasesEach world rest gone kept after) :
      ReleasesEach world (path :: rest) gone (path :: kept) after

theorem exists_releasesEach (world : World) (listed : List Path) :
    ∃ gone, ReleasesEach world listed gone (world.releaseEach listed).1
      (world.releaseEach listed).2 := by
  induction listed generalizing world with
  | nil =>
      exact ⟨[], .nil world⟩
  | cons path rest ih =>
      cases hrelease : world.releaseExtracted path with
      | mk answer next =>
          cases answer with
          | false =>
              have hsame : next = world := (Releases.of_eq hrelease).eq_of_false
              subst hsame
              rcases ih next with ⟨gone, hothers⟩
              rw [releaseEach, hrelease]
              exact ⟨gone, .kept hrelease hothers⟩
          | true =>
              rcases ih next with ⟨gone, hothers⟩
              rw [releaseEach, hrelease]
              exact ⟨path :: gone, .gone hrelease hothers⟩

namespace ReleasesEach

variable {world after : World} {listed gone kept : List Path}

theorem gone_sublist (h : ReleasesEach world listed gone kept after) : gone.Sublist listed := by
  induction h with
  | nil _ =>
      exact List.Sublist.refl []
  | @gone _ _ _ path _ _ _ _ _ ih =>
      exact ih.cons_cons path
  | @kept _ _ path _ _ _ _ _ ih =>
      exact ih.cons path

theorem kept_sublist (h : ReleasesEach world listed gone kept after) : kept.Sublist listed := by
  induction h with
  | nil _ =>
      exact List.Sublist.refl []
  | @gone _ _ _ path _ _ _ _ _ ih =>
      exact ih.cons path
  | @kept _ _ path _ _ _ _ _ ih =>
      exact ih.cons_cons path

theorem perm (h : ReleasesEach world listed gone kept after) : listed.Perm (gone ++ kept) := by
  induction h with
  | nil _ =>
      exact List.Perm.refl []
  | @gone _ _ _ path _ _ _ _ _ ih =>
      exact ih.cons path
  | @kept _ _ path _ _ _ _ _ ih =>
      exact (ih.cons path).trans List.perm_middle.symm

/-- What is kept is kept in its order. -/
theorem kept_eq (h : ReleasesEach world listed gone kept after) (honce : listed.Nodup) :
    kept = listed.filter (· ∉ gone) := by
  induction h with
  | nil _ =>
      rfl
  | @gone _ _ _ path rest gone kept _ hothers ih =>
      rw [List.nodup_cons] at honce
      rw [List.filter_cons_of_neg (by simp), ih honce.2]
      apply List.filter_congr
      intro other hother
      have hne : other ≠ path := by
        rintro rfl
        exact honce.1 hother
      simp [hne]
  | @kept _ _ path rest gone kept _ hothers ih =>
      rw [List.nodup_cons] at honce
      have hpath : path ∉ gone := fun hgone => honce.1 (hothers.gone_sublist.subset hgone)
      rw [List.filter_cons_of_pos (by simpa using hpath), ih honce.2]

theorem frame (h : ReleasesEach world listed gone kept after) :
    after = { world with files := after.files, pending := after.pending } := by
  induction h with
  | nil _ =>
      rfl
  | gone hfirst _ ih =>
      rw [ih, (Releases.of_eq hfirst).frame]
  | kept _ _ ih =>
      exact ih

theorem workingDirectory_eq (h : ReleasesEach world listed gone kept after) :
    after.workingDirectory = world.workingDirectory := by
  rw [h.frame]

theorem within (h : ReleasesEach world listed gone kept after) :
    after.files.Within world.files := by
  induction h with
  | nil world =>
      exact FileTree.Within.refl world.files
  | gone hfirst _ ih =>
      exact ih.trans (Releases.of_eq hfirst).within
  | kept _ _ ih =>
      exact ih

theorem pending_subperm (h : ReleasesEach world listed gone kept after) :
    after.pending.Subperm world.pending := by
  induction h with
  | nil world =>
      exact List.Subperm.refl world.pending
  | gone hfirst _ ih =>
      exact ih.trans (Releases.of_eq hfirst).pending_subperm
  | kept _ _ ih =>
      exact ih

/-- What each path that is gone has led to is gone, and nothing else. -/
theorem removed (h : ReleasesEach world listed gone kept after) :
    ∀ path ∈ gone, ∃ place, world.files.Removes world.workingDirectory path place ∧
      after.files.node? place = none := by
  induction h with
  | nil _ =>
      intro path hpath
      cases hpath
  | @gone world next after path _ _ _ hfirst hothers ih =>
      intro other hother
      have hreleases := Releases.of_eq hfirst
      rcases List.mem_cons.1 hother with rfl | hother
      · cases hreleases with
        | @done index entry place _ _ hremoves =>
            refine ⟨place, hremoves, ?_⟩
            have hgone : (world.files.erase place).node? place = none := by
              rw [FileTree.node?_erase hremoves.ne_nil, if_pos rfl]
            cases hafter : after.files.node? place with
            | none =>
                rfl
            | some node =>
                have hback := hothers.within place node hafter
                rw [hgone] at hback
                cases hback
      · rcases ih other hother with ⟨place, hremoves, hplace⟩
        rw [hreleases.workingDirectory_eq] at hremoves
        exact ⟨place, hremoves.within hreleases.within, hplace⟩
  | kept _ _ ih =>
      exact ih

theorem changed (h : ReleasesEach world listed gone kept after) {place : Location}
    (hplace : after.files.node? place ≠ world.files.node? place) :
    ∃ path ∈ gone, world.files.Removes world.workingDirectory path place := by
  induction h with
  | nil _ =>
      exact absurd rfl hplace
  | @gone world next after path _ _ _ hfirst hothers ih =>
      have hreleases := Releases.of_eq hfirst
      by_cases hnext : next.files.node? place = world.files.node? place
      · rw [← hnext] at hplace
        rcases ih hplace with ⟨other, hother, hremoves⟩
        rw [hreleases.workingDirectory_eq] at hremoves
        exact ⟨other, List.mem_cons_of_mem path hother, hremoves.within hreleases.within⟩
      · cases hreleases with
        | @done index entry erased _ _ hremoves =>
            have hsame : place = erased := by
              by_contra hne
              apply hnext
              rw [FileTree.node?_erase hremoves.ne_nil, if_neg hne]
            rw [hsame]
            exact ⟨path, List.mem_cons_self, hremoves⟩
  | kept _ _ ih =>
      exact ih hplace

/-- A path that was kept would be kept again. -/
theorem refused (h : ReleasesEach world listed gone kept after) :
    ∀ path ∈ kept, (∀ entry ∈ after.pending, entry.sameComponents path = false) ∨
      (after.unlink path).1.isOk = false := by
  induction h with
  | nil _ =>
      intro path hpath
      cases hpath
  | gone _ _ ih =>
      exact ih
  | @kept world after path _ _ _ hfirst hothers ih =>
      intro other hother
      rcases List.mem_cons.1 hother with rfl | hother
      · cases Releases.of_eq hfirst with
        | unlisted hunlike =>
            refine .inl ?_
            intro entry hentry
            exact hunlike entry (hothers.pending_subperm.subset hentry)
        | undeleted hstays =>
            -- What cannot be unlinked now cannot be later, when there is less.
            refine .inr ?_
            rw [Bool.eq_false_iff, Ne, isOk_unlink_iff] at hstays ⊢
            rintro ⟨place, hremoves⟩
            rw [hothers.workingDirectory_eq] at hremoves
            exact hstays ⟨place, hremoves.within hothers.within⟩
      · exact ih other hother

end ReleasesEach

/-- Where each release is refused, nothing happens. -/
theorem releaseEach_of_refused {world : World} {listed : List Path}
    (h : ∀ path ∈ listed, (∀ entry ∈ world.pending, entry.sameComponents path = false) ∨
      (world.unlink path).1.isOk = false) :
    world.releaseEach listed = (listed, world) := by
  induction listed with
  | nil =>
      rfl
  | cons path rest ih =>
      have hrefused : world.releaseExtracted path = (false, world) := by
        cases hrelease : world.releaseExtracted path with
        | mk answer after =>
            have hreleases := Releases.of_eq hrelease
            cases answer with
            | false =>
                rw [hreleases.eq_of_false]
            | true =>
                rcases hreleases.true_iff.1 rfl with ⟨⟨entry, hentry, halike⟩, hok⟩
                rcases h path List.mem_cons_self with hunlike | hstays
                · rw [hunlike entry hentry] at halike
                  cases halike
                · rw [hstays] at hok
                  cases hok
      have hrest := ih fun other hother => h other (List.mem_cons_of_mem path hother)
      rw [releaseEach, hrefused]
      simp only [hrest]

/-! ## Plain files -/

/-- What a path can remove is a plain file. -/
def Plain (world : World) (path : Path) : Prop :=
  ∀ place, world.files.Removes world.workingDirectory path place →
    ∃ content, world.files.node? place = some (.file content)

theorem Releases.plain {world after : World} {path other : Path} {answer : Bool}
    (h : Releases world path answer after) (hplain : world.Plain other) : after.Plain other := by
  intro place hremoves
  rcases hremoves.exists_node with ⟨node, _, hnode⟩
  rw [h.workingDirectory_eq] at hremoves
  rcases hplain place (hremoves.within h.within) with ⟨content, hfile⟩
  have hbefore := h.within place node hnode
  rw [hfile] at hbefore
  cases hbefore
  exact ⟨content, hnode⟩

/-- To release plain files leaves in place what a path of another name removes. -/
theorem ReleasesEach.removes {world after : World} {listed gone kept : List Path} {path : Path}
    {place : Location} (h : ReleasesEach world listed gone kept after)
    (hplain : ∀ other ∈ listed, world.Plain other)
    (hnamed : ∀ other ∈ listed, other.fileName? ≠ path.fileName?)
    (hremoves : world.files.Removes world.workingDirectory path place) :
    after.files.Removes after.workingDirectory path place := by
  induction h with
  | nil _ =>
      exact hremoves
  | @gone world next after first rest _ _ hfirst _ ih =>
      have hreleases := Releases.of_eq hfirst
      rw [List.forall_mem_cons] at hplain hnamed
      refine ih ?_ hnamed.2 ?_
      · intro other hother
        exact hreleases.plain (hplain.2 other hother)
      · cases hreleases with
        | @done index entry erased _ _ herased =>
            rcases hplain.1 erased herased with ⟨content, hfile⟩
            refine hremoves.erase hfile ?_
            rintro rfl
            exact hnamed.1 (herased.getLast?_eq.symm.trans hremoves.getLast?_eq)
  | kept _ _ ih =>
      rw [List.forall_mem_cons] at hplain hnamed
      exact ih hplain.2 hnamed.2 hremoves

/-! ## Among known paths -/

namespace ReleasesEach

variable {known : List Path} {world after : World} {listed gone kept : List Path}
  (hnames : (known.map Path.fileName?).Nodup)
include hnames

/-- What is gone is off the registry's list, and nothing else. -/
theorem pending_perm (h : ReleasesEach world listed gone kept after) (hlisted : listed ⊆ known)
    (hpending : world.pending ⊆ known) : world.pending.Perm (gone ++ after.pending) := by
  induction h with
  | nil world =>
      exact List.Perm.refl world.pending
  | @gone world next after path rest _ _ hfirst _ ih =>
      rw [List.cons_subset] at hlisted
      have hreleases := Releases.of_eq hfirst
      have hnext := List.Subset.trans hreleases.pending_subperm.subset hpending
      exact (hreleases.perm hnames hpending hlisted.1).trans ((ih hlisted.2 hnext).cons path)
  | kept _ _ ih =>
      rw [List.cons_subset] at hlisted
      exact ih hlisted.2 hpending

/-- A path is gone if it was registered and could be unlinked when those before it had been released. -/
theorem mem_gone_iff {earlier later : List Path} {path : Path}
    (h : ReleasesEach world (earlier ++ path :: later) gone kept after)
    (hlisted : earlier ++ path :: later ⊆ known) (honce : (earlier ++ path :: later).Nodup)
    (hpending : world.pending ⊆ known) :
    path ∈ gone ↔
      path ∈ world.pending ∧ ((world.releaseEach earlier).2.unlink path).1.isOk = true := by
  induction earlier generalizing world gone kept with
  | nil =>
      rw [List.nil_append] at h hlisted honce
      rw [List.nodup_cons] at honce
      rw [List.cons_subset] at hlisted
      have hturn := (releases_releaseExtracted world path).true_iff
      rw [registered_iff hnames hpending hlisted.1] at hturn
      cases h with
      | gone hfirst _ =>
          rw [hfirst] at hturn
          exact ⟨fun _ => hturn.1 rfl, fun _ => List.mem_cons_self⟩
      | kept hfirst hothers =>
          rw [hfirst] at hturn
          constructor
          · intro hgone
            exact absurd (hothers.gone_sublist.subset hgone) honce.1
          · intro htrue
            exact absurd (hturn.2 htrue) nofun
  | cons first earlier ih =>
      rw [List.cons_append] at h hlisted honce
      rw [List.nodup_cons] at honce
      rw [List.cons_subset] at hlisted
      have hne : path ≠ first := by
        rintro rfl
        exact honce.1 (by simp)
      cases h with
      | @gone _ next _ _ _ gone _ hfirst hothers =>
          have hreleases := Releases.of_eq hfirst
          have hnext := List.Subset.trans hreleases.pending_subperm.subset hpending
          have hmem : path ∈ world.pending ↔ path ∈ next.pending := by
            rw [(hreleases.perm hnames hpending hlisted.1).mem_iff, List.mem_cons,
              or_iff_right hne]
          rw [List.mem_cons, or_iff_right hne, hmem, releaseEach, hfirst]
          exact ih hothers hlisted.2 honce.2 hnext
      | kept hfirst hothers =>
          rw [releaseEach, hfirst]
          exact ih hothers hlisted.2 honce.2 hpending

end ReleasesEach

/-! ## The whole of it -/

/-- What has become of a list of files that were to be released. -/
structure Clears (known : List Path) (before : World) (listed gone kept : List Path)
    (after : World) : Prop where
  gone_sublist : gone.Sublist listed
  kept_eq : kept = listed.filter (· ∉ gone)
  -- Those are gone that are registered and can be unlinked when it is their turn.
  gone_iff : ∀ earlier path later, listed = earlier ++ path :: later →
    (path ∈ gone ↔
      path ∈ before.pending ∧ ((before.releaseEach earlier).2.unlink path).1.isOk = true)
  plainly : (∀ path ∈ listed, before.Plain path) → ∀ path ∈ listed,
    (path ∈ gone ↔ path ∈ before.pending ∧ (before.unlink path).1.isOk = true)
  frame : after = { before with files := after.files, pending := after.pending }
  registered : before.pending.Perm (gone ++ after.pending)
  removed : ∀ path ∈ gone, ∃ place, before.files.Removes before.workingDirectory path place ∧
    after.files.node? place = none
  changed : ∀ place, after.files.node? place ≠ before.files.node? place →
    ∃ path ∈ gone, before.files.Removes before.workingDirectory path place
  -- No other known file is among those that are removed.
  spared : ∀ other ∈ known, other ∉ gone → ∀ place,
    before.files.Removes before.workingDirectory other place →
      after.files.node? place = before.files.node? place
  again : after.releaseArtifacts kept = (0, kept, after)

section Clears

variable {known : List Path} {before : World} {listed : List Path}
  (hnames : (known.map Path.fileName?).Nodup) (hlisted : listed ⊆ known) (honce : listed.Nodup)
  (hpending : before.pending ⊆ known)
include hnames

include hlisted in
/-- Among plain files, it makes no difference when it is a path's turn. -/
theorem isOk_unlink_releaseEach {earlier later : List Path} {path : Path}
    (hsplit : listed = earlier ++ path :: later) (honce : listed.Nodup)
    (hplain : ∀ other ∈ listed, before.Plain other) :
    ((before.releaseEach earlier).2.unlink path).1.isOk = true ↔
      (before.unlink path).1.isOk = true := by
  subst hsplit
  rcases exists_releasesEach before earlier with ⟨gone, hearlier⟩
  rw [isOk_unlink_iff, isOk_unlink_iff]
  constructor
  · rintro ⟨place, hremoves⟩
    rw [hearlier.workingDirectory_eq] at hremoves
    exact ⟨place, hremoves.within hearlier.within⟩
  · rintro ⟨place, hremoves⟩
    refine ⟨place, hearlier.removes ?_ ?_ hremoves⟩
    · intro other hother
      exact hplain other (List.mem_append_left _ hother)
    · intro other hother hsame
      have hboth := eq_of_fileName? hnames (hlisted (List.mem_append_left _ hother))
        (hlisted (List.mem_append_right _ List.mem_cons_self)) hsame
      rw [hboth] at hother
      exact (List.nodup_append.1 honce).2.2 path hother path List.mem_cons_self rfl

include hlisted honce hpending in
theorem exists_clears : ∃ gone kept after,
    before.releaseArtifacts listed = (gone.length, kept, after) ∧
      Clears known before listed gone kept after := by
  rcases exists_releasesEach before listed with ⟨gone, hreleases⟩
  have hlength := hreleases.perm.length_eq
  rw [List.length_append] at hlength
  refine ⟨gone, (before.releaseEach listed).1, (before.releaseEach listed).2, ?_, {
    gone_sublist := hreleases.gone_sublist, kept_eq := hreleases.kept_eq honce
    gone_iff := ?_, plainly := ?_, frame := hreleases.frame
    registered := hreleases.pending_perm hnames hlisted hpending
    removed := hreleases.removed, changed := fun _ => hreleases.changed
    spared := ?_, again := ?_ }⟩
  · have hcount : listed.length - (before.releaseEach listed).1.length = gone.length := by omega
    rw [← hcount]
    rfl
  · rintro earlier path later rfl
    exact hreleases.mem_gone_iff hnames hlisted honce hpending
  · intro hplain path hpath
    rcases List.append_of_mem hpath with ⟨earlier, later, hsplit⟩
    rw [← isOk_unlink_releaseEach hnames hlisted hsplit honce hplain]
    subst hsplit
    exact hreleases.mem_gone_iff hnames hlisted honce hpending
  · intro other hother hkept place hremoves
    by_contra hchanged
    rcases hreleases.changed hchanged with ⟨path, hpath, hpathRemoves⟩
    -- What stands at the place has the name of both paths.
    have hsame : path.fileName? = other.fileName? :=
      hpathRemoves.getLast?_eq.symm.trans hremoves.getLast?_eq
    have hknown := hlisted (hreleases.gone_sublist.subset hpath)
    rw [eq_of_fileName? hnames hknown hother hsame] at hpath
    exact hkept hpath
  · have hkept := releaseEach_of_refused hreleases.refused
    simp only [releaseArtifacts, hkept, Nat.sub_self]

end Clears

end World
end NativeLaunch
