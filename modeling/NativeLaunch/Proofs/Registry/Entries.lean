import Mathlib.Data.List.Perm.Subperm
import NativeLaunch.Proofs.FileTree.Spelling
import NativeLaunch.Registry

/-!
# Entries of the registry

A release looks for the first entry that is alike to its path, unlinks the path, and only then takes
the entry off the list.  The last entry moves to where it was.  This file defines:

* `World.Releases` — the three ways in which a release can end.

Each of them leaves less, on the list and among the files, or the same (`Releases.pending_subperm`,
`Releases.within`).
-/

namespace NativeLaunch
namespace World

/-! ## Taking an entry out -/

section SwapRemove

variable {α : Type} {entries : List α} {index : Nat}

/-- To take out an entry in this way reorders the others, and loses none. -/
theorem perm_swapRemove (h : index < entries.length) :
    entries.Perm (entries[index] :: swapRemove entries index) := by
  rcases List.eq_nil_or_concat entries with rfl | ⟨front, last, rfl⟩
  · cases h
  · simp only [List.concat_eq_append, List.length_append, List.length_singleton] at h ⊢
    simp only [swapRemove, List.getLast?_concat, List.dropLast_concat, List.length_append,
      List.length_singleton]
    by_cases hlast : index = front.length
    · subst hlast
      rw [if_pos rfl, List.getElem_concat_length rfl]
      exact List.perm_append_singleton last front
    · have hfront : index < front.length := by omega
      obtain ⟨before, after, hsplit, _, hset⟩ : ∃ before after,
          front = before ++ front[index] :: after ∧ before.length = index ∧
            front.set index last = before ++ last :: after := List.exists_of_set hfront
      rw [if_neg (by omega), List.getElem_append_left hfront, hset]
      generalize front[index] = entry at hsplit
      subst hsplit
      -- The last entry has moved to where the one taken out was.
      calc
        List.Perm (before ++ entry :: after ++ [last]) (before ++ entry :: (after ++ [last])) := by
            rw [List.append_assoc, List.cons_append]
        List.Perm _ (entry :: (before ++ (after ++ [last]))) := List.perm_middle
        List.Perm _ (entry :: (before ++ last :: after)) :=
            ((List.perm_append_singleton last after).append_left before).cons entry

theorem length_swapRemove (h : index < entries.length) :
    (swapRemove entries index).length + 1 = entries.length := by
  have hperm := (perm_swapRemove h).length_eq
  rw [List.length_cons] at hperm
  exact hperm.symm

/-- The last entry is where the one was that is taken out, and the others are where they were. -/
theorem getElem?_swapRemove (h : index < entries.length) {i : Nat}
    (hi : i < (swapRemove entries index).length) :
    (swapRemove entries index)[i]? = if i = index then entries.getLast? else entries[i]? := by
  have hlength := length_swapRemove h
  rcases List.eq_nil_or_concat entries with rfl | ⟨front, last, rfl⟩
  · cases h
  · simp only [List.concat_eq_append, List.length_append, List.length_singleton] at h hi hlength ⊢
    have hfront : i < front.length := by omega
    simp only [swapRemove, List.getLast?_concat, List.dropLast_concat, List.length_append,
      List.length_singleton, List.getElem?_append_left hfront]
    by_cases hlast : index = front.length
    -- The entry was the last one, and nothing is left at its position.
    · rw [if_pos (by omega), if_neg (by omega)]
    · rw [if_neg (by omega), List.getElem?_set]
      by_cases hindex : index = i
      · rw [if_pos hindex, if_pos (by omega), if_pos hindex.symm]
      · rw [if_neg hindex, if_neg (Ne.symm hindex)]

end SwapRemove

/-! ## Unlinking -/

/-- To unlink a path is to remove what it leads to, and to fail is to change nothing. -/
theorem unlink_cases (world : World) (path : Path) :
    (∃ kind, world.unlink path = (.error kind, world) ∧
        ∀ place, ¬ world.files.Removes world.workingDirectory path place) ∨
      ∃ place, world.unlink path = (.ok (), { world with files := world.files.erase place }) ∧
        world.files.Removes world.workingDirectory path place := by
  unfold unlink withFiles
  rcases FileTree.unlink_cases world.files world.workingDirectory path with
    ⟨kind, hunlink, hstays⟩ | ⟨place, hunlink, hremoves⟩
  · exact .inl ⟨kind, by rw [hunlink], hstays⟩
  · exact .inr ⟨place, by rw [hunlink], hremoves⟩

theorem isOk_unlink_iff {world : World} {path : Path} :
    (world.unlink path).1.isOk = true ↔
      ∃ place, world.files.Removes world.workingDirectory path place := by
  rcases unlink_cases world path with ⟨kind, hunlink, hstays⟩ | ⟨place, hunlink, hremoves⟩
  · rw [hunlink]
    constructor
    · intro hok
      cases hok
    · rintro ⟨place, hremoves⟩
      exact absurd hremoves (hstays place)
  · rw [hunlink]
    exact ⟨fun _ => ⟨place, hremoves⟩, fun _ => rfl⟩

/-! ## The ways in which a release ends -/

/-- The ways in which the release of a path ends, with its answer and what it leaves. -/
inductive Releases (world : World) (path : Path) : Bool → World → Prop
  | unlisted (unlike : ∀ entry ∈ world.pending, entry.sameComponents path = false) :
      Releases world path false world
  | undeleted (stays : (world.unlink path).1.isOk = false) : Releases world path false world
  | done {index : Nat} {entry : Path} {place : Location}
      (listed : world.pending[index]? = some entry) (alike : entry.sameComponents path = true)
      (removes : world.files.Removes world.workingDirectory path place) :
      Releases world path true
        { world with
          files := world.files.erase place
          pending := swapRemove world.pending index }

theorem releases_releaseExtracted (world : World) (path : Path) :
    Releases world path (world.releaseExtracted path).1 (world.releaseExtracted path).2 := by
  unfold releaseExtracted
  cases hindex : world.pendingIndex? path with
  | none =>
      exact .unlisted (List.findIdx?_eq_none_iff.1 hindex)
  | some index =>
      rcases List.findIdx?_eq_some_iff_getElem.1 hindex with ⟨hlt, halike, _⟩
      rcases unlink_cases world path with ⟨kind, hunlink, _⟩ | ⟨place, hunlink, hremoves⟩
      · simp only [hunlink]
        exact .undeleted (by rw [hunlink]; rfl)
      · simp only [hunlink]
        exact .done (List.getElem?_eq_getElem hlt) halike hremoves

namespace Releases

variable {world after : World} {path : Path} {answer : Bool}

theorem of_eq (h : world.releaseExtracted path = (answer, after)) :
    Releases world path answer after := by
  have hreleases := releases_releaseExtracted world path
  rw [h] at hreleases
  exact hreleases

theorem eq_of_false (h : Releases world path false after) : after = world := by
  cases h with
  | unlisted _ =>
      rfl
  | undeleted _ =>
      rfl

/-- A release succeeds if the path is registered and can be unlinked, and then only. -/
theorem true_iff (h : Releases world path answer after) :
    answer = true ↔ (∃ entry ∈ world.pending, entry.sameComponents path = true) ∧
      (world.unlink path).1.isOk = true := by
  cases h with
  | unlisted hunlike =>
      constructor
      · intro htrue
        cases htrue
      · rintro ⟨⟨entry, hentry, halike⟩, _⟩
        rw [hunlike entry hentry] at halike
        cases halike
  | undeleted hstays =>
      constructor
      · intro htrue
        cases htrue
      · rintro ⟨_, hok⟩
        rw [hstays] at hok
        cases hok
  | done hlisted halike hremoves =>
      have hregistered : ∃ entry ∈ world.pending, entry.sameComponents path = true :=
        ⟨_, List.mem_of_getElem? hlisted, halike⟩
      exact ⟨fun _ => ⟨hregistered, isOk_unlink_iff.2 ⟨_, hremoves⟩⟩, fun _ => rfl⟩

theorem frame (h : Releases world path answer after) :
    after = { world with files := after.files, pending := after.pending } := by
  cases h <;> rfl

theorem workingDirectory_eq (h : Releases world path answer after) :
    after.workingDirectory = world.workingDirectory := by
  rw [h.frame]

theorem within (h : Releases world path answer after) : after.files.Within world.files := by
  cases h with
  | unlisted _ =>
      exact FileTree.Within.refl world.files
  | undeleted _ =>
      exact FileTree.Within.refl world.files
  | done _ _ hremoves =>
      exact FileTree.erase_within hremoves.ne_nil

theorem exists_perm (h : Releases world path true after) :
    ∃ entry, entry.sameComponents path = true ∧ world.pending.Perm (entry :: after.pending) := by
  cases h with
  | done hlisted halike _ =>
      rcases List.getElem?_eq_some_iff.1 hlisted with ⟨hlt, rfl⟩
      exact ⟨_, halike, perm_swapRemove hlt⟩

theorem pending_subperm (h : Releases world path answer after) :
    after.pending.Subperm world.pending := by
  cases answer with
  | false =>
      rw [h.eq_of_false]
  | true =>
      rcases h.exists_perm with ⟨entry, _, hperm⟩
      exact List.Subperm.cons_self.trans hperm.symm.subperm

end Releases

end World
end NativeLaunch
