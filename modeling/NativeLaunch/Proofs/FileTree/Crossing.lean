import NativeLaunch.Proofs.FileTree.Spelling

/-!
# Paths that cross

What is taken away stands in the way of a path in two cases only: the path leads there, or it is led
over it, as over a link.  So a path loses nothing when another is unlinked, unless both lead to one
place, or the other leads to a link that this one is led over (`removed?_erase`).  This file defines:

* `FileTree.followed` — the links that a walk is led over;
* `FileTree.crosses` — a path leads to a link that another is led over;
* `FileTree.Uncrossed` — of some paths, none crosses another;
* `FileTree.removed?` — what a path removes, if anything;
* `FileTree.eraseAll` — the tree without what stands at some places.

Whether paths cross depends on their components only, as a walk that does not end at a directory goes the
same way without its segments `.`.
-/

namespace NativeLaunch
namespace FileTree

/-! ## Links on the way -/

/-- The links that a walk is led over, in their order.  One that stands at the end is not followed. -/
def followed (tree : FileTree) :
    (budget : Nat) → (here : Location) → (segments : List Bytes) → List Location
  | _, _, [] => []
  | budget, here, segment :: rest =>
    if segment = [Path.dot] then
      tree.followed budget here rest
    else if segment = [Path.dot, Path.dot] then
      tree.followed budget here.dropLast rest
    else if maxNameLength < segment.length then
      []
    else
      match tree.node? (here ++ [segment]) with
      | some .directory => tree.followed budget (here ++ [segment]) rest
      | some (.link target) =>
        if rest.isEmpty then []
        else
          match budget with
          | 0 => []
          | budget + 1 =>
            (here ++ [segment]) ::
              tree.followed budget (if target.head? = some Path.slash then [] else here)
                (steps target ++ rest)
      | _ => []
termination_by budget _ segments => (budget, segments.length)

section Walk

variable {tree larger : FileTree} {budget : Nat} {here place gone : Location} {segment : Bytes}
  {rest segments thin : List Bytes} {node : FileNode}

theorem followed_dot : tree.followed budget here ([Path.dot] :: rest) =
    tree.followed budget here rest := by
  rw [followed, if_pos rfl]

theorem followed_up (hdot : [Path.dot, Path.dot] ≠ [Path.dot]) :
    tree.followed budget here ([Path.dot, Path.dot] :: rest) =
      tree.followed budget here.dropLast rest := by
  rw [followed, if_neg hdot, if_pos rfl]

section Named

variable (hdot : segment ≠ [Path.dot]) (hup : segment ≠ [Path.dot, Path.dot])
  (hlong : ¬ maxNameLength < segment.length)
include hdot hup hlong

theorem followed_directory (hnode : tree.node? (here ++ [segment]) = some .directory) :
    tree.followed budget here (segment :: rest) = tree.followed budget (here ++ [segment]) rest := by
  rw [followed, if_neg hdot, if_neg hup, if_neg hlong, hnode]

/-- A link before the end is one that the walk is led over. -/
theorem followed_link {target : Bytes}
    (hnode : tree.node? (here ++ [segment]) = some (.link target)) (hrest : rest ≠ []) :
    tree.followed (budget + 1) here (segment :: rest) =
      (here ++ [segment]) ::
        tree.followed budget (if target.head? = some Path.slash then [] else here)
          (steps target ++ rest) := by
  rw [followed, if_neg hdot, if_neg hup, if_neg hlong, hnode]
  simp [hrest]

end Named

/-- What a walk is led over is a link. -/
theorem exists_link_of_mem_followed (h : place ∈ tree.followed budget here segments) :
    ∃ target, tree.node? place = some (.link target) := by
  fun_induction followed tree budget here segments with
  | case2 budget here rest ih =>
      exact ih h
  | case3 budget here rest hdot ih =>
      exact ih h
  | case5 budget here segment rest hdot hup hlong hnode ih =>
      exact ih h
  | case8 here segment rest hdot hup hlong target hnode hlast budget ih =>
      rcases List.mem_cons.1 h with rfl | hlater
      · exact ⟨target, hnode⟩
      · exact ih hlater
  | _ =>
      cases h

/-- In a tree in which there is more, a walk is led over the same links and maybe over others then. -/
theorem Within.followed_prefix (hwithin : tree.Within larger) :
    tree.followed budget here segments <+: larger.followed budget here segments := by
  fun_induction FileTree.followed tree budget here segments with
  | case2 budget here rest ih =>
      rw [followed_dot]
      exact ih
  | case3 budget here rest hdot ih =>
      rw [followed_up hdot]
      exact ih
  | case5 budget here segment rest hdot hup hlong hnode ih =>
      rw [followed_directory hdot hup hlong (hwithin _ _ hnode)]
      exact ih
  | case8 here segment rest hdot hup hlong target hnode hlast budget ih =>
      rw [followed_link hdot hup hlong (hwithin _ _ hnode) (by simpa using hlast)]
      exact List.cons_prefix_cons.2 ⟨rfl, ih⟩
  | _ =>
      exact List.nil_prefix

/-- A walk finds what it found before something else was taken away, if that was no directory and it is
not led over it. -/
theorem walk_erase (hgone : gone ≠ []) (hfile : tree.node? gone ≠ some .directory)
    (hfree : gone ∉ tree.followed budget here segments) (hne : place ≠ gone)
    (h : tree.walk false budget here segments = .ok (.present place node)) :
    (tree.erase gone).walk false budget here segments = .ok (.present place node) := by
  -- Of what the walk comes by, the directories are still there since none was taken away, the links
  -- since it is led over them, and what it ends at since that is elsewhere.
  fun_induction walk tree false budget here segments with
  | case1 budget here =>
      rw [walk]
      exact h
  | case2 budget here rest ih =>
      rw [followed_dot] at hfree
      rw [walk, if_pos rfl]
      exact ih hfree h
  | case3 budget here rest hdot ih =>
      rw [followed_up hdot] at hfree
      rw [walk, if_neg hdot, if_pos rfl]
      exact ih hfree h
  | case7 budget here segment rest hdot hup hlong hnode ih =>
      rw [followed_directory hdot hup hlong hnode] at hfree
      have hother : here ++ [segment] ≠ gone := by
        rintro rfl
        exact hfile hnode
      rw [walk, if_neg hdot, if_neg hup, if_neg hlong, node?_erase hgone, if_neg hother, hnode]
      exact ih hfree h
  | case8 budget here segment rest hdot hup hlong target hnode hlast =>
      cases h
      rw [walk, if_neg hdot, if_neg hup, if_neg hlong, node?_erase hgone, if_neg hne, hnode]
      simp only [hlast, if_true]
  | case11 here segment rest hdot hup hlong target hnode hlast budget htarget ih =>
      rw [followed_link hdot hup hlong hnode (by simpa using hlast), List.mem_cons, not_or] at hfree
      rw [walk, if_neg hdot, if_neg hup, if_neg hlong, node?_erase hgone, if_neg (Ne.symm hfree.1),
        hnode]
      simp only [hlast, htarget, if_false]
      exact ih hfree.2 h
  | case12 budget here segment rest hdot hup hlong other hdirectory hlink hnode hlast =>
      cases h
      rw [walk, if_neg hdot, if_neg hup, if_neg hlong, node?_erase hgone, if_neg hne, hnode]
      cases node <;> simp_all
  | _ =>
      cases h

/-- A walk that does not end at a directory is led over the same links without its segments `.`. -/
theorem followed_of_thins (hthins : Thins segments thin) (hfile : node ≠ .directory)
    (h : tree.walk false budget here segments = .ok (.present place node)) :
    tree.followed budget here thin = tree.followed budget here segments := by
  -- The thin walk is at the same place with the same links behind it.  A link at the end of it, where it
  -- is not followed, is at the end of the other as well.
  fun_induction walk tree false budget here segments generalizing thin with
  | case1 budget here =>
      cases h
      exact absurd rfl hfile
  | case2 budget here rest ih =>
      rw [@followed_dot tree budget here rest]
      cases hthins with
      | keep _ hrest =>
          rw [followed_dot]
          exact ih hrest h
      | drop hrest =>
          exact ih hrest h
  | case3 budget here rest hdot ih =>
      cases hthins with
      | keep _ hrest =>
          rw [followed_up hdot, followed_up hdot]
          exact ih hrest h
  | case7 budget here segment rest hdot hup hlong hnode ih =>
      cases hthins with
      | keep _ hrest =>
          rw [followed_directory hdot hup hlong hnode, followed_directory hdot hup hlong hnode]
          exact ih hrest h
      | drop hrest =>
          exact absurd rfl hdot
  | case8 budget here segment rest hdot hup hlong target hnode hlast =>
      cases hthins with
      | keep _ hrest =>
          have hempty : rest = [] := by simpa using hlast
          subst hempty
          cases hrest
          rfl
      | drop hrest =>
          exact absurd rfl hdot
  | case11 here segment rest hdot hup hlong target hnode hlast budget htarget ih =>
      cases hthins with
      | @keep _ left _ hrest =>
          have hmore : rest ≠ [] := by simpa using hlast
          -- If only segments `.` come after the link, it leads to a directory.
          have hleft : left ≠ [] := by
            intro hempty
            have hend := hrest.getLast?_eq hempty hmore
            rcases exists_name_of_walk hfile h with ⟨name, hname, hdots, _⟩
            rw [List.getLast?_append, hend, Option.some_or] at hname
            cases hname
            exact absurd rfl hdots
          rw [followed_link hdot hup hlong hnode hleft, followed_link hdot hup hlong hnode hmore]
          exact congrArg (List.cons _) (ih (hrest.append _) h)
      | drop hrest =>
          exact absurd rfl hdot
  | case12 budget here segment rest hdot hup hlong other hdirectory hlink hnode hlast =>
      cases hthins with
      | keep _ hrest =>
          rw [List.isEmpty_iff.1 hlast] at hrest ⊢
          cases hrest
          rfl
      | drop hrest =>
          exact absurd rfl hdot
  | _ =>
      cases h

end Walk

/-! ## Paths -/

section Path

variable {tree larger : FileTree} {wd place gone : Location} {path path' other other' : Path}

/-- Where a path leads without its segments `.`, no link followed at the end. -/
def lead (tree : FileTree) (wd : Location) (path : Path) : Except FaultKind Found :=
  tree.walk false maxLinks (if path.isAbsolute then [] else wd)
    (path.segments.filter (· ≠ [Path.dot]))

/-- The links that a path is led over. -/
def way (tree : FileTree) (wd : Location) (path : Path) : List Location :=
  tree.followed maxLinks (if path.isAbsolute then [] else wd)
    (path.segments.filter (· ≠ [Path.dot]))

/-- Whether a path leads to a link that another path is led over. -/
def crosses (tree : FileTree) (wd : Location) (path other : Path) : Bool :=
  match tree.lead wd path with
  | .ok (.present place (.link _)) => decide (place ∈ tree.way wd other)
  | _ => false

theorem crosses_eq_false_iff : tree.crosses wd path other = false ↔
    ∀ place target, tree.lead wd path = .ok (.present place (.link target)) →
      place ∉ tree.way wd other := by
  unfold crosses
  split
  · rename_i place target hlead
    simp [hlead]
  · rename_i hlead
    simpa using fun place target hpresent => absurd hpresent (hlead place target)

/-- Whether paths cross is a matter of their components. -/
theorem crosses_alike (hpath : path.sameComponents path' = true)
    (hother : other.sameComponents other' = true) :
    tree.crosses wd path other = tree.crosses wd path' other' := by
  rcases Path.segments_alike hpath with ⟨habsolute, hsegments⟩
  rcases Path.segments_alike hother with ⟨hotherAbsolute, hotherSegments⟩
  unfold crosses lead way
  rw [habsolute, hsegments, hotherAbsolute, hotherSegments]

/-- Paths that do not cross do not cross in a tree in which there is less. -/
theorem Within.crosses_eq_false (hwithin : tree.Within larger)
    (h : larger.crosses wd path other = false) : tree.crosses wd path other = false := by
  rw [crosses_eq_false_iff] at h ⊢
  intro place target hlead hmem
  exact h place target (hwithin.walk hlead) (hwithin.followed_prefix.subset hmem)

/-- To unlink a path takes nothing from another that it does not cross, unless both lead to one place. -/
theorem Removes.erase_of_uncrossed (h : tree.Removes wd other place)
    (hgone : tree.Removes wd path gone) (hcross : tree.crosses wd path other = false)
    (hne : place ≠ gone) : (tree.erase gone).Removes wd other place := by
  rcases h.leads with ⟨node, hfile, hresolve⟩
  rcases hgone.leads with ⟨goneNode, hgoneFile, hgoneResolve⟩
  have hgoneNode := node?_of_resolve_present hgoneResolve hgoneFile
  have hdirectory : tree.node? gone ≠ some .directory := by
    rw [hgoneNode]
    simpa using hgoneFile
  have hfree : gone ∉ tree.way wd other := by
    intro hmem
    rcases exists_link_of_mem_followed hmem with ⟨target, hlink⟩
    rw [hgoneNode] at hlink
    cases hlink
    exact crosses_eq_false_iff.1 hcross gone target (walk_of_resolve hgoneFile hgoneResolve) hmem
  refine ⟨h.bare, node, hfile, ?_⟩
  unfold resolve at hresolve ⊢
  split at hresolve
  · cases hresolve
  · rw [way, followed_of_thins (thins_filter other.segments) hfile hresolve] at hfree
    exact walk_erase hgone.ne_nil hdirectory hfree hne hresolve

/-- Of some paths, none leads to a link that one with other components is led over. -/
def Uncrossed (tree : FileTree) (wd : Location) (paths : List Path) : Prop :=
  ∀ path ∈ paths, ∀ other ∈ paths,
    path.sameComponents other = true ∨ tree.crosses wd path other = false

instance (tree : FileTree) (wd : Location) (paths : List Path) :
    Decidable (tree.Uncrossed wd paths) :=
  inferInstanceAs (Decidable (∀ path ∈ paths, ∀ other ∈ paths, _))

/-- Paths that lead to no links do not cross, whatever links they are led over. -/
theorem uncrossed_of_lead {paths : List Path}
    (h : ∀ path ∈ paths, ∀ place target, tree.lead wd path ≠ .ok (.present place (.link target))) :
    tree.Uncrossed wd paths := by
  intro path hpath other _
  refine .inr (crosses_eq_false_iff.2 ?_)
  intro place target hlead
  exact absurd hlead (h path hpath place target)

/-- A path that leads to a link when a file was made led there before. -/
theorem lead_of_insert {target content : Bytes} (hfree : tree.node? gone = none)
    (h : (tree.insert gone (.file content)).lead wd path = .ok (.present place (.link target))) :
    tree.lead wd path = .ok (.present place (.link target)) := by
  have hmade : (tree.insert gone (.file content)).node? gone = some (.file content) := by
    rw [node?_insert (ne_nil_of_node? hfree), if_pos rfl]
  rcases exists_name_of_file hmade with ⟨directory, name, rfl⟩
  have hother : Found.present place (.link target) ≠
      (tree.insert (directory ++ [name]) (.file content)).look directory name := by
    simp [look, hmade]
  have hwalk := walk_of_endsAt (endsAt_of_file hmade) (endsAt_of_free hfree)
    (fun elsewhere hne => by rw [node?_insert (by simp), if_neg hne]) h
  rw [if_neg hother] at hwalk
  exact hwalk

theorem Uncrossed.within {paths fewer : List Path} (h : larger.Uncrossed wd paths)
    (hwithin : tree.Within larger) (hfewer : fewer ⊆ paths) : tree.Uncrossed wd fewer := by
  intro path hpath other hother
  exact (h path (hfewer hpath) other (hfewer hother)).imp_right hwithin.crosses_eq_false

/-! ## What paths remove -/

/-- What a path removes, if anything. -/
def removed? (tree : FileTree) (wd : Location) (path : Path) : Option Location :=
  match tree.resolve wd false path with
  | .ok (.present place node) =>
    if node.isDirectory || path.endsWithSlash then none else some place
  | _ => none

theorem removed?_eq_some_iff : tree.removed? wd path = some place ↔ tree.Removes wd path place := by
  unfold removed?
  constructor
  · intro h
    split at h
    · rename_i found node hresolve
      simp only [Option.ite_none_left_eq_some, Bool.or_eq_true, not_or, Option.some.injEq] at h
      rcases h with ⟨⟨hfile, hbare⟩, rfl⟩
      refine ⟨by simpa using hbare, node, ?_, hresolve⟩
      rintro rfl
      exact hfile rfl
    · cases h
  · intro h
    rcases h.leads with ⟨node, hfile, hresolve⟩
    rw [hresolve]
    cases node <;> simp_all [h.bare, FileNode.isDirectory]

theorem removed?_eq_none_iff :
    tree.removed? wd path = none ↔ ∀ place, ¬ tree.Removes wd path place := by
  simp only [Option.eq_none_iff_forall_ne_some, ne_eq, removed?_eq_some_iff]

/-- When a path is unlinked, another that it does not cross removes what it would have removed, unless
that is what is gone. -/
theorem removed?_erase (h : tree.Removes wd path gone)
    (hcross : path.sameComponents other = true ∨ tree.crosses wd path other = false) :
    (tree.erase gone).removed? wd other = (tree.removed? wd other).filter (· ≠ gone) := by
  ext place
  rw [removed?_eq_some_iff, Option.filter_eq_some_iff, removed?_eq_some_iff, decide_eq_true_eq]
  constructor
  · intro hother
    refine ⟨hother.within (erase_within h.ne_nil), ?_⟩
    rintro rfl
    rcases hother.exists_node with ⟨node, _, hnode⟩
    rw [node?_erase h.ne_nil, if_pos rfl] at hnode
    cases hnode
  · rintro ⟨hother, hne⟩
    rcases hcross with halike | hcross
    · exact absurd (h.alike halike hother) hne
    · exact hother.erase_of_uncrossed h hcross hne

/-- The tree without what stands at some places. -/
def eraseAll (tree : FileTree) (places : List Location) : FileTree :=
  ⟨tree.nodes.filter (·.1 ∉ places)⟩

@[simp] theorem eraseAll_nil (tree : FileTree) : tree.eraseAll [] = tree := by
  simp [eraseAll]

/-- Neither the order of the places makes a difference, nor that some of them are named twice. -/
theorem eraseAll_congr {places places' : List Location} (h : ∀ place, place ∈ places ↔ place ∈ places') :
    tree.eraseAll places = tree.eraseAll places' := by
  simp only [eraseAll, h]

theorem eraseAll_erase (tree : FileTree) (place : Location) (places : List Location) :
    (tree.erase place).eraseAll places = tree.eraseAll (place :: places) := by
  simp only [eraseAll, erase, List.filter_filter, List.mem_cons, not_or, Bool.decide_and,
    Bool.and_comm, ne_eq]

theorem eraseAll_erase_filter (tree : FileTree) (place : Location) (places : List Location) :
    (tree.erase place).eraseAll (places.filter (· ≠ place)) = tree.eraseAll (place :: places) := by
  rw [eraseAll_erase]
  refine eraseAll_congr fun other => ?_
  simp only [List.mem_cons, List.mem_filter, decide_eq_true_eq]
  tauto

end Path
end FileTree
end NativeLaunch
