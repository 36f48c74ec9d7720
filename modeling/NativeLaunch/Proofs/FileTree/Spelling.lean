import Mathlib
import NativeLaunch.Proofs.FileTree.Walking

/-!
# Paths that differ in spelling

Two paths with the same components may differ in doubled slashes and in segments `.`, and these make
no difference to a walk but one: a walk that ends with them ends at a directory.  So if each of two
such paths leads to something else than a directory, they lead to the same (`resolve_alike`).  This
file defines:

* `FileTree.Thins` — some segments `.` of a walk are left out;
* `FileTree.Removes` — a path leads to something that can be unlinked.

Once a path is unlinked, there is nothing left to unlink under any of its spellings
(`unlink_alike`).  What is unlinked stands under the file name of the path (`Removes.getLast?_eq`), so
that paths with different file names remove different things.
-/

namespace NativeLaunch

/-! ## Components and segments -/

namespace Path

/-- The segment that a component stands for, if it is one that leads on. -/
def Component.segment? : Component → Option Bytes
  | .root => none
  | .here => none
  | .up => some [dot, dot]
  | .named name => some name

theorem segment?_ofSegment? (segment : Bytes) :
    (Component.ofSegment? segment).bind Component.segment? =
      if isIdle segment then none else some segment := by
  unfold Component.ofSegment?
  by_cases hidle : isIdle segment = true
  · simp [hidle]
  · rw [if_neg hidle, if_neg hidle]
    by_cases hup : segment = [dot, dot]
    · simp [hup, Component.segment?]
    · simp [hup, Component.segment?]

theorem filterMap_ofSegment? (segments : List Bytes) :
    (segments.filterMap Component.ofSegment?).filterMap Component.segment? =
      segments.filter (!isIdle ·) := by
  rw [List.filterMap_filterMap, ← List.filterMap_eq_filter]
  congr
  funext segment
  rw [segment?_ofSegment?]
  cases hidle : isIdle segment <;> simp [Option.guard, hidle]

/-- What stands before the body of a path is idle, so that its segments are those of the body. -/
theorem filter_body (path : Path) :
    path.body.filter (!isIdle ·) = (split path.bytes).filter (!isIdle ·) := by
  rcases path with ⟨bytes⟩
  cases bytes with
  | nil =>
      rfl
  | cons b bytes =>
      by_cases hslash : b = slash
      · subst hslash
        have hanchor : anchor ⟨slash :: bytes⟩ = [slash] := by simp [anchor, isAbsolute]
        simp [body, hanchor, split, isIdle]
      · rcases split_cons_of_ne hslash bytes with ⟨segment, segments, hrest, hsplit⟩
        have habsolute : isAbsolute ⟨b :: bytes⟩ = false := by simp [isAbsolute, hslash]
        by_cases hdot : b :: segment = [dot]
        · have hanchor : anchor ⟨b :: bytes⟩ = [dot] := by
            simp [anchor, habsolute, hsplit, hdot]
          rw [List.cons.injEq] at hdot
          rcases hdot with ⟨rfl, rfl⟩
          simp [body, hanchor, hsplit, hrest, isIdle]
        · have hanchor : anchor ⟨b :: bytes⟩ = [] := by
            simp [anchor, habsolute, hsplit, hdot]
          simp [body, hanchor]

theorem filter_segments (path : Path) :
    path.segments.filter (· ≠ [dot]) = path.body.filter (!isIdle ·) := by
  rw [filter_body, segments, List.filter_filter]
  congr
  funext segment
  simp [isIdle, Bool.and_comm]

theorem filterMap_components (path : Path) :
    path.components.filterMap Component.segment? = path.segments.filter (· ≠ [dot]) := by
  have hinner : (path.body.filterMap Component.ofSegment?).filterMap Component.segment? =
      path.segments.filter (· ≠ [dot]) := by
    rw [filterMap_ofSegment?, filter_segments]
  unfold components
  split
  · rw [List.filterMap_cons_none rfl, hinner]
  · split
    · rw [List.filterMap_cons_none rfl, hinner]
    · exact hinner

theorem ofSegment?_eq_up_iff {segment : Bytes} :
    Component.ofSegment? segment = some .up ↔ segment = [dot, dot] := by
  unfold Component.ofSegment?
  constructor
  · intro hup
    split at hup
    · cases hup
    · split at hup
      · assumption
      · cases hup
  · rintro rfl
    rfl

theorem ofSegment?_ne_root (segment : Bytes) : Component.ofSegment? segment ≠ some .root := by
  unfold Component.ofSegment?
  split
  · simp
  · split <;> simp

theorem root_mem_components_iff (path : Path) :
    Component.root ∈ path.components ↔ path.isAbsolute = true := by
  have hinner : Component.root ∉ path.body.filterMap Component.ofSegment? := by
    rw [List.mem_filterMap]
    rintro ⟨segment, _, hroot⟩
    exact ofSegment?_ne_root segment hroot
  unfold components
  split
  · simp_all
  · split
    · simp_all
    · simp_all

/-- Alike paths start at the same place and go through the same segments, but for those that are `.`. -/
theorem segments_alike {path other : Path} (h : path.sameComponents other = true) :
    path.isAbsolute = other.isAbsolute ∧
      path.segments.filter (· ≠ [dot]) = other.segments.filter (· ≠ [dot]) := by
  have hcomponents : path.components = other.components := by simpa [sameComponents] using h
  refine ⟨?_, ?_⟩
  · rw [Bool.eq_iff_iff, ← root_mem_components_iff, ← root_mem_components_iff, hcomponents]
  · rw [← filterMap_components, ← filterMap_components, hcomponents]

theorem filterMap_body (path : Path) :
    path.body.filterMap Component.ofSegment? =
      (path.segments.filter (· ≠ [dot])).filterMap Component.ofSegment? := by
  rw [filter_segments, List.filterMap_filter]
  congr
  funext segment
  unfold Component.ofSegment?
  cases hidle : isIdle segment <;> simp

theorem up_mem_components_iff (path : Path) :
    Component.up ∈ path.components ↔ [dot, dot] ∈ path.segments := by
  have hinner : Component.up ∈ path.body.filterMap Component.ofSegment? ↔
      [dot, dot] ∈ path.segments := by
    rw [filterMap_body, List.mem_filterMap]
    constructor
    · rintro ⟨segment, hsegment, hup⟩
      rw [← ofSegment?_eq_up_iff.1 hup]
      exact (List.mem_filter.1 hsegment).1
    · intro hup
      exact ⟨[dot, dot], List.mem_filter.2 ⟨hup, by decide⟩, rfl⟩
  rw [← hinner]
  unfold components
  split
  · simp
  · split
    · simp
    · rfl

/-- After a path that is not empty, a name adds its own component. -/
theorem components_join {path : Path} {name : Bytes} (hpath : path.bytes ≠ [])
    (hname : name ≠ [] ∧ slash ∉ name) :
    (path.join ⟨name⟩).components = path.components ++ [name].filterMap Component.ofSegment? := by
  have hinner : (path.join ⟨name⟩).body.filterMap Component.ofSegment? =
      path.body.filterMap Component.ofSegment? ++ [name].filterMap Component.ofSegment? := by
    have hdot : ([name].filter (· ≠ [dot])).filterMap Component.ofSegment? =
        [name].filterMap Component.ofSegment? := by
      by_cases hdot : name = [dot]
      · rw [hdot]
        rfl
      · rw [List.filter_cons_of_pos (by simpa using hdot), List.filter_nil]
    rw [filterMap_body, filterMap_body, segments_join hname.1 hname.2, List.filter_append,
      List.filterMap_append, hdot]
  unfold components
  rw [hinner, isAbsolute_join path hname.2, anchor_join hpath hname.2]
  split
  · rfl
  · split <;> rfl

theorem components_foldl_join {path : Path} {names : List Bytes} (hpath : path.bytes ≠ [])
    (hnames : ∀ name ∈ names, name ≠ [] ∧ slash ∉ name) :
    (names.foldl (fun path name => path.join ⟨name⟩) path).components =
      path.components ++ names.filterMap Component.ofSegment? := by
  induction names generalizing path with
  | nil =>
      simp
  | cons name names ih =>
      have hname := hnames name List.mem_cons_self
      have hjoined : (path.join ⟨name⟩).bytes ≠ [] := by
        intro hempty
        have hbegins := prefix_join path hname.2
        rw [hempty, List.prefix_nil] at hbegins
        exact hpath hbegins
      rw [List.foldl_cons, ih hjoined (fun other hmem => hnames other (List.mem_cons_of_mem _ hmem)),
        components_join hpath hname, List.append_assoc, ← List.filterMap_append, List.singleton_append]

/-- If a path ends in a name, that is its file name. -/
theorem fileName?_of_segments {path : Path} {name : Bytes} (hlast : path.segments.getLast? = some name)
    (hdot : name ≠ [dot]) (hup : name ≠ [dot, dot]) : path.fileName? = some name := by
  have hname : Component.ofSegment? name = some (.named name) := by
    have hempty : name ≠ [] := by
      have hmem := List.mem_of_getLast? hlast
      rw [segments, List.mem_filter] at hmem
      simpa using hmem.2
    simp [Component.ofSegment?, isIdle, hempty, hdot, hup]
  obtain ⟨front, hfront⟩ : ∃ front, path.segments = front ++ [name] :=
    List.getLast?_eq_some_iff.1 hlast
  have hinner : (path.body.filterMap Component.ofSegment?).getLast? = some (.named name) := by
    rw [filterMap_body, hfront, List.filter_append, List.filter_cons_of_pos (by simpa using hdot),
      List.filter_nil, List.filterMap_append, List.filterMap_cons_some hname, List.filterMap_nil,
      List.getLast?_concat]
  have hcomponents : path.components.getLast? = some (.named name) := by
    unfold components
    split
    · rw [List.getLast?_cons, hinner]
      rfl
    · split
      · rw [List.getLast?_cons, hinner]
        rfl
      · exact hinner
  rw [fileName?, hcomponents]

end Path

namespace FileTree

/-! ## Walks without dots -/

/-- Some segments `.` are left out; the others stay in their order. -/
inductive Thins : List Bytes → List Bytes → Prop
  | nil : Thins [] []
  | keep {segments thin : List Bytes} (segment : Bytes) (rest : Thins segments thin) :
      Thins (segment :: segments) (segment :: thin)
  | drop {segments thin : List Bytes} (rest : Thins segments thin) :
      Thins ([Path.dot] :: segments) thin

theorem Thins.append {segments thin : List Bytes} (h : Thins segments thin) (before : List Bytes) :
    Thins (before ++ segments) (before ++ thin) := by
  induction before with
  | nil =>
      exact h
  | cons segment before ih =>
      exact .keep segment ih

theorem thins_filter (segments : List Bytes) : Thins segments (segments.filter (· ≠ [Path.dot])) := by
  induction segments with
  | nil =>
      exact .nil
  | cons segment segments ih =>
      by_cases hdot : segment = [Path.dot]
      · subst hdot
        rw [List.filter_cons_of_neg (by simp)]
        exact .drop ih
      · rw [List.filter_cons_of_pos (by simpa using hdot)]
        exact .keep segment ih

/-- If nothing is left, then a segment `.` was last. -/
theorem Thins.getLast?_eq {segments thin : List Bytes} (h : Thins segments thin) (hthin : thin = [])
    (hsegments : segments ≠ []) : segments.getLast? = some [Path.dot] := by
  induction h with
  | nil =>
      exact absurd rfl hsegments
  | keep segment rest ih =>
      cases hthin
  | @drop segments thin rest ih =>
      cases segments with
      | nil =>
          rfl
      | cons segment segments =>
          rw [List.getLast?_cons_cons]
          exact ih hthin (List.cons_ne_nil _ _)

section Walk

variable {tree : FileTree} {follow : Bool} {budget : Nat} {here place : Location}
  {segments thin : List Bytes} {node : FileNode}

/-- A walk that does not end at a directory has a name for its last segment, and ends at that name if no
link is followed at the end. -/
theorem exists_name_of_walk (hfile : node ≠ .directory)
    (h : tree.walk follow budget here segments = .ok (.present place node)) :
    ∃ name, segments.getLast? = some name ∧ name ≠ [Path.dot] ∧ name ≠ [Path.dot, Path.dot] ∧
      (follow = false → place.getLast? = some name) := by
  -- Where segments are left, the last of them is the last of the walk; a walk without segments ends at a
  -- directory.
  fun_induction walk tree follow budget here segments with
  | case1 budget here =>
      cases h
      exact absurd rfl hfile
  | case2 budget here rest ih =>
      rcases ih h with ⟨name, hlast, hname⟩
      exact ⟨name, by rw [List.getLast?_cons, hlast]; rfl, hname⟩
  | case3 budget here rest hdot ih =>
      rcases ih h with ⟨name, hlast, hname⟩
      exact ⟨name, by rw [List.getLast?_cons, hlast]; rfl, hname⟩
  | case7 budget here segment rest hdot hup hlong hnode ih =>
      rcases ih h with ⟨name, hlast, hname⟩
      exact ⟨name, by rw [List.getLast?_cons, hlast]; rfl, hname⟩
  | case8 budget here segment rest hdot hup hlong target hnode hend =>
      cases h
      rw [List.isEmpty_iff.1 (Bool.and_eq_true_iff.1 hend).1]
      exact ⟨segment, rfl, hdot, hup, fun _ => List.getLast?_concat⟩
  | case11 here segment rest hdot hup hlong target hnode hend budget htarget ih =>
      rcases ih h with ⟨name, hlast, hname⟩
      cases rest with
      | nil =>
          -- The link is followed at the end, and the walk goes on to what it leads to.
          have hfollow : follow = true := by simpa using hend
          exact ⟨segment, rfl, hdot, hup, fun hnot => absurd (hfollow.symm.trans hnot) (by decide)⟩
      | cons next rest =>
          refine ⟨name, ?_, hname⟩
          rw [List.getLast?_append, Option.or_of_isSome (by simp)] at hlast
          rw [List.getLast?_cons_cons, hlast]
  | case12 budget here segment rest hdot hup hlong other hdirectory hlink hnode hend =>
      cases h
      rw [List.isEmpty_iff.1 hend]
      exact ⟨segment, rfl, hdot, hup, fun _ => List.getLast?_concat⟩
  | _ =>
      cases h

/-- A walk that does not end at a directory goes the same way without its segments `.`. -/
theorem walk_of_thins (hthins : Thins segments thin) (hfile : node ≠ .directory)
    (h : tree.walk follow budget here segments = .ok (.present place node)) :
    tree.walk follow budget here thin = .ok (.present place node) := by
  fun_induction walk tree follow budget here segments generalizing thin with
  | case1 budget here =>
      cases h
      exact absurd rfl hfile
  | case2 budget here rest ih =>
      cases hthins with
      | keep _ hrest =>
          rw [walk, if_pos rfl]
          exact ih hrest h
      | drop hrest =>
          exact ih hrest h
  | case3 budget here rest hdot ih =>
      cases hthins with
      | keep _ hrest =>
          rw [walk, if_neg hdot, if_pos rfl]
          exact ih hrest h
  | case7 budget here segment rest hdot hup hlong hnode ih =>
      cases hthins with
      | keep _ hrest =>
          rw [walk, if_neg hdot, if_neg hup, if_neg hlong, hnode]
          exact ih hrest h
      | drop hrest =>
          exact absurd rfl hdot
  | case8 budget here segment rest hdot hup hlong target hnode hend =>
      cases hthins with
      | @keep _ left _ hrest =>
          have hempty : left = [] := by
            rw [List.isEmpty_iff.1 (Bool.and_eq_true_iff.1 hend).1] at hrest
            cases hrest
            rfl
          rw [walk, if_neg hdot, if_neg hup, if_neg hlong, hnode, hempty]
          rw [(Bool.and_eq_true_iff.1 hend).2] at *
          exact h
      | drop hrest =>
          exact absurd rfl hdot
  | case11 here segment rest hdot hup hlong target hnode hend budget htarget ih =>
      cases hthins with
      | @keep _ left _ hrest =>
          -- If only segments `.` come after the link, it leads to a directory.
          have hleft : (left.isEmpty && !follow) = false := by
            cases left with
            | nil =>
                cases rest with
                | nil =>
                    simpa using hend
                | cons next rest =>
                    have hlast := hrest.getLast?_eq rfl (List.cons_ne_nil _ _)
                    rcases exists_name_of_walk hfile h with ⟨name, hname, hdots, _⟩
                    rw [List.getLast?_append, hlast, Option.some_or] at hname
                    cases hname
                    exact absurd rfl hdots
            | cons next left =>
                rfl
          rw [walk, if_neg hdot, if_neg hup, if_neg hlong, hnode]
          simp only [hleft, htarget, if_false]
          exact ih (hrest.append _) h
      | drop hrest =>
          exact absurd rfl hdot
  | case12 budget here segment rest hdot hup hlong other hdirectory hlink hnode hend =>
      cases hthins with
      | @keep _ left _ hrest =>
          have hempty : left = [] := by
            rw [List.isEmpty_iff.1 hend] at hrest
            cases hrest
            rfl
          rw [walk, if_neg hdot, if_neg hup, if_neg hlong, hnode, hempty]
          cases other <;> simp_all
      | drop hrest =>
          exact absurd rfl hdot
  | _ =>
      cases h

end Walk

/-! ## Paths -/

section Path

variable {tree : FileTree} {wd place : Location} {path other : Path} {node : FileNode}

/-- A path that leads to something else than a directory leads there without its segments `.`. -/
theorem walk_of_resolve {follow : Bool} (hfile : node ≠ .directory)
    (h : tree.resolve wd follow path = .ok (.present place node)) :
    tree.walk follow maxLinks (if path.isAbsolute then [] else wd)
      (path.segments.filter (· ≠ [Path.dot])) = .ok (.present place node) := by
  unfold resolve at h
  split at h
  · cases h
  · exact walk_of_thins (thins_filter _) hfile h

/-- If each of two alike paths leads to something else than a directory, they lead to the same. -/
theorem resolve_alike {follow : Bool} {otherPlace : Location} {otherNode : FileNode}
    (halike : path.sameComponents other = true)
    (h : tree.resolve wd follow path = .ok (.present place node)) (hfile : node ≠ .directory)
    (hother : tree.resolve wd follow other = .ok (.present otherPlace otherNode))
    (hotherFile : otherNode ≠ .directory) : otherPlace = place ∧ otherNode = node := by
  have hwalk := walk_of_resolve hfile h
  have hotherWalk := walk_of_resolve hotherFile hother
  rcases Path.segments_alike halike with ⟨habsolute, hsegments⟩
  rw [habsolute, hsegments, hotherWalk] at hwalk
  cases hwalk
  exact ⟨rfl, rfl⟩

/-! ## Unlinking -/

/-- A path leads to a file or link, which stands at a place and can be unlinked. -/
structure Removes (tree : FileTree) (wd : Location) (path : Path) (place : Location) : Prop where
  bare : path.endsWithSlash = false
  leads : ∃ node, node ≠ .directory ∧ tree.resolve wd false path = .ok (.present place node)

namespace Removes

theorem unlink_eq (h : tree.Removes wd path place) :
    tree.unlink wd path = (.ok (), tree.erase place) := by
  rcases h.leads with ⟨node, hfile, hresolve⟩
  have hdirectory : node.isDirectory = false := by
    cases node with
    | directory =>
        exact absurd rfl hfile
    | _ =>
        rfl
  simp [unlink, hresolve, hdirectory, h.bare]

theorem exists_node (h : tree.Removes wd path place) :
    ∃ node, node ≠ .directory ∧ tree.node? place = some node := by
  rcases h.leads with ⟨node, hfile, hresolve⟩
  exact ⟨node, hfile, node?_of_resolve_present hresolve hfile⟩

theorem ne_nil (h : tree.Removes wd path place) : place ≠ [] := by
  rintro rfl
  rcases h.exists_node with ⟨node, hfile, hnode⟩
  cases hnode
  exact hfile rfl

/-- What stands at a place has the file name of each path that leads there. -/
theorem getLast?_eq (h : tree.Removes wd path place) : place.getLast? = path.fileName? := by
  rcases h.leads with ⟨node, hfile, hresolve⟩
  unfold resolve at hresolve
  split at hresolve
  · cases hresolve
  · rcases exists_name_of_walk hfile hresolve with ⟨name, hlast, hdot, hup, hplace⟩
    rw [hplace rfl, Path.fileName?_of_segments hlast hdot hup]

/-- What a path removes from a tree it removes from one in which there is more. -/
theorem within {larger : FileTree} (h : tree.Removes wd path place) (hwithin : tree.Within larger) :
    larger.Removes wd path place := by
  rcases h.leads with ⟨node, hfile, hresolve⟩
  exact ⟨h.bare, node, hfile, hwithin.resolve hresolve⟩

/-- To take a file away elsewhere does not stand in the way of a path. -/
theorem erase {gone : Location} {content : Bytes} (h : tree.Removes wd path place)
    (hgone : tree.node? gone = some (.file content)) (hne : place ≠ gone) :
    (tree.erase gone).Removes wd path place := by
  rcases h.leads with ⟨node, hfile, hresolve⟩
  rcases exists_name_of_file hgone with ⟨directory, name, rfl⟩
  refine ⟨h.bare, node, hfile, ?_⟩
  rw [resolve_erase hgone hresolve, if_neg]
  rw [Found.present.injEq]
  rintro ⟨hplace, _⟩
  exact hne hplace

theorem alike {otherPlace : Location} (h : tree.Removes wd path place)
    (halike : path.sameComponents other = true) (hother : tree.Removes wd other otherPlace) :
    otherPlace = place := by
  rcases h.leads with ⟨node, hfile, hresolve⟩
  rcases hother.leads with ⟨otherNode, hotherFile, hotherResolve⟩
  exact (resolve_alike halike hresolve hfile hotherResolve hotherFile).1

theorem unique {otherPlace : Location} (h : tree.Removes wd path place)
    (hother : tree.Removes wd path otherPlace) : otherPlace = place :=
  h.alike (by simp [Path.sameComponents]) hother

end Removes

theorem Names.removes {content : Bytes} (h : tree.Names wd path place content) :
    tree.Removes wd path place :=
  ⟨h.bare, .file content, nofun, h.named false⟩

/-- To unlink a path is to remove what it leads to, and to fail is to change nothing. -/
theorem unlink_cases (tree : FileTree) (wd : Location) (path : Path) :
    (∃ kind, tree.unlink wd path = (.error kind, tree) ∧ ∀ place, ¬ tree.Removes wd path place) ∨
      ∃ place, tree.unlink wd path = (.ok (), tree.erase place) ∧ tree.Removes wd path place := by
  cases hunlink : tree.unlink wd path with
  | mk answer after =>
      cases answer with
      | error kind =>
          refine .inl ⟨kind, by rw [unlink_error hunlink], ?_⟩
          intro place hremoves
          rw [hremoves.unlink_eq] at hunlink
          cases hunlink
      | ok done =>
          unfold unlink at hunlink
          split at hunlink
          · cases hunlink
          · cases hunlink
          · rename_i place node hresolve
            split at hunlink
            · cases hunlink
            · rename_i hdirectory
              split at hunlink
              · cases hunlink
              · rename_i hbare
                cases hunlink
                refine .inr ⟨place, rfl, by simpa using hbare, node, ?_, hresolve⟩
                rintro rfl
                exact hdirectory rfl

/-- Under any spelling of a path that is unlinked, there is nothing left to unlink. -/
theorem unlink_alike (hremoves : tree.Removes wd path place)
    (halike : path.sameComponents other = true) :
    ((tree.erase place).unlink wd other).2 = tree.erase place := by
  rcases unlink_cases (tree.erase place) wd other with
    ⟨kind, hunlink, _⟩ | ⟨otherPlace, _, hother⟩
  · rw [hunlink]
  · have hsame := hremoves.alike halike (hother.within (erase_within hremoves.ne_nil))
    rcases hother.exists_node with ⟨node, _, hnode⟩
    rw [hsame, node?_erase hremoves.ne_nil, if_pos rfl] at hnode
    cases hnode

end Path
end FileTree
end NativeLaunch
