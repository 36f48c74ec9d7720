import NativeLaunch.Proofs.FileTree.Placing
import NativeLaunch.Proofs.Path.Segments
import NativeLaunch.World

/-!
# Walks in trees that grow

What a walk finds it still finds in a tree in which there is more (`Within`).  A name that it finds
vacant it finds taken by the directory that is made there, and a name that it finds in a directory is
in the listing of that directory (`exists_listed`).  Where no link stands below a place (`Unlinked`), a
walk from there that does not turn back ends below it, at the names that it has gone through.
-/

namespace NativeLaunch
namespace FileTree

/-- Whatever stands in the one tree stands in the other. -/
def Within (tree larger : FileTree) : Prop :=
  ∀ place node, tree.node? place = some node → larger.node? place = some node

theorem Within.refl (tree : FileTree) : tree.Within tree := fun _ _ hnode => hnode

theorem Within.trans {tree larger largest : FileTree} (h : tree.Within larger)
    (h' : larger.Within largest) : tree.Within largest :=
  fun place node hnode => h' place node (h place node hnode)

theorem within_insert {tree : FileTree} {place : Location} (hfree : tree.node? place = none)
    (node : FileNode) : tree.Within (tree.insert place node) := by
  intro other found hfound
  rw [node?_insert (ne_nil_of_node? hfree), if_neg]
  · exact hfound
  · rintro rfl
    rw [hfree] at hfound
    cases hfound

theorem erase_within {tree : FileTree} {place : Location} (hplace : place ≠ []) :
    (tree.erase place).Within tree := by
  intro other found hfound
  rw [node?_erase hplace] at hfound
  split at hfound
  · cases hfound
  · exact hfound

section Walk

variable {tree larger : FileTree} {follow : Bool} {budget : Nat} {here place : Location}
  {segments : List Bytes} {node : FileNode}

theorem Within.walk (hwithin : tree.Within larger)
    (h : tree.walk follow budget here segments = .ok (.present place node)) :
    larger.walk follow budget here segments = .ok (.present place node) := by
  -- The walk in the larger tree is at the same place, with the same node ahead.
  fun_induction FileTree.walk tree follow budget here segments with
  | case1 budget here =>
      rw [FileTree.walk]
      exact h
  | case2 budget here rest ih =>
      rw [FileTree.walk, if_pos rfl]
      exact ih h
  | case3 budget here rest hdot ih =>
      rw [FileTree.walk, if_neg hdot, if_pos rfl]
      exact ih h
  | case7 budget here segment rest hdot hup hlong hnode ih =>
      rw [FileTree.walk, if_neg hdot, if_neg hup, if_neg hlong, hwithin _ _ hnode]
      exact ih h
  | case8 budget here segment rest hdot hup hlong target hnode hlast =>
      rw [FileTree.walk, if_neg hdot, if_neg hup, if_neg hlong, hwithin _ _ hnode]
      simp only [hlast, if_true]
      exact h
  | case11 here segment rest hdot hup hlong target hnode hlast budget htarget ih =>
      rw [FileTree.walk, if_neg hdot, if_neg hup, if_neg hlong, hwithin _ _ hnode]
      simp only [hlast, htarget, if_false]
      exact ih h
  | case12 budget here segment rest hdot hup hlong other hdirectory hlink hnode hlast =>
      rw [FileTree.walk, if_neg hdot, if_neg hup, if_neg hlong, hwithin _ _ hnode]
      cases other <;> simp_all
  | _ =>
      cases h

/-- To make a directory at a vacant name is to find it there. -/
theorem walk_insert_directory {directory : Location} {name : Bytes}
    (h : tree.walk follow budget here segments = .ok (.vacant directory name)) :
    (tree.insert (directory ++ [name]) .directory).walk follow budget here segments =
      .ok (.present (directory ++ [name]) .directory) := by
  -- The walk is the same up to the vacant name, as nothing else has changed.
  have hwithin : tree.Within (tree.insert (directory ++ [name]) .directory) :=
    within_insert (node?_of_walk h) .directory
  have hmade : (tree.insert (directory ++ [name]) .directory).node? (directory ++ [name]) =
      some .directory := by
    rw [node?_insert (by simp), if_pos rfl]
  fun_induction FileTree.walk tree follow budget here segments with
  | case2 budget here rest ih =>
      rw [FileTree.walk, if_pos rfl]
      exact ih h
  | case3 budget here rest hdot ih =>
      rw [FileTree.walk, if_neg hdot, if_pos rfl]
      exact ih h
  | case5 budget here segment rest hdot hup hlong hnode hlast =>
      cases h
      rw [FileTree.walk, if_neg hdot, if_neg hup, if_neg hlong, hmade, List.isEmpty_iff.1 hlast]
      simp [FileTree.walk]
  | case7 budget here segment rest hdot hup hlong hnode ih =>
      rw [FileTree.walk, if_neg hdot, if_neg hup, if_neg hlong, hwithin _ _ hnode]
      exact ih h
  | case11 here segment rest hdot hup hlong target hnode hlast budget htarget ih =>
      rw [FileTree.walk, if_neg hdot, if_neg hup, if_neg hlong, hwithin _ _ hnode]
      simp only [hlast, htarget, if_false]
      exact ih h
  | _ =>
      cases h

/-- The way to what is inside a directory leads through that directory. -/
theorem walk_append {more : List Bytes} {found : Found} (hmore : more ≠ [])
    (h : tree.walk true budget here (segments ++ more) = .ok found) :
    ∃ directory left, tree.walk true budget here segments = .ok (.present directory .directory) ∧
      tree.walk true left directory more = .ok found := by
  fun_induction FileTree.walk tree true budget here segments with
  | case1 budget here =>
      exact ⟨here, budget, rfl, h⟩
  | case2 budget here rest ih =>
      rw [List.cons_append, FileTree.walk, if_pos rfl] at h
      exact ih h
  | case3 budget here rest hdot ih =>
      rw [List.cons_append, FileTree.walk, if_neg hdot, if_pos rfl] at h
      exact ih h
  | case4 budget here segment rest hdot hup hlong =>
      rw [List.cons_append, FileTree.walk, if_neg hdot, if_neg hup, if_pos hlong] at h
      cases h
  | case7 budget here segment rest hdot hup hlong hnode ih =>
      rw [List.cons_append, FileTree.walk, if_neg hdot, if_neg hup, if_neg hlong, hnode] at h
      exact ih h
  | case11 here segment rest hdot hup hlong target hnode hlast budget htarget ih =>
      rw [List.cons_append, FileTree.walk, if_neg hdot, if_neg hup, if_neg hlong, hnode] at h
      simp only [Bool.not_true, Bool.and_false, Bool.false_eq_true, htarget, if_false,
        ← List.append_assoc] at h
      exact ih h
  | case8 budget here segment rest hdot hup hlong target hnode hlast =>
      simp at hlast
  -- In all others the walk ends at this segment, while there is more to come.
  | case5 budget here segment rest hdot hup hlong hnode =>
      rw [List.cons_append, FileTree.walk, if_neg hdot, if_neg hup, if_neg hlong, hnode] at h
      simp [hmore] at h
  | case6 budget here segment rest hdot hup hlong hnode =>
      rw [List.cons_append, FileTree.walk, if_neg hdot, if_neg hup, if_neg hlong, hnode] at h
      simp [hmore] at h
  | case9 here segment rest hdot hup hlong target hnode =>
      rw [List.cons_append, FileTree.walk, if_neg hdot, if_neg hup, if_neg hlong, hnode] at h
      simp at h
  | case10 here segment rest hdot hup hlong hlast budget hnode =>
      rw [List.cons_append, FileTree.walk, if_neg hdot, if_neg hup, if_neg hlong, hnode] at h
      simp at h
  | case12 budget here segment rest hdot hup hlong node hdirectory hlink hnode =>
      rw [List.cons_append, FileTree.walk, if_neg hdot, if_neg hup, if_neg hlong, hnode] at h
      cases node <;> simp_all
  | case13 budget here segment rest hdot hup hlong node hdirectory hlink hnode =>
      rw [List.cons_append, FileTree.walk, if_neg hdot, if_neg hup, if_neg hlong, hnode] at h
      cases node <;> simp_all

/-- From a directory the way leads on to a file that stands there. -/
theorem walk_concat {name content : Bytes}
    (h : tree.walk true budget here segments = .ok (.present place .directory))
    (hname : Path.IsName name) (hlength : name.length ≤ maxNameLength)
    (hfile : tree.node? (place ++ [name]) = some (.file content)) :
    tree.walk true budget here (segments ++ [name]) =
      .ok (.present (place ++ [name]) (.file content)) := by
  fun_induction FileTree.walk tree true budget here segments with
  | case1 budget here =>
      cases h
      rw [List.nil_append, FileTree.walk, if_neg hname.2.2.1, if_neg hname.2.2.2,
        if_neg (Nat.not_lt.2 hlength), hfile]
      rfl
  | case2 budget here rest ih =>
      rw [List.cons_append, FileTree.walk, if_pos rfl]
      exact ih h
  | case3 budget here rest hdot ih =>
      rw [List.cons_append, FileTree.walk, if_neg hdot, if_pos rfl]
      exact ih h
  | case7 budget here segment rest hdot hup hlong hnode ih =>
      rw [List.cons_append, FileTree.walk, if_neg hdot, if_neg hup, if_neg hlong, hnode]
      exact ih h
  | case11 here segment rest hdot hup hlong target hnode hlast budget htarget ih =>
      rw [List.cons_append, FileTree.walk, if_neg hdot, if_neg hup, if_neg hlong, hnode]
      simp only [Bool.not_true, Bool.and_false, Bool.false_eq_true, htarget, if_false,
        ← List.append_assoc]
      exact ih h
  -- In all others the walk ends at no directory.
  | case12 budget here segment rest hdot hup hlong other hdirectory =>
      cases h
      exact absurd rfl hdirectory
  | _ =>
      cases h

/-- No link stands anywhere below a place. -/
def Unlinked (tree : FileTree) (top : Location) : Prop :=
  ∀ inner target, inner ≠ [] → tree.node? (top ++ inner) ≠ some (.link target)

theorem Unlinked.below {top : Location} (hplain : tree.Unlinked top) (name : Bytes) :
    tree.Unlinked (top ++ [name]) := by
  intro inner target _
  rw [List.append_assoc]
  exact hplain ([name] ++ inner) target (by simp)

/-- A walk that meets no link and never turns back goes down, one name after the other. -/
theorem Unlinked.place_eq (hplain : tree.Unlinked here) (hup : [Path.dot, Path.dot] ∉ segments)
    (h : tree.walk follow budget here segments = .ok (.present place node)) :
    place = here ++ segments.filter (· ≠ [Path.dot]) := by
  fun_induction FileTree.walk tree follow budget here segments with
  | case1 budget here =>
      cases h
      simp
  | case2 budget here rest ih =>
      rw [List.filter_cons_of_neg (by simp)]
      exact ih hplain (fun hmem => hup (List.mem_cons_of_mem _ hmem)) h
  | case3 budget here rest hdot ih =>
      exact absurd List.mem_cons_self hup
  | case7 budget here segment rest hdot _ hlong hnode ih =>
      rw [List.filter_cons_of_pos (by simpa using hdot), List.append_cons]
      exact ih (hplain.below segment) (fun hmem => hup (List.mem_cons_of_mem _ hmem)) h
  | case8 budget here segment rest hdot _ hlong target hnode hlast =>
      exact absurd hnode (hplain [segment] target (by simp))
  | case11 here segment rest hdot _ hlong target hnode hlast budget htarget ih =>
      exact absurd hnode (hplain [segment] target (by simp))
  | case12 budget here segment rest hdot _ hlong other hdirectory hlink hnode hlast =>
      cases h
      rw [List.filter_cons_of_pos (by simpa using hdot), List.isEmpty_iff.1 hlast]
      rfl
  | _ =>
      cases h

end Walk

/-! ## Paths -/

section Path

variable {tree larger : FileTree} {wd place : Location} {path : Path} {node : FileNode}

theorem Within.resolve {follow : Bool} (hwithin : tree.Within larger)
    (h : tree.resolve wd follow path = .ok (.present place node)) :
    larger.resolve wd follow path = .ok (.present place node) := by
  unfold FileTree.resolve at h ⊢
  split at h
  · cases h
  · exact hwithin.walk h

theorem find_eq_ok_iff :
    tree.find wd path = .ok (place, node) ↔
      tree.resolve wd true path = .ok (.present place node) ∧
        (path.endsWithSlash = true → node.isDirectory = true) := by
  unfold find
  split
  · simp_all
  · simp_all
  · simp_all
    grind

theorem Within.find (hwithin : tree.Within larger) (h : tree.find wd path = .ok (place, node)) :
    larger.find wd path = .ok (place, node) := by
  rw [find_eq_ok_iff] at h ⊢
  exact ⟨hwithin.resolve h.1, h.2⟩

theorem Within.isDirectory (hwithin : tree.Within larger) (h : tree.isDirectory wd path = true) :
    larger.isDirectory wd path = true := by
  unfold FileTree.isDirectory at h ⊢
  split at h
  · rename_i hfind
    rw [hwithin.find hfind]
    exact h
  · cases h

/-! ## Directories that are made -/

theorem isDirectory_of_makeDirectory {made : FileTree}
    (h : tree.makeDirectory wd path = (.ok (), made)) : made.isDirectory wd path = true := by
  unfold makeDirectory at h
  split at h
  · cases h
  · cases h
  · rename_i directory name hresolve
    cases h
    have hvacant := resolve_follow hresolve
    have hfind : (tree.insert (directory ++ [name]) .directory).find wd path =
        .ok (directory ++ [name], .directory) := by
      rw [find_eq_ok_iff]
      refine ⟨?_, fun _ => rfl⟩
      unfold FileTree.resolve at hvacant ⊢
      split at hvacant
      · cases hvacant
      · exact walk_insert_directory hvacant
    unfold FileTree.isDirectory
    rw [hfind]
    rfl

theorem isDirectory_of_makeDirectoriesWithin {depth : Nat} {made : FileTree}
    (hpath : path.bytes ≠ []) (h : makeDirectoriesWithin depth tree wd path = (.ok (), made)) :
    made.isDirectory wd path = true := by
  cases depth with
  | zero =>
      cases h
  | succ depth =>
      rw [makeDirectoriesWithin, if_neg hpath] at h
      split at h
      · rename_i hmake
        cases h
        exact isDirectory_of_makeDirectory hmake
      · split at h
        · cases h
        · split at h
          · cases h
          · split at h
            · rename_i hmake
              cases h
              exact isDirectory_of_makeDirectory hmake
            · split at h
              · rename_i hthere
                cases h
                exact hthere
              · cases h
      · split at h
        · rename_i hthere
          cases h
          exact hthere
        · cases h

/-! ## Listings -/

/-- The name under which a location stands in a place, if it stands right there. -/
def childName? (place location : Location) : Option Bytes :=
  if location.dropLast = place then location.getLast? else none

theorem childName?_eq_some_iff {location : Location} {name : Bytes} :
    childName? place location = some name ↔ location = place ++ [name] := by
  unfold childName?
  constructor
  · intro h
    split at h
    · rename_i hplace
      rcases List.getLast?_eq_some_iff.1 h with ⟨before, rfl⟩
      rw [← hplace, List.dropLast_concat]
    · cases h
  · rintro rfl
    simp

theorem map_fst_children (tree : FileTree) (place : Location) :
    (tree.children place).map Prod.fst = (tree.nodes.map Prod.fst).filterMap (childName? place) := by
  rw [children, List.map_filterMap, List.filterMap_map]
  congr
  funext entry
  obtain ⟨location, entry⟩ := entry
  simp only [Function.comp_apply, childName?]
  cases location.getLast? with
  | none =>
      simp
  | some name =>
      by_cases hplace : location.dropLast = place
      · simp only [hplace, if_true, Option.map_some]
      · simp only [hplace, if_false, Option.map_none]

theorem exists_node?_iff {location : Location} (hlocation : location ≠ []) :
    (∃ node, tree.node? location = some node) ↔ location ∈ tree.nodes.map Prod.fst := by
  rw [node?, if_neg hlocation, ← Option.isSome_iff_exists, List.lookup_isSome_iff, List.mem_map]
  simp only [beq_iff_eq, @eq_comm _ location]

/-- The names in a directory are those under which something stands there. -/
theorem mem_map_fst_children_iff {name : Bytes} :
    name ∈ (tree.children place).map Prod.fst ↔ ∃ node, tree.node? (place ++ [name]) = some node := by
  rw [exists_node?_iff (by simp), map_fst_children, List.mem_filterMap]
  simp only [childName?_eq_some_iff, exists_eq_right]

/-- A tree as a file system has it: one thing at each place, under names that a directory can hold. -/
structure WellFormed (tree : FileTree) : Prop where
  unique : (tree.nodes.map Prod.fst).Nodup
  named : ∀ location ∈ tree.nodes.map Prod.fst, ∀ name ∈ location,
    Path.IsName name ∧ 0 ∉ name ∧ name.length ≤ maxNameLength

theorem WellFormed.nodup_children (hfiles : tree.WellFormed) (place : Location) :
    ((tree.children place).map Prod.fst).Nodup := by
  rw [map_fst_children]
  refine List.Pairwise.filterMap _ (fun location location' hne name hname name' hname' hsame => hne ?_)
    hfiles.unique
  rw [childName?_eq_some_iff.1 hname, childName?_eq_some_iff.1 hname', hsame]

/-- What stands in a directory has a name. -/
theorem WellFormed.isName (hfiles : tree.WellFormed) {name : Bytes}
    (hnode : tree.node? (place ++ [name]) = some node) :
    Path.IsName name ∧ 0 ∉ name ∧ name.length ≤ maxNameLength :=
  hfiles.named _ ((exists_node?_iff (by simp)).1 ⟨node, hnode⟩) name (by simp)

theorem mem_children {name : Bytes} (h : tree.node? (place ++ [name]) = some node) :
    (name, node) ∈ tree.children place := by
  have hlookup : tree.nodes.lookup (place ++ [name]) = some node := by simpa [node?] using h
  rcases List.lookup_eq_some_iff.1 hlookup with ⟨newer, older, hnodes, _⟩
  rw [children, List.mem_filterMap]
  exact ⟨(place ++ [name], node), by simp [hnodes], by simp⟩

theorem textFault?_eq_none_iff :
    textFault? path = none ↔ 0 ∉ path.bytes ∧ path.bytes ≠ [] ∧ path.bytes.length < pathLimit := by
  unfold textFault?
  split
  · simp_all
  split
  · simp_all
  split
  · simp_all
  · simp_all

theorem node?_of_walk_name {budget : Nat} {directory : Location} {name : Bytes}
    (hname : Path.IsName name)
    (h : tree.walk true budget directory [name] = .ok (.present place node)) :
    ∃ entry, tree.node? (directory ++ [name]) = some entry := by
  cases hnode : tree.node? (directory ++ [name]) with
  | none =>
      rw [walk, if_neg hname.2.2.1, if_neg hname.2.2.2] at h
      split at h
      · cases h
      · simp [hnode] at h
  | some entry =>
      exact ⟨entry, rfl⟩

/-- The way to what is inside a directory leads through that directory, and the faults that the text of a
path can have are not those of its beginning alone. -/
theorem find_of_segments_append {root : Path} {more : List Bytes} (hroot : root.bytes ≠ [])
    (hbegins : root.bytes <+: path.bytes) (hsegments : path.segments = root.segments ++ more)
    (hmore : more ≠ []) (h : tree.find wd path = .ok (place, node)) :
    ∃ directory left, tree.find wd root = .ok (directory, .directory) ∧
      tree.walk true left directory more = .ok (.present place node) := by
  rw [find_eq_ok_iff] at h
  have hresolve := h.1
  have habsolute := Path.isAbsolute_of_prefix hroot hbegins
  rcases hbegins with ⟨rest, hrest⟩
  unfold resolve at hresolve
  split at hresolve
  · cases hresolve
  · rename_i hfault
    have hsound : textFault? root = none := by
      rw [textFault?_eq_none_iff, ← hrest, List.mem_append, not_or, List.length_append] at hfault
      exact textFault?_eq_none_iff.2 ⟨hfault.1.1, hroot, by omega⟩
    rw [habsolute, show (Path.split path.bytes).filter (· ≠ []) = _ from hsegments] at hresolve
    rcases walk_append hmore hresolve with ⟨directory, left, hdirectory, hinner⟩
    have hfind : tree.find wd root = .ok (directory, .directory) := by
      rw [find_eq_ok_iff]
      refine ⟨?_, fun _ => rfl⟩
      unfold resolve
      rw [hsound]
      exact hdirectory
    exact ⟨directory, left, hfind, hinner⟩

/-- What is found under a name in a directory is listed there. -/
theorem exists_listed {directory : Path} {name : Bytes} (hdirectory : directory.bytes ≠ [])
    (hname : Path.IsName name) (h : tree.find wd (directory.join ⟨name⟩) = .ok (place, node)) :
    ∃ entries, tree.list wd directory = .ok entries ∧ name ∈ entries.map Prod.fst := by
  rcases find_of_segments_append hdirectory (Path.prefix_join directory hname.2.1)
    (Path.segments_join hname.1 hname.2.1) (by simp) h with ⟨found, left, hfound, hlast⟩
  rcases node?_of_walk_name hname hlast with ⟨entry, hentry⟩
  have hlisted : tree.list wd directory = .ok (tree.children found) := by
    rw [list, hfound]
  exact ⟨_, hlisted, List.mem_map.2 ⟨_, mem_children hentry, rfl⟩⟩

theorem endsWithSlash_join_name {directory : Path} {name : Bytes} (hname : Path.IsName name) :
    (directory.join ⟨name⟩).endsWithSlash = false := by
  rw [Path.join_of_relative (Path.isAbsolute_of_not_mem hname.2.1), ← List.append_assoc,
    Path.endsWithSlash_append hname.1]
  have hlast : ∀ b, name.getLast? = some b → b ≠ Path.slash := fun b hb hslash =>
    hname.2.1 (hslash ▸ List.mem_of_getLast? hb)
  simpa [Path.endsWithSlash] using fun h => hlast _ h rfl

/-- A file in a directory is found under its name there, if the path to it can be looked up. -/
theorem find_join {directory : Path} {name content : Bytes} (hname : Path.IsName name)
    (hzero : 0 ∉ name) (hlength : name.length ≤ maxNameLength)
    (hshort : (directory.join ⟨name⟩).bytes.length < pathLimit)
    (hdirectory : tree.find wd directory = .ok (place, .directory))
    (hfile : tree.node? (place ++ [name]) = some (.file content)) :
    tree.find wd (directory.join ⟨name⟩) = .ok (place ++ [name], .file content) := by
  have hresolve := (find_eq_ok_iff.1 hdirectory).1
  rw [find_eq_ok_iff, endsWithSlash_join_name hname]
  refine ⟨?_, fun h => by cases h⟩
  unfold resolve at hresolve ⊢
  split at hresolve
  · cases hresolve
  · rename_i hsound
    rw [textFault?_eq_none_iff] at hsound
    have hjoined : textFault? (directory.join ⟨name⟩) = none := by
      rw [textFault?_eq_none_iff]
      refine ⟨?_, ?_, hshort⟩
      · rw [Path.bytes_join hname.2.1]
        split
        · simp [hsound.1, hzero]
        · simp [hsound.1, hzero, Path.slash]
      · rw [Path.bytes_join hname.2.1]
        split <;> simp [hname.1]
    rw [hjoined, Path.isAbsolute_join _ hname.2.1,
      show (Path.split (directory.join ⟨name⟩).bytes).filter (· ≠ []) = _ from
        Path.segments_join hname.1 hname.2.1]
    exact walk_concat hresolve hname hlength hfile

end Path

end FileTree

theorem World.isDirectory_of_makeDirectories {world after : World} {path : Path}
    (hpath : path.bytes ≠ []) (h : world.makeDirectories path = (.ok (), after)) :
    after.isDirectory path = true := by
  unfold makeDirectories withFiles at h
  rw [Prod.mk.injEq] at h
  rcases h with ⟨hresult, rfl⟩
  exact FileTree.isDirectory_of_makeDirectoriesWithin hpath (Prod.ext hresult rfl)

end NativeLaunch
