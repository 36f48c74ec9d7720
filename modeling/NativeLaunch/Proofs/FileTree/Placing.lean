import NativeLaunch.FileTree.Operations

/-!
# Files that come and go

To put a file where nothing stands, and to take it away again, changes what the paths that lead there
name and nothing else: no walk leads through a file, so that every other path goes its way as before.
This file defines:

* `Frees` and `Names` — a path leads to a free name, or to a file and through no link at its end.

Putting a file there leads from the one to the other (`Frees.names_insert`), and taking it away leads
back (`Names.frees_erase`).
-/

namespace NativeLaunch

/-! ## Entries by key -/

section Lookup

variable {α β : Type} [BEq α] [LawfulBEq α]

theorem lookup_cons_ne {entries : List (α × β)} {key other : α} {value : β} (hother : other ≠ key) :
    ((key, value) :: entries).lookup other = entries.lookup other := by
  rw [List.lookup_cons, beq_false_of_ne hother]

theorem lookup_filter_ne [DecidableEq α] (entries : List (α × β)) (key other : α) :
    (entries.filter (·.1 ≠ key)).lookup other =
      if other = key then none else entries.lookup other := by
  induction entries with
  | nil =>
      simp
  | cons entry entries ih =>
      rcases entry with ⟨name, value⟩
      by_cases hkey : name = key
      · rw [List.filter_cons_of_neg (by simpa using hkey), ih]
        by_cases hother : other = key
        · rw [if_pos hother, if_pos hother]
        · rw [if_neg hother, if_neg hother, lookup_cons_ne (hkey ▸ hother)]
      · rw [List.filter_cons_of_pos (by simpa using hkey)]
        by_cases hother : other = name
        · rw [hother, List.lookup_cons_self, List.lookup_cons_self, if_neg hkey]
        · rw [lookup_cons_ne hother, lookup_cons_ne hother, ih]

end Lookup

namespace FileTree

variable {tree : FileTree} {place : Location}

/-! ## Nodes -/

theorem ne_nil_of_node? (hfree : tree.node? place = none) : place ≠ [] := by
  rintro rfl
  simp [node?] at hfree

theorem node?_erase (hplace : place ≠ []) (other : Location) :
    (tree.erase place).node? other = if other = place then none else tree.node? other := by
  unfold node? erase
  rw [lookup_filter_ne]
  by_cases hroot : other = []
  · simp [hroot, hplace.symm]
  · simp [hroot]

theorem node?_insert (hplace : place ≠ []) (node : FileNode) (other : Location) :
    (tree.insert place node).node? other = if other = place then some node else tree.node? other := by
  by_cases hother : other = place
  · simp [hother, node?, insert, hplace]
  · have herase : (tree.erase place).node? other = _ := node?_erase hplace other
    rw [if_neg hother] at herase ⊢
    rw [← herase]
    unfold node? insert
    rw [lookup_cons_ne hother]

/-- A file stands under a name in a directory. -/
theorem exists_name_of_file {content : Bytes} (hfile : tree.node? place = some (.file content)) :
    ∃ directory name, place = directory ++ [name] := by
  have hplace : place ≠ [] := by
    rintro rfl
    simp [node?] at hfile
  exact ⟨_, _, (List.dropLast_concat_getLast hplace).symm⟩

/-- To take away what is not there changes nothing. -/
theorem erase_of_node? (hfree : tree.node? place = none) : tree.erase place = tree := by
  have hlookup : tree.nodes.lookup place = none := by
    simpa [node?, ne_nil_of_node? hfree] using hfree
  have hfilter : tree.nodes.filter (·.1 ≠ place) = tree.nodes := by
    rw [List.filter_eq_self]
    intro entry hmem
    have hne := List.lookup_eq_none_iff.1 hlookup entry hmem
    rw [decide_eq_true_eq]
    rintro rfl
    simp at hne
  unfold erase
  rw [hfilter]

theorem erase_insert (node : FileNode) : (tree.insert place node).erase place = tree.erase place := by
  simp [insert, erase]

theorem insert_insert (first second : FileNode) :
    (tree.insert place first).insert place second = tree.insert place second := by
  simp [insert, erase]

/-! ## Walks -/

/-- What a walk finds that has come to a name in a directory, and ends there. -/
def look (tree : FileTree) (directory : Location) (name : Bytes) : Found :=
  match tree.node? (directory ++ [name]) with
  | some node => .present (directory ++ [name]) node
  | none => .vacant directory name

/-- At a place there is a file or nothing, so that no walk leads on from it. -/
def EndsAt (tree : FileTree) (place : Location) : Prop :=
  ∀ node, tree.node? place = some node → node.isFile = true

theorem endsAt_of_free (hfree : tree.node? place = none) : tree.EndsAt place := by
  intro node hnode
  rw [hfree] at hnode
  cases hnode

theorem endsAt_of_file {content : Bytes} (hfile : tree.node? place = some (.file content)) :
    tree.EndsAt place := by
  intro node hnode
  rw [hfile] at hnode
  cases hnode
  rfl

theorem EndsAt.ne {location : Location} {node : FileNode} (hends : tree.EndsAt place)
    (hnode : tree.node? location = some node) (hleads : node.isFile = false) : location ≠ place := by
  rintro rfl
  rw [hends node hnode] at hleads
  cases hleads

section Walk

variable {follow : Bool} {budget : Nat} {here directory : Location} {name : Bytes}
  {segments : List Bytes} {found : Found}

/-- A name that a walk finds vacant is free. -/
theorem node?_of_walk (h : tree.walk follow budget here segments = .ok (.vacant directory name)) :
    tree.node? (directory ++ [name]) = none := by
  fun_induction walk tree follow budget here segments <;> simp_all

/-- What a walk ends with stands in the tree; directories are left out, as a walk may start at one that
is not there. -/
theorem node?_of_walk_present {place : Location} {node : FileNode}
    (h : tree.walk follow budget here segments = .ok (.present place node))
    (hfile : node ≠ .directory) : tree.node? place = some node := by
  fun_induction walk tree follow budget here segments <;> simp_all

/-- At a vacant name there is no link to follow or not. -/
theorem walk_follow (h : tree.walk false budget here segments = .ok (.vacant directory name)) :
    tree.walk true budget here segments = .ok (.vacant directory name) := by
  fun_induction walk tree false budget here segments <;> simp_all [walk]

/-- What stands elsewhere is told from what stands at the name. -/
theorem present_ne_look {location : Location} {node : FileNode} (hne : location ≠ directory ++ [name]) :
    Found.present location node ≠ tree.look directory name := by
  unfold look
  split
  · simp [hne]
  · simp

theorem vacant_ne_look {segment : Bytes} (hne : here ++ [segment] ≠ directory ++ [name]) :
    Found.vacant here segment ≠ tree.look directory name := by
  unfold look
  split
  · simp
  · rw [Ne, Found.vacant.injEq]
    rintro ⟨rfl, rfl⟩
    exact hne rfl

theorem directory_ne_look {location : Location} (hends : tree.EndsAt (directory ++ [name])) :
    Found.present location .directory ≠ tree.look directory name := by
  unfold look
  cases hnode : tree.node? (directory ++ [name]) with
  | none =>
      simp
  | some node =>
      have hfile := hends node hnode
      rw [Ne, Found.present.injEq]
      rintro ⟨_, rfl⟩
      cases hfile

/-- A walk that has come to such a name, and has none left, ends with what is there. -/
theorem walk_last (hdot : name ≠ [Path.dot]) (hup : name ≠ [Path.dot, Path.dot])
    (hlong : ¬ maxNameLength < name.length) (hends : tree.EndsAt (directory ++ [name])) :
    tree.walk follow budget directory [name] = .ok (tree.look directory name) := by
  rw [walk, if_neg hdot, if_neg hup, if_neg hlong, look]
  cases hnode : tree.node? (directory ++ [name]) with
  | none =>
      rfl
  | some node =>
      have hfile := hends node hnode
      cases node with
      | file content =>
          rfl
      | _ =>
          cases hfile

/-- In two trees that differ in a file at one name, walks go the same way, and tell the difference
only if they end there. -/
theorem walk_of_endsAt {other : FileTree} (hends : tree.EndsAt (directory ++ [name]))
    (hother : other.EndsAt (directory ++ [name]))
    (hsame : ∀ place, place ≠ directory ++ [name] → other.node? place = tree.node? place)
    (h : tree.walk follow budget here segments = .ok found) :
    other.walk follow budget here segments =
      .ok (if found = tree.look directory name then other.look directory name else found) := by
  -- Along the walk in the first tree.  The second is at the same place with the same segments left,
  -- as what leads a walk on is a directory or a link, and stands elsewhere than the name.
  fun_induction walk tree follow budget here segments with
  | case1 budget here =>
      cases h
      rw [walk, if_neg (directory_ne_look hends)]
  | case2 budget here rest ih =>
      rw [walk, if_pos rfl]
      exact ih h
  | case3 budget here rest hdot ih =>
      rw [walk, if_neg hdot, if_pos rfl]
      exact ih h
  | case5 budget here segment rest hdot hup hlong hnode hlast =>
      cases h
      by_cases hhere : here ++ [segment] = directory ++ [name]
      -- Both walks end at the name, and each finds what its own tree has there.
      · rcases List.append_inj' hhere rfl with ⟨rfl, hsegment⟩
        cases hsegment
        rw [List.isEmpty_iff.1 hlast, walk_last hdot hup hlong hother, if_pos]
        simp [look, hnode]
      · rw [walk, if_neg hdot, if_neg hup, if_neg hlong, hsame _ hhere, hnode,
          if_neg (vacant_ne_look hhere)]
        simp [hlast]
  | case7 budget here segment rest hdot hup hlong hnode ih =>
      have hhere := hends.ne hnode rfl
      rw [walk, if_neg hdot, if_neg hup, if_neg hlong, hsame _ hhere, hnode]
      exact ih h
  | case8 budget here segment rest hdot hup hlong target hnode hlast =>
      cases h
      have hhere := hends.ne hnode rfl
      rw [walk, if_neg hdot, if_neg hup, if_neg hlong, hsame _ hhere, hnode,
        if_neg (present_ne_look hhere)]
      simp [hlast]
  | case11 here segment rest hdot hup hlong target hnode hlast budget htarget ih =>
      have hhere := hends.ne hnode rfl
      rw [walk, if_neg hdot, if_neg hup, if_neg hlong, hsame _ hhere, hnode]
      simp only [hlast, htarget, if_false]
      exact ih h
  | case12 budget here segment rest hdot hup hlong node hdirectory hlink hnode hlast =>
      cases h
      by_cases hhere : here ++ [segment] = directory ++ [name]
      · rcases List.append_inj' hhere rfl with ⟨rfl, hsegment⟩
        cases hsegment
        rw [List.isEmpty_iff.1 hlast, walk_last hdot hup hlong hother, if_pos]
        simp [look, hnode]
      · rw [walk, if_neg hdot, if_neg hup, if_neg hlong, hsame _ hhere, hnode,
          if_neg (present_ne_look hhere)]
        cases node <;> simp_all
  | _ =>
      cases h

end Walk

/-! ## Paths -/

section Path

variable {wd directory : Location} {name : Bytes} {path : Path} {found : Found}

theorem node?_of_resolve {follow : Bool}
    (h : tree.resolve wd follow path = .ok (.vacant directory name)) :
    tree.node? (directory ++ [name]) = none := by
  unfold resolve at h
  split at h
  · cases h
  · exact node?_of_walk h

theorem node?_of_resolve_present {follow : Bool} {place : Location} {node : FileNode}
    (h : tree.resolve wd follow path = .ok (.present place node)) (hfile : node ≠ .directory) :
    tree.node? place = some node := by
  unfold resolve at h
  split at h
  · cases h
  · exact node?_of_walk_present h hfile

theorem resolve_follow (h : tree.resolve wd false path = .ok (.vacant directory name)) :
    tree.resolve wd true path = .ok (.vacant directory name) := by
  unfold resolve at h ⊢
  split at h
  · cases h
  · exact walk_follow h

theorem resolve_of_endsAt {other : FileTree} {follow : Bool}
    (hends : tree.EndsAt (directory ++ [name])) (hother : other.EndsAt (directory ++ [name]))
    (hsame : ∀ place, place ≠ directory ++ [name] → other.node? place = tree.node? place)
    (h : tree.resolve wd follow path = .ok found) :
    other.resolve wd follow path =
      .ok (if found = tree.look directory name then other.look directory name else found) := by
  unfold resolve at h ⊢
  split at h
  · cases h
  · exact walk_of_endsAt hends hother hsame h

/-- A path that ends at a name finds the file that is put there. -/
theorem resolve_insert {follow : Bool} (hends : tree.EndsAt (directory ++ [name]))
    (h : tree.resolve wd follow path = .ok (tree.look directory name)) (content : Bytes) :
    (tree.insert (directory ++ [name]) (.file content)).resolve wd follow path =
      .ok (.present (directory ++ [name]) (.file content)) := by
  have hnode : ∀ elsewhere,
      (tree.insert (directory ++ [name]) (.file content)).node? elsewhere = _ :=
    node?_insert (List.append_ne_nil_of_right_ne_nil _ (List.cons_ne_nil _ _)) (.file content)
  have hfile : (tree.insert (directory ++ [name]) (.file content)).node? (directory ++ [name]) =
      some (.file content) := by
    rw [hnode, if_pos rfl]
  have hsame : ∀ elsewhere, elsewhere ≠ directory ++ [name] →
      (tree.insert (directory ++ [name]) (.file content)).node? elsewhere =
        tree.node? elsewhere := by
    intro elsewhere helsewhere
    rw [hnode, if_neg helsewhere]
  rw [resolve_of_endsAt hends (endsAt_of_file hfile) hsame h, if_pos rfl]
  simp [look, hfile]

/-- When a file is taken away, the paths that led to it find its name vacant, and no others are
affected. -/
theorem resolve_erase {follow : Bool} {content : Bytes}
    (hfile : tree.node? (directory ++ [name]) = some (.file content))
    (h : tree.resolve wd follow path = .ok found) :
    (tree.erase (directory ++ [name])).resolve wd follow path =
      .ok (if found = .present (directory ++ [name]) (.file content) then .vacant directory name
        else found) := by
  have hnode : ∀ elsewhere, (tree.erase (directory ++ [name])).node? elsewhere = _ :=
    node?_erase (List.append_ne_nil_of_right_ne_nil _ (List.cons_ne_nil _ _))
  have hfree : (tree.erase (directory ++ [name])).node? (directory ++ [name]) = none := by
    rw [hnode, if_pos rfl]
  have hsame : ∀ elsewhere, elsewhere ≠ directory ++ [name] →
      (tree.erase (directory ++ [name])).node? elsewhere = tree.node? elsewhere := by
    intro elsewhere helsewhere
    rw [hnode, if_neg helsewhere]
  have hlook : tree.look directory name = .present (directory ++ [name]) (.file content) := by
    simp [look, hfile]
  have hvacant : (tree.erase (directory ++ [name])).look directory name = .vacant directory name := by
    simp [look, hfree]
  rw [resolve_of_endsAt (endsAt_of_file hfile) (endsAt_of_free hfree) hsame h, hlook, hvacant]

end Path

/-! ## Faults -/

theorem walk_ne_interrupted (tree : FileTree) (follow : Bool) (budget : Nat) (here : Location)
    (segments : List Bytes) : tree.walk follow budget here segments ≠ .error .interrupted := by
  fun_induction FileTree.walk tree follow budget here segments <;> simp_all

theorem resolve_ne_interrupted (tree : FileTree) (wd : Location) (follow : Bool) (path : Path) :
    tree.resolve wd follow path ≠ .error .interrupted := by
  intro h
  unfold resolve at h
  split at h
  · rename_i kind hfault
    cases h
    unfold textFault? at hfault
    grind
  · exact walk_ne_interrupted _ _ _ _ _ h

/-! ## A path and its file -/

/-- A path leads to a free name, at which a file can be made. -/
structure Frees (tree : FileTree) (wd : Location) (path : Path) (place : Location) : Prop where
  bare : path.endsWithSlash = false
  vacant : ∃ directory name, place = directory ++ [name] ∧
    tree.resolve wd false path = .ok (.vacant directory name)

/-- A path names a file, and no link on the way to it. -/
structure Names (tree : FileTree) (wd : Location) (path : Path) (place : Location)
    (content : Bytes) : Prop where
  bare : path.endsWithSlash = false
  named : ∀ follow, tree.resolve wd follow path = .ok (.present place (.file content))

section Files

variable {wd : Location} {path : Path} {content : Bytes}

namespace Frees

theorem node?_eq_none (h : tree.Frees wd path place) : tree.node? place = none := by
  rcases h.vacant with ⟨directory, name, rfl, hresolve⟩
  exact node?_of_resolve hresolve

/-- Where a path found a free name, it finds the file that is put there. -/
theorem names_insert (h : tree.Frees wd path place) (content : Bytes) :
    (tree.insert place (.file content)).Names wd path place content := by
  have hfree := h.node?_eq_none
  rcases h.vacant with ⟨directory, name, rfl, hresolve⟩
  have hlook : tree.look directory name = .vacant directory name := by simp [look, hfree]
  refine ⟨h.bare, fun follow => resolve_insert (endsAt_of_free hfree) ?_ content⟩
  rw [hlook]
  -- The way to a free name crosses no link at its end, so it is the same whether links are followed.
  cases follow with
  | false =>
      exact hresolve
  | true =>
      exact resolve_follow hresolve

theorem find_error (h : tree.Frees wd path place) : tree.find wd path = .error .notFound := by
  rcases h.vacant with ⟨directory, name, _, hresolve⟩
  simp [find, resolve_follow hresolve]

end Frees

namespace Names

theorem node?_eq_some (h : tree.Names wd path place content) :
    tree.node? place = some (.file content) :=
  node?_of_resolve_present (h.named false) nofun

theorem find_eq (h : tree.Names wd path place content) :
    tree.find wd path = .ok (place, .file content) := by
  simp [find, h.named, h.bare]

theorem unlink_eq (h : tree.Names wd path place content) :
    tree.unlink wd path = (.ok (), tree.erase place) := by
  simp [unlink, h.named, h.bare, FileNode.isDirectory]

/-- Where a path found a file, it finds a free name when that is taken away. -/
theorem frees_erase (h : tree.Names wd path place content) :
    (tree.erase place).Frees wd path place := by
  have hnode := h.node?_eq_some
  rcases exists_name_of_file hnode with ⟨directory, name, rfl⟩
  refine ⟨h.bare, directory, name, rfl, ?_⟩
  rw [resolve_erase hnode (h.named false), if_pos rfl]

end Names

/-! ## Making a file and taking it back -/

theorem createNew_ok {made : FileTree} (h : tree.createNew wd path = (.ok place, made)) :
    tree.Frees wd path place ∧ made = tree.insert place (.file []) := by
  unfold createNew at h
  split at h
  · cases h
  · rename_i found hresolve
    split at h
    · cases h
    · rename_i hbare
      split at h
      · rename_i directory name
        cases h
        exact ⟨⟨by simpa using hbare, directory, name, rfl, hresolve⟩, rfl⟩
      · cases h

theorem unlink_error {kind : FaultKind} {after : FileTree}
    (h : tree.unlink wd path = (.error kind, after)) : after = tree := by
  unfold unlink at h
  split at h
  · cases h
    rfl
  · cases h
    rfl
  · split at h
    · cases h
      rfl
    · split at h
      · cases h
        rfl
      · cases h

theorem createNew_ne_interrupted {made : FileTree} {kind : FaultKind}
    (h : tree.createNew wd path = (.error kind, made)) : kind ≠ .interrupted := by
  rintro rfl
  unfold createNew at h
  split at h
  · rename_i kind hresolve
    cases h
    exact resolve_ne_interrupted _ _ _ _ hresolve
  · split at h
    · cases h
    · split at h <;> cases h

/-! ## Writing and reading back -/

end Files
end FileTree
end NativeLaunch
