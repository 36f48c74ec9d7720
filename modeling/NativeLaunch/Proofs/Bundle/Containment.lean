import NativeLaunch.Bundle
import NativeLaunch.Proofs.FileTree.Spelling
import NativeLaunch.Proofs.Path.Texts

/-!
# What a directory bundle can reach

A resource path is text from anywhere.  It is taken apart at its slashes, and `..` is left out, before
the first segment is joined to the bundle's root, so that no segment is absolute and none turns back.
This file defines:

* `Bundle.remaining` — the segments of a resource path, as text, that a bundle heeds;
* `Bundle.StandsAt` — where the root of a bundle is in a tree;
* `Bundle.Confined` — what a bundle opens for a resource path, and where that can be.

A link below the root can lead anywhere; where there is none, what is opened stands below the root at
the very names that the resource path has (`confined`).
-/

namespace NativeLaunch
namespace Bundle

/-! ## The segments that remain -/

/-- The segments of a resource path that are neither empty nor `..`, in their order. -/
def remaining (resource : String) : List (List Char) :=
  (resource.toList.splitOn '/').filter fun segment => segment ≠ [] && segment ≠ ['.', '.']

/-- The names below the root to which they lead; `.` leads nowhere. -/
def placeOf (resource : String) : Location :=
  ((remaining resource).filter (· ≠ ['.'])).map Utf8.encodeChars

/-- The bytes that are joined to the root are those of the segments that remain. -/
theorem innerSegments_eq (resource : String) :
    innerSegments resource = (remaining resource).map Utf8.encodeChars := by
  have hempty : ∀ segment, Utf8.encodeChars segment = [] ↔ segment = [] := fun segment =>
    @Utf8.encodeChars_inj segment []
  have hup : ∀ segment, Utf8.encodeChars segment = [Path.dot, Path.dot] ↔ segment = ['.', '.'] :=
    fun segment => @Utf8.encodeChars_inj segment ['.', '.']
  unfold innerSegments remaining Utf8.encode
  rw [Path.split_encodeChars, List.filter_map]
  congr
  funext segment
  simp [hempty, hup]

theorem placeOf_eq (resource : String) :
    placeOf resource = (innerSegments resource).filter (· ≠ [Path.dot]) := by
  have hdot : ∀ segment, Utf8.encodeChars segment = [Path.dot] ↔ segment = ['.'] := fun segment =>
    @Utf8.encodeChars_inj segment ['.']
  rw [innerSegments_eq, List.filter_map, placeOf]
  congr
  funext segment
  simp [hdot]

theorem of_mem_innerSegments {resource : String} {segment : Bytes}
    (hsegment : segment ∈ innerSegments resource) :
    (segment ≠ [] ∧ Path.slash ∉ segment) ∧ segment ≠ [Path.dot, Path.dot] := by
  rw [innerSegments, List.mem_filter] at hsegment
  have hkept : segment ≠ [] ∧ segment ≠ [Path.dot, Path.dot] := by simpa using hsegment.2
  exact ⟨⟨hkept.1, Path.not_mem_of_mem_split hsegment.1⟩, hkept.2⟩

/-! ## Where they lead -/

section Locate

variable {root : Path} {resource : String}

theorem segments_locate : (locate root resource).segments = root.segments ++ innerSegments resource :=
  Path.segments_foldl_join fun _ hsegment => (of_mem_innerSegments hsegment).1

theorem up_not_mem : [Path.dot, Path.dot] ∉ innerSegments resource := fun hup =>
  (of_mem_innerSegments hup).2 rfl

theorem isAbsolute_locate : (locate root resource).isAbsolute = root.isAbsolute :=
  Path.isAbsolute_foldl_name fun _ hsegment => (of_mem_innerSegments hsegment).1

/-- The components of the root come first, and no others that start anew or turn back. -/
theorem components_locate (root : Path) (resource : String) :
    ∃ inner, (locate root resource).components = root.components ++ inner ∧
      .up ∉ inner ∧ .root ∉ inner := by
  by_cases hroot : root.bytes = []
  · have hnone : root.components = [] := by
      obtain ⟨bytes⟩ := root
      cases hroot
      rfl
    have hsegments : root.segments = [] := by
      rw [Path.segments, hroot]
      rfl
    have hrelative : root.isAbsolute = false := by simp [Path.isAbsolute, hroot]
    refine ⟨_, by rw [hnone, List.nil_append], ?_, ?_⟩
    · rw [Path.up_mem_components_iff, segments_locate, hsegments]
      exact up_not_mem
    · rw [Path.root_mem_components_iff, isAbsolute_locate, hrelative]
      exact Bool.false_ne_true
  · refine ⟨_, Path.components_foldl_join hroot
      fun _ hsegment => (of_mem_innerSegments hsegment).1, ?_, ?_⟩
    · rw [List.mem_filterMap]
      rintro ⟨segment, hsegment, hup⟩
      exact (of_mem_innerSegments hsegment).2 (Path.ofSegment?_eq_up_iff.1 hup)
    · rw [List.mem_filterMap]
      rintro ⟨segment, _, hstart⟩
      exact Path.ofSegment?_ne_root segment hstart

end Locate

/-! ## What is opened -/

/-- Where a bundle's root stands.  The empty path is joined to nothing, and so is the working directory. -/
def StandsAt (files : FileTree) (wd : Location) (root : Path) (top : Location) : Prop :=
  root.bytes = [] ∧ top = wd ∨ ∃ node, files.find wd root = .ok (top, node)

section Open

variable {files : FileTree} {wd place : Location} {root : Path} {resource : String} {content : Bytes}

theorem openResource_eq_some_iff {stream : Stream} :
    (directory root).openResource files wd resource = .ok (some stream) ↔
      ∃ place content, files.find wd (locate root resource) = .ok (place, .file content) ∧
        stream = [.chunk content] := by
  unfold directory FileTree.isFile FileTree.read
  simp only
  cases hfind : files.find wd (locate root resource) with
  | error kind =>
      simp
  | ok found =>
      obtain ⟨place, node⟩ := found
      cases node with
      | file content =>
          simp [FileNode.isFile, eq_comm]
      | _ =>
          simp [FileNode.isFile]

/-- A file that is found stands at the end of the root's walk and the remaining names. -/
theorem exists_standsAt (h : files.find wd (locate root resource) = .ok (place, .file content)) :
    ∃ top, StandsAt files wd root top ∧
      (files.Unlinked top → place = top ++ placeOf resource) := by
  have hsegments : (locate root resource).segments = root.segments ++ innerSegments resource :=
    segments_locate
  rw [placeOf_eq]
  by_cases hnone : innerSegments resource = []
  · have hlocate : locate root resource = root := by rw [locate, hnone, List.foldl_nil]
    rw [hlocate] at h
    exact ⟨place, .inr ⟨_, h⟩, fun _ => by simp [hnone]⟩
  by_cases hroot : root.bytes = []
  · refine ⟨wd, .inl ⟨hroot, rfl⟩, fun hplain => ?_⟩
    have hresolve := (FileTree.find_eq_ok_iff.1 h).1
    have hempty : root.segments = [] := by
      rw [Path.segments, hroot]
      rfl
    have hrelative : root.isAbsolute = false := by simp [Path.isAbsolute, hroot]
    unfold FileTree.resolve at hresolve
    split at hresolve
    · cases hresolve
    · rw [isAbsolute_locate, hrelative,
        show (Path.split (locate root resource).bytes).filter (· ≠ []) = _ from hsegments, hempty,
        List.nil_append] at hresolve
      exact hplain.place_eq up_not_mem hresolve
  · rcases FileTree.find_of_segments_append hroot
      (Path.prefix_foldl_join fun _ hsegment => (of_mem_innerSegments hsegment).1) hsegments hnone h
      with ⟨top, left, htop, hinner⟩
    exact ⟨top, .inr ⟨_, htop⟩, fun hplain => hplain.place_eq up_not_mem hinner⟩

end Open

/-- What a bundle opens for a resource path, and where that can be. -/
structure Confined (root : Path) (resource : String) : Prop where
  /-- The path is the root, and after it the remaining segments with a slash between each two. -/
  located : (locate root resource).bytes =
    if remaining resource = [] then root.bytes
    else root.bytes ++ (root.gap ++ Path.unsplit ((remaining resource).map Utf8.encodeChars))
  /-- It starts as the root does, and from there it neither turns back nor starts anew. -/
  inside : ∃ inner, (locate root resource).components = root.components ++ inner ∧
    .up ∉ inner ∧ .root ∉ inner
  /-- What is opened is the content of the file to which that path leads. -/
  opens : ∀ files wd stream, (directory root).openResource files wd resource = .ok (some stream) ↔
    ∃ place content, files.find wd (locate root resource) = .ok (place, .file content) ∧
      stream = [.chunk content]
  /-- Without links below the root, that file stands below the root at the remaining names. -/
  contained : ∀ files wd stream, (directory root).openResource files wd resource = .ok (some stream) →
    ∃ top content, StandsAt files wd root top ∧ stream = [.chunk content] ∧
      (files.Unlinked top → files.node? (top ++ placeOf resource) = some (.file content))
  /-- Nothing but the remaining segments counts. -/
  alike : ∀ other, remaining other = remaining resource → ∀ files wd,
    (directory root).openResource files wd other = (directory root).openResource files wd resource

/-- No resource path leaves a bundle's directory. -/
theorem confined (root : Path) (resource : String) : Confined root resource where
  located := by
    by_cases hnone : remaining resource = []
    · rw [if_pos hnone, locate, innerSegments_eq, hnone]
      rfl
    · rw [if_neg hnone, ← innerSegments_eq]
      refine Path.bytes_foldl_join (fun _ hsegment => (of_mem_innerSegments hsegment).1) ?_
      rw [innerSegments_eq]
      simpa using hnone
  inside := components_locate root resource
  opens := fun _ _ _ => openResource_eq_some_iff
  contained := by
    intro files wd stream hopen
    rcases openResource_eq_some_iff.1 hopen with ⟨place, content, hfind, hstream⟩
    rcases exists_standsAt hfind with ⟨top, htop, hplace⟩
    refine ⟨top, content, htop, hstream, fun hplain => ?_⟩
    rw [← hplace hplain]
    exact FileTree.node?_of_resolve_present (FileTree.find_eq_ok_iff.1 hfind).1 (by simp)
  alike := by
    intro other hother files wd
    have hlocate : locate root other = locate root resource := by
      rw [locate, locate, innerSegments_eq, innerSegments_eq, hother]
    unfold directory
    simp only [hlocate]

end Bundle
end NativeLaunch
