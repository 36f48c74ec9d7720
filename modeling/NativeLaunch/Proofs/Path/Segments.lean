import NativeLaunch.Path

/-!
# Segments of joined paths

To join a name to a path adds one segment at the end, whatever the path looks like.  This file
defines:

* `Path.segments` — what stands between the slashes, empty parts left out;
* `Path.IsName` — a segment that stands for a name, neither empty nor made of dots.
-/

namespace NativeLaunch
namespace Path

/-! ## Splitting -/

theorem split_ne_nil (text : Bytes) : split text ≠ [] := by
  cases text with
  | nil =>
      simp [split]
  | cons b text =>
      rw [split]
      grind

theorem split_cons_of_ne {b : UInt8} (hb : b ≠ slash) (text : Bytes) :
    ∃ segment segments, split text = segment :: segments ∧
      split (b :: text) = (b :: segment) :: segments := by
  cases htext : split text with
  | nil =>
      exact absurd htext (split_ne_nil text)
  | cons segment segments =>
      exact ⟨segment, segments, rfl, by simp [split, hb, htext]⟩

theorem split_append_slash (before after : Bytes) :
    split (before ++ slash :: after) = split before ++ split after := by
  induction before with
  | nil =>
      simp [split]
  | cons b before ih =>
      by_cases hb : b = slash
      · simp [split, hb, ih]
      · rcases split_cons_of_ne hb before with ⟨segment, segments, hbefore, hsplit⟩
        rw [hbefore] at ih
        simp [List.cons_append, split, hb, ih, hbefore]

theorem split_of_not_mem {segment : Bytes} (hslash : slash ∉ segment) : split segment = [segment] := by
  induction segment with
  | nil =>
      rfl
  | cons b segment ih =>
      rw [List.mem_cons, not_or] at hslash
      simp [split, Ne.symm hslash.1, ih hslash.2]

/-- There is no slash in what stands between slashes. -/
theorem not_mem_of_mem_split {text segment : Bytes} (hsegment : segment ∈ split text) :
    slash ∉ segment := by
  induction text generalizing segment with
  | nil =>
      rw [split, List.mem_singleton] at hsegment
      simp [hsegment]
  | cons b text ih =>
      by_cases hb : b = slash
      · rw [split, if_pos hb, List.mem_cons] at hsegment
        rcases hsegment with rfl | hsegment
        · exact List.not_mem_nil
        · exact ih hsegment
      · rcases split_cons_of_ne hb text with ⟨first, others, htext, hsplit⟩
        rw [hsplit, List.mem_cons] at hsegment
        rw [htext] at ih
        rcases hsegment with rfl | hsegment
        · rw [List.mem_cons, not_or]
          exact ⟨Ne.symm hb, ih List.mem_cons_self⟩
        · exact ih (List.mem_cons_of_mem _ hsegment)

theorem eq_of_split {text segment : Bytes} (h : split text = [segment]) : text = segment := by
  induction text generalizing segment with
  | nil =>
      simpa [split] using h
  | cons b text ih =>
      by_cases hb : b = slash
      · simp [split, hb, split_ne_nil] at h
      · rcases split_cons_of_ne hb text with ⟨first, others, htext, hsplit⟩
        rw [hsplit, List.cons.injEq] at h
        rcases h with ⟨rfl, rfl⟩
        rw [ih htext]

/-! ## Joining -/

/-- The parts of a path that are more than nothing. -/
def segments (path : Path) : List Bytes := (split path.bytes).filter (· ≠ [])

/-- A name under which something can stand in a directory. -/
def IsName (name : Bytes) : Prop :=
  name ≠ [] ∧ slash ∉ name ∧ name ≠ [dot] ∧ name ≠ [dot, dot]

instance (name : Bytes) : Decidable (IsName name) :=
  inferInstanceAs (Decidable (name ≠ [] ∧ slash ∉ name ∧ name ≠ [dot] ∧ name ≠ [dot, dot]))

section Join

variable {path : Path} {name : Bytes}

theorem isAbsolute_of_not_mem (hslash : slash ∉ name) : (⟨name⟩ : Path).isAbsolute = false := by
  cases name with
  | nil =>
      rfl
  | cons b name =>
      rw [List.mem_cons, not_or] at hslash
      simp [isAbsolute, Ne.symm hslash.1]

/-- The bytes of a joined path are those of its parts, with a slash between them if there is none. -/
theorem bytes_join (hslash : slash ∉ name) :
    (path.join ⟨name⟩).bytes =
      if path.bytes = [] || path.endsWithSlash then path.bytes ++ name
      else path.bytes ++ slash :: name := by
  rw [join, isAbsolute_of_not_mem hslash]
  simp only [Bool.false_eq_true, if_false]
  split <;> rfl

theorem prefix_join (path : Path) (hslash : slash ∉ name) : path.bytes <+: (path.join ⟨name⟩).bytes := by
  rw [bytes_join hslash]
  split
  · exact List.prefix_append _ _
  · exact List.prefix_append _ _

/-- An absolute path has an empty part before its first slash. -/
theorem isAbsolute_iff_split (path : Path) :
    path.isAbsolute = true ↔ ∃ rest, split path.bytes = [] :: rest ∧ rest ≠ [] := by
  unfold isAbsolute
  cases path.bytes with
  | nil =>
      simp [split]
  | cons b bytes =>
      by_cases hb : b = slash
      · simp [split, hb, split_ne_nil]
      · rcases split_cons_of_ne hb bytes with ⟨first, others, _, hsplit⟩
        simp [hsplit, hb]

/-- Where a path starts is seen at its beginning, if there is any. -/
theorem isAbsolute_of_prefix {root : Path} (hroot : root.bytes ≠ []) (hbegins : root.bytes <+: path.bytes) :
    path.isAbsolute = root.isAbsolute := by
  rcases hbegins with ⟨rest, hrest⟩
  unfold isAbsolute
  rw [← hrest, List.head?_append, Option.or_of_isSome (List.isSome_head?.2 hroot)]

theorem isAbsolute_join (path : Path) (hslash : slash ∉ name) :
    (path.join ⟨name⟩).isAbsolute = path.isAbsolute := by
  by_cases hempty : path.bytes = []
  · have hname := isAbsolute_of_not_mem hslash
    unfold join
    simpa [hname, hempty, isAbsolute] using hname
  · exact isAbsolute_of_prefix hempty (prefix_join path hslash)

/-- What is seen from the root is absolute, whatever it is. -/
theorem isAbsolute_join_of_isAbsolute (hpath : path.isAbsolute = true) (next : Path) :
    (path.join next).isAbsolute = true := by
  have hhead : path.bytes.head? = some slash := by simpa [isAbsolute] using hpath
  unfold join
  split
  · assumption
  · split
    · simp [isAbsolute, List.head?_append, hhead]
    · simp [isAbsolute, List.head?_append, hhead]

/-- A slash stands between a path and a name that is joined to it: its own, if it ends with one. -/
theorem exists_stem (hpath : path.bytes ≠ []) (hslash : slash ∉ name) :
    ∃ stem, (path.join ⟨name⟩).bytes = stem ++ slash :: name ∧
      (path.bytes = stem ∨ path.bytes = stem ++ [slash]) := by
  rw [bytes_join hslash]
  by_cases hends : path.endsWithSlash = true
  · obtain ⟨stem, hstem⟩ : ∃ stem, path.bytes = stem ++ [slash] := by
      have hlast : path.bytes.getLast? = some slash := by simpa [endsWithSlash] using hends
      exact List.getLast?_eq_some_iff.1 hlast
    exact ⟨stem, by simp [hends, hstem], .inr hstem⟩
  · exact ⟨path.bytes, by simp [hpath, hends], .inl rfl⟩

/-- A name becomes the last segment. -/
theorem segments_join (hname : name ≠ []) (hslash : slash ∉ name) :
    (path.join ⟨name⟩).segments = path.segments ++ [name] := by
  have hlast : (split name).filter (· ≠ []) = [name] := by
    simp [split_of_not_mem hslash, hname]
  unfold segments
  by_cases hempty : path.bytes = []
  · rw [bytes_join hslash]
    simp only [hempty, decide_true, Bool.true_or, if_true, List.nil_append, hlast]
    rfl
  · rcases exists_stem hempty hslash with ⟨stem, hbytes, hstem⟩
    rw [hbytes, split_append_slash, List.filter_append, hlast]
    rcases hstem with hstem | hstem
    · rw [hstem]
    -- After its own slash the path has an empty part.
    · rw [hstem, split_append_slash, List.filter_append]
      simp [split]

/-- What a path has first it keeps when a name is joined to it. -/
theorem head?_split_join (hpath : path.bytes ≠ []) (hslash : slash ∉ name) :
    (split (path.join ⟨name⟩).bytes).head? = (split path.bytes).head? := by
  rcases exists_stem hpath hslash with ⟨stem, hbytes, hstem⟩
  have hfirst : ∀ rest, (split (stem ++ slash :: rest)).head? = (split stem).head? := by
    intro rest
    rw [split_append_slash, List.head?_append,
      Option.or_of_isSome (List.isSome_head?.2 (split_ne_nil stem))]
  rw [hbytes, hfirst]
  rcases hstem with hstem | hstem
  · rw [hstem]
  · rw [hstem, hfirst]

theorem anchor_join (hpath : path.bytes ≠ []) (hslash : slash ∉ name) :
    (path.join ⟨name⟩).anchor = path.anchor := by
  unfold anchor
  rw [isAbsolute_join path hslash, head?_split_join hpath hslash]

theorem endsWithSlash_append {before after : Bytes} (hafter : after ≠ []) :
    (⟨before ++ after⟩ : Path).endsWithSlash = (⟨after⟩ : Path).endsWithSlash := by
  have hsome : after.getLast?.isSome = true := by simp [hafter]
  simp only [endsWithSlash, List.getLast?_append, Option.or_of_isSome hsome]

/-- What is put between a path and the next. -/
def gap (path : Path) : Bytes := if path.bytes = [] || path.endsWithSlash then [] else [slash]

theorem join_of_relative {next : Path} (hnext : next.isAbsolute = false) :
    path.join next = ⟨path.bytes ++ (path.gap ++ next.bytes)⟩ := by
  unfold join gap
  simp only [hnext, Bool.false_eq_true, if_false]
  split <;> simp

/-- After a joined path comes what comes after its second part. -/
theorem gap_join {next : Path} (hnext : next.isAbsolute = false) : (path.join next).gap = next.gap := by
  rw [join_of_relative hnext]
  by_cases hempty : next.bytes = []
  · by_cases hpath : (path.bytes = [] || path.endsWithSlash) = true
    · simp only [gap, hempty, hpath, if_true, List.append_nil]
      simp
    · simp only [gap, hempty, hpath]
      simp [endsWithSlash]
  · have hends : (⟨path.bytes ++ (path.gap ++ next.bytes)⟩ : Path).endsWithSlash =
        next.endsWithSlash := by
      rw [← List.append_assoc, endsWithSlash_append hempty]
    unfold gap at hends ⊢
    rw [hends]
    simp [hempty]

/-- A name is joined to a joined path as to its second part. -/
theorem join_join (path next : Path) (hslash : slash ∉ name) :
    (path.join next).join ⟨name⟩ = path.join (next.join ⟨name⟩) := by
  have hname := isAbsolute_of_not_mem hslash
  by_cases habsolute : next.isAbsolute = true
  · have hjoined := isAbsolute_join_of_isAbsolute habsolute ⟨name⟩
    rw [show path.join next = next by rw [join, if_pos habsolute],
      show path.join (next.join ⟨name⟩) = next.join ⟨name⟩ by rw [join, if_pos hjoined]]
  · rw [Bool.not_eq_true] at habsolute
    have hjoined : (next.join ⟨name⟩).isAbsolute = false := by
      rw [isAbsolute_join next hslash, habsolute]
    rw [join_of_relative hname, gap_join habsolute, join_of_relative habsolute,
      join_of_relative hjoined, join_of_relative hname]
    simp

end Join

/-! ## Joining one after the other -/

section JoinAll

variable {path : Path} {names : List Bytes}

theorem segments_foldl_join (hnames : ∀ name ∈ names, name ≠ [] ∧ slash ∉ name) :
    (names.foldl (fun path name => path.join ⟨name⟩) path).segments = path.segments ++ names := by
  induction names generalizing path with
  | nil =>
      simp
  | cons name names ih =>
      have hname := hnames name List.mem_cons_self
      rw [List.foldl_cons, ih (fun other hmem => hnames other (List.mem_cons_of_mem _ hmem)),
        segments_join hname.1 hname.2, List.append_assoc, List.singleton_append]

theorem isAbsolute_foldl_name (hnames : ∀ name ∈ names, name ≠ [] ∧ slash ∉ name) :
    (names.foldl (fun path name => path.join ⟨name⟩) path).isAbsolute = path.isAbsolute := by
  induction names generalizing path with
  | nil =>
      rfl
  | cons name names ih =>
      have hname := hnames name List.mem_cons_self
      rw [List.foldl_cons, ih (fun other hmem => hnames other (List.mem_cons_of_mem _ hmem)),
        isAbsolute_join path hname.2]

/-- After a name comes a slash. -/
theorem gap_name {name : Bytes} (hname : name ≠ [] ∧ slash ∉ name) : gap ⟨name⟩ = [slash] := by
  have hends : endsWithSlash ⟨name⟩ = false := by
    rw [endsWithSlash, decide_eq_false_iff_not]
    exact fun hlast => hname.2 (List.mem_of_getLast? hlast)
  simp [gap, hname.1, hends]

/-- The bytes of the path, and after them the names with a slash between each two. -/
theorem bytes_foldl_join (hnames : ∀ name ∈ names, name ≠ [] ∧ slash ∉ name) (hsome : names ≠ []) :
    (names.foldl (fun path name => path.join ⟨name⟩) path).bytes =
      path.bytes ++ (path.gap ++ unsplit names) := by
  induction names generalizing path with
  | nil =>
      exact absurd rfl hsome
  | cons name names ih =>
      have hname := hnames name List.mem_cons_self
      have hrelative := isAbsolute_of_not_mem hname.2
      rw [List.foldl_cons]
      cases names with
      | nil =>
          rw [List.foldl_nil, join_of_relative hrelative]
          rfl
      | cons next names =>
          rw [ih (fun other hmem => hnames other (List.mem_cons_of_mem _ hmem)) (by simp),
            gap_join hrelative, gap_name hname, join_of_relative hrelative]
          simp [unsplit]

theorem prefix_foldl_join (hnames : ∀ name ∈ names, name ≠ [] ∧ slash ∉ name) :
    path.bytes <+: (names.foldl (fun path name => path.join ⟨name⟩) path).bytes := by
  cases names with
  | nil =>
      exact List.prefix_refl _
  | cons name names =>
      rw [bytes_foldl_join hnames (by simp)]
      exact List.prefix_append _ _

end JoinAll

/-! ## Absolute paths -/

theorem isAbsolute_foldl_join {start : Path} (hstart : start.isAbsolute = true)
    (steps : List Component) :
    (steps.foldl (fun path step => path.join ⟨step.bytes⟩) start).isAbsolute = true := by
  induction steps generalizing start with
  | nil =>
      exact hstart
  | cons step steps ih =>
      exact ih (isAbsolute_join_of_isAbsolute hstart ⟨step.bytes⟩)

section Working

variable {workingDirectory : Option Path} {path absolute : Path}
  (hworking : ∀ directory ∈ workingDirectory, directory.isAbsolute = true)
include hworking

theorem isAbsolute_seenFrom? (h : seenFrom? workingDirectory path = some absolute) :
    absolute.isAbsolute = true := by
  unfold seenFrom? at h
  split at h
  · cases h
    assumption
  · rcases Option.map_eq_some_iff.1 h with ⟨directory, hdirectory, rfl⟩
    exact isAbsolute_join_of_isAbsolute (hworking directory hdirectory) path

/-- A path that is made absolute is absolute. -/
theorem isAbsolute_absolute? (h : absolute? workingDirectory path = some absolute) :
    absolute.isAbsolute = true := by
  -- Steps are joined to a start, and perhaps nothing after them for the slash at the end.
  have hreached : ∀ {start : Path} (steps : List Component), start.isAbsolute = true →
      (if path.endsWithSlash then
        (steps.foldl (fun path step => path.join ⟨step.bytes⟩) start).join ⟨[]⟩
      else steps.foldl (fun path step => path.join ⟨step.bytes⟩) start).isAbsolute = true := by
    intro start steps hstart
    have hsteps := isAbsolute_foldl_join hstart steps
    split
    · exact isAbsolute_join_of_isAbsolute hsteps _
    · exact hsteps
  unfold absolute? at h
  cases hbytes : path.bytes with
  | nil =>
      simp only [hbytes] at h
      cases h
  | cons b rest =>
      simp only [hbytes] at h
      split at h
      · rename_i hslash
        split at h
        · cases h
          exact hreached _ rfl
        · cases h
          -- The first step from nothing is the root.
          have habsolute : path.isAbsolute = true := by simp [isAbsolute, hbytes, hslash]
          have hcomponents : path.components =
              .root :: path.body.filterMap Component.ofSegment? := by
            simp only [components, habsolute, if_true]
          have hroot := @hreached ⟨[slash]⟩ (path.body.filterMap Component.ofSegment?) rfl
          rw [hcomponents]
          exact hroot
      · rcases Option.map_eq_some_iff.1 h with ⟨directory, hdirectory, rfl⟩
        exact hreached _ (hworking directory hdirectory)

end Working

theorem parent?_ne_nil {path parent : Path} (habsolute : path.isAbsolute = true)
    (h : path.parent? = some parent) : parent.bytes ≠ [] := by
  have hanchor : path.anchor = [slash] := by simp only [anchor, habsolute, if_true]
  unfold parent? at h
  split at h
  · simp [hanchor, slash, dot] at h
  · cases h
    simp [hanchor]

end Path
end NativeLaunch
