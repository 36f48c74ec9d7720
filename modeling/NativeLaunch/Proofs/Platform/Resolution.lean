import Mathlib.Data.List.Infix
import NativeLaunch.Platform

/-!
# What the table of platforms accepts

A pair of names has a descriptor if and only if the system's family and the architecture's name are those
of a row of the table (`resolveIn_eq_ok_iff`).  This file defines:

* `OsFamily.Named` and `Platform.Named` — the names of a family and of an architecture, as compared;
* `Platform.Supported` — the pairs of names for which there is an artifact;
* `Platform.Tabled` — what is answered for all pairs of names, whatever the artifacts are called.

The directories of two rows do not start alike, so that a resource path is that of one row only, and the
names in the table are names of themselves, so that a descriptor is found again by its own names.
-/

namespace NativeLaunch

/-! ## Families -/

namespace OsFamily

/-- The names of a family, trimmed and in small letters. -/
def Named : OsFamily → List Char → Prop
  | .windows, name => "windows".toList <+: name
  | .macos, name => name = "macos".toList ∨ name = "darwin".toList ∨ "mac os".toList <+: name
  | .linux, name => name = "linux".toList

variable {os : String} {family other : OsFamily} {name : List Char}

theorem not_windows_of_macos (h : macos.Named name) : ¬windows.Named name := by
  unfold Named at h ⊢
  rcases h with rfl | rfl | h
  · decide
  · decide
  · intro hwindows
    rcases List.prefix_or_prefix_of_prefix h hwindows with hprefix | hprefix
    · exact absurd hprefix (by decide)
    · exact absurd hprefix (by decide)

theorem eq_linux_of_named (h : linux.Named name) (hother : other.Named name) : other = linux := by
  unfold Named at h
  subst h
  revert hother
  cases other <;> unfold Named <;> decide

/-- No name is that of two families. -/
theorem Named.unique (h : family.Named name) (hother : other.Named name) : family = other := by
  cases family with
  | windows =>
      cases other with
      | windows => rfl
      | macos => exact absurd h (not_windows_of_macos hother)
      | linux => exact eq_linux_of_named hother h
  | macos =>
      cases other with
      | windows => exact absurd hother (not_windows_of_macos h)
      | macos => rfl
      | linux => exact eq_linux_of_named hother h
  | linux =>
      exact (eq_linux_of_named h hother).symm

theorem named_of_parse? (h : parse? os = some family) : family.Named (Text.normalize os) := by
  simp only [parse?, List.isPrefixOf_iff_prefix, Bool.or_eq_true, decide_eq_true_eq, or_assoc] at h
  split at h
  · cases h
    assumption
  split at h
  · cases h
    assumption
  split at h
  · cases h
    assumption
  · cases h

theorem not_named_of_parse? (h : parse? os = none) : ¬family.Named (Text.normalize os) := by
  simp only [parse?, List.isPrefixOf_iff_prefix, Bool.or_eq_true, decide_eq_true_eq, or_assoc] at h
  split at h
  · cases h
  split at h
  · cases h
  split at h
  · cases h
  · cases family <;> assumption

/-- A system is of a family if and only if it has one of the family's names. -/
theorem parse?_eq_some_iff : parse? os = some family ↔ family.Named (Text.normalize os) := by
  constructor
  · exact named_of_parse?
  · intro hnamed
    cases hparse : parse? os with
    | none => exact absurd hnamed (not_named_of_parse? hparse)
    | some other => rw [(named_of_parse? hparse).unique hnamed]

end OsFamily

namespace Platform

/-! ## Architectures -/

/-- The names of the architecture `x86_64`, trimmed and in small letters. -/
def intelNames : List String := ["x86_64", "amd64", "x64", "x86-64"]

/-- The names of the architecture `aarch64`, trimmed and in small letters. -/
def armNames : List String := ["aarch64", "arm64"]

section Names

variable {architecture : String}

theorem normalizeArchitecture_eq (architecture : String) :
    normalizeArchitecture architecture =
      if String.ofList (Text.normalize architecture) ∈ intelNames then "x86_64"
      else if String.ofList (Text.normalize architecture) ∈ armNames then "aarch64"
      else String.ofList (Text.normalize architecture) := by
  have hname : ∀ name : String, Text.normalize architecture = name.toList ↔
      String.ofList (Text.normalize architecture) = name := fun name => by
    rw [← String.toList_inj, String.toList_ofList]
  unfold normalizeArchitecture intelNames armNames
  simp only [hname]
  grind

theorem normalizeArchitecture_eq_intel_iff :
    normalizeArchitecture architecture = "x86_64" ↔
      String.ofList (Text.normalize architecture) ∈ intelNames := by
  rw [normalizeArchitecture_eq]
  unfold intelNames armNames
  grind

theorem normalizeArchitecture_eq_arm_iff :
    normalizeArchitecture architecture = "aarch64" ↔
      String.ofList (Text.normalize architecture) ∈ armNames := by
  rw [normalizeArchitecture_eq]
  unfold intelNames armNames
  grind

end Names

/-! ## Rows -/

/-- A row is known by its family and its architecture. -/
theorem eq_of_mem_targets : ∀ target ∈ targets, ∀ other ∈ targets,
    target.osFamily = other.osFamily → target.architecture = other.architecture → target = other := by
  decide

/-- What a row's resource path starts with. -/
def Target.directory (target : Target) : String :=
  "/" ++ target.osFamily.name ++ "/" ++ target.architecture ++ "/"

theorem eq_of_directory : ∀ target ∈ targets, ∀ other ∈ targets,
    target.directory.toList <+: other.directory.toList → target = other := by
  decide

/-- The names in the table are names of themselves. -/
theorem normalized_of_mem_targets : ∀ target ∈ targets,
    OsFamily.parse? target.osFamily.name = some target.osFamily ∧
      normalizeArchitecture target.architecture = target.architecture := by
  decide

/-! ## Resolution -/

section Resolve

variable {stem os architecture : String} {descriptor : PlatformDescriptor}

theorem resolveIn_cases (stem os architecture : String) :
    (∃ target ∈ targets, resolveIn stem os architecture = .ok (target.descriptor stem)) ∨
      resolveIn stem os architecture = .error (.unsupportedPlatform os architecture) := by
  unfold resolveIn
  cases OsFamily.parse? os with
  | none =>
      exact .inr rfl
  | some family =>
      cases hfind : targets.find? fun target =>
          target.osFamily = family && target.architecture = normalizeArchitecture architecture with
      | none =>
          exact .inr (by simp only [hfind])
      | some target =>
          exact .inl ⟨target, List.mem_of_find?_eq_some hfind, by simp only [hfind]⟩

theorem exists_target_of_resolveFor (h : resolveFor os architecture = .ok descriptor) :
    ∃ target ∈ targets, descriptor = target.descriptor libraryName := by
  rcases resolveIn_cases libraryName os architecture with
    ⟨target, htarget, hresolved⟩ | hunsupported
  · cases h.symm.trans hresolved
    exact ⟨target, htarget, rfl⟩
  · cases h.symm.trans hunsupported

/-- The row that is found is the one with the family and the architecture that are named. -/
theorem resolveIn_eq_ok_iff :
    resolveIn stem os architecture = .ok descriptor ↔
      ∃ target ∈ targets, OsFamily.parse? os = some target.osFamily ∧
        normalizeArchitecture architecture = target.architecture ∧
        descriptor = target.descriptor stem := by
  constructor
  · intro h
    unfold resolveIn at h
    cases hfamily : OsFamily.parse? os with
    | none =>
        simp only [hfamily, reduceCtorEq] at h
    | some family =>
        simp only [hfamily] at h
        split at h
        · cases h
        · rename_i target hfind
          cases h
          have hrow := List.find?_some hfind
          simp only [Bool.and_eq_true, decide_eq_true_eq] at hrow
          exact ⟨target, List.mem_of_find?_eq_some hfind, by rw [hrow.1], hrow.2.symm, rfl⟩
  · rintro ⟨target, htarget, hfamily, harchitecture, rfl⟩
    unfold resolveIn
    simp only [hfamily, harchitecture]
    cases hfind : targets.find? fun row =>
        row.osFamily = target.osFamily && row.architecture = target.architecture with
    | none =>
        exact absurd (List.find?_eq_none.1 hfind target htarget) (by simp)
    | some other =>
        have hrow := List.find?_some hfind
        simp only [Bool.and_eq_true, decide_eq_true_eq] at hrow
        rw [eq_of_mem_targets other (List.mem_of_find?_eq_some hfind) target htarget hrow.1 hrow.2]

/-- A descriptor is found by its own names, as it is by any others that lead to it. -/
theorem resolveIn_again (h : resolveIn stem os architecture = .ok descriptor) :
    resolveIn stem descriptor.osFamily.name descriptor.architecture = .ok descriptor := by
  rcases resolveIn_eq_ok_iff.1 h with ⟨target, htarget, _, _, rfl⟩
  rcases normalized_of_mem_targets target htarget with ⟨hfamily, harchitecture⟩
  exact resolveIn_eq_ok_iff.2 ⟨target, htarget, hfamily, harchitecture, rfl⟩

/-- A row is told by its resource path, whatever follows the directory in it. -/
theorem eq_of_resourceSubpath {target other : Target} (htarget : target ∈ targets)
    (hother : other ∈ targets)
    (h : (target.descriptor stem).resourceSubpath = (other.descriptor stem).resourceSubpath) :
    target = other := by
  have hstarts : ∀ row : Target,
      row.directory.toList <+: (row.descriptor stem).resourceSubpath.toList := fun row =>
    ⟨(row.fileName stem).toList, (String.toList_append ..).symm⟩
  have hothers := hstarts other
  rw [← h] at hothers
  rcases List.prefix_or_prefix_of_prefix (hstarts target) hothers with hprefix | hprefix
  · exact eq_of_directory target htarget other hother hprefix
  · exact (eq_of_directory other hother target htarget hprefix).symm

end Resolve

/-! ## The table -/

/-- The names for which there is an artifact, trimmed and in small letters. -/
def Supported (os : List Char) (architecture : String) : Prop :=
  OsFamily.linux.Named os ∧ (architecture ∈ intelNames ∨ architecture ∈ armNames) ∨
    OsFamily.macos.Named os ∧ architecture ∈ armNames ∨
    OsFamily.windows.Named os ∧ architecture ∈ intelNames

/-- What is answered for any pair of names, where `stem` is what the artifacts are called. -/
structure Tabled (stem : String) : Prop where
  /-- There is a descriptor for the names in the table, and for no others. -/
  accepted : ∀ os architecture,
    (∃ descriptor, resolveIn stem os architecture = .ok descriptor) ↔
      Supported (Text.normalize os) (String.ofList (Text.normalize architecture))
  /-- The others are refused as they were given. -/
  refused : ∀ os architecture failure, resolveIn stem os architecture = .error failure →
    failure = .unsupportedPlatform os architecture
  /-- The resource path is made of what the descriptor says of itself. -/
  subpath : ∀ os architecture descriptor, resolveIn stem os architecture = .ok descriptor →
    descriptor.resourceSubpath = "/" ++ descriptor.display ++ "/" ++ descriptor.fileNameIn stem
  /-- A descriptor's own names lead to it. -/
  again : ∀ os architecture descriptor, resolveIn stem os architecture = .ok descriptor →
    resolveIn stem descriptor.osFamily.name descriptor.architecture = .ok descriptor
  /-- Resource paths, descriptors, and families with architectures are told apart alike. -/
  distinct : ∀ os architecture descriptor os' architecture' descriptor',
    resolveIn stem os architecture = .ok descriptor →
    resolveIn stem os' architecture' = .ok descriptor' →
    (descriptor.resourceSubpath = descriptor'.resourceSubpath ↔ descriptor = descriptor') ∧
      (descriptor = descriptor' ↔ descriptor.osFamily = descriptor'.osFamily ∧
        descriptor.architecture = descriptor'.architecture)

theorem tabled (stem : String) : Tabled stem where
  accepted os architecture := by
    simp only [resolveIn_eq_ok_iff, targets, List.mem_cons, List.not_mem_nil, or_false,
      exists_eq_or_imp, exists_eq_left, OsFamily.parse?_eq_some_iff,
      normalizeArchitecture_eq_intel_iff, normalizeArchitecture_eq_arm_iff, Supported]
    constructor
    · rintro ⟨descriptor, ⟨hos, hname, _⟩ | ⟨hos, hname, _⟩ | ⟨hos, hname, _⟩ | ⟨hos, hname, _⟩⟩
      · exact .inr (.inr ⟨hos, hname⟩)
      · exact .inr (.inl ⟨hos, hname⟩)
      · exact .inl ⟨hos, .inl hname⟩
      · exact .inl ⟨hos, .inr hname⟩
    · rintro (⟨hos, hname | hname⟩ | ⟨hos, hname⟩ | ⟨hos, hname⟩)
      · exact ⟨_, .inr (.inr (.inl ⟨hos, hname, rfl⟩))⟩
      · exact ⟨_, .inr (.inr (.inr ⟨hos, hname, rfl⟩))⟩
      · exact ⟨_, .inr (.inl ⟨hos, hname, rfl⟩)⟩
      · exact ⟨_, .inl ⟨hos, hname, rfl⟩⟩
  refused os architecture failure h := by
    rcases resolveIn_cases stem os architecture with ⟨target, _, hresolved⟩ | hunsupported
    · cases h.symm.trans hresolved
    · cases h.symm.trans hunsupported
      rfl
  subpath os architecture descriptor h := by
    rcases resolveIn_eq_ok_iff.1 h with ⟨target, _, _, _, rfl⟩
    simp only [Target.descriptor, Target.fileName, PlatformDescriptor.display,
      PlatformDescriptor.fileNameIn, String.append_assoc]
  again os architecture descriptor h := resolveIn_again h
  distinct os architecture descriptor os' architecture' descriptor' h h' := by
    rcases resolveIn_eq_ok_iff.1 h with ⟨target, htarget, _, _, rfl⟩
    rcases resolveIn_eq_ok_iff.1 h' with ⟨target', htarget', _, _, rfl⟩
    refine ⟨⟨fun hsubpath => ?_, fun hsame => by rw [hsame]⟩,
      fun hsame => by rw [hsame]; exact ⟨rfl, rfl⟩, fun ⟨hfamily, harchitecture⟩ => ?_⟩
    · rw [eq_of_resourceSubpath htarget htarget' hsubpath]
    · rw [eq_of_mem_targets target htarget target' htarget' hfamily harchitecture]

end Platform
end NativeLaunch
