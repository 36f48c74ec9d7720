import NativeLaunch.Proofs.Platform.Resolution
import NativeLaunch.Proofs.Text.Blank

/-!
# Spellings of platforms

A system and an architecture may be spelled in many ways, and an architecture may go by another of its
names.  This file defines:

* `Platform.Synonyms` — two spellings or names of one architecture;
* `Platform.AnswersAlike` — the same descriptor for two pairs of names, or none for either;
* `Platform.SpellingFree` — what does not depend on how names are spelled.

The name used in bundles is itself a name of the architecture and has no other one, so that two names are
synonyms if and only if they have the same name there (`synonyms_iff`).
-/

namespace NativeLaunch

theorem OsFamily.parse?_of_alike {os os' : String} (h : Text.Alike os os') :
    OsFamily.parse? os = OsFamily.parse? os' := by
  unfold OsFamily.parse?
  rw [Text.normalize_eq_iff.2 h]

namespace Platform

/-! ## Names of architectures -/

/-- Another spelling of an architecture's name, or the name used for it in bundles. -/
inductive Renames : String → String → Prop
  | respelled {architecture architecture' : String} (h : Text.Respells architecture architecture') :
      Renames architecture architecture'
  | normalized (architecture : String) : Renames architecture (normalizeArchitecture architecture)

/-- Names of one architecture: any number of such changes, in either direction. -/
def Synonyms : String → String → Prop := Relation.EqvGen Renames

section Names

variable {architecture architecture' : String}

/-- The name used in bundles is its own. -/
theorem normalizeArchitecture_idem (architecture : String) :
    normalizeArchitecture (normalizeArchitecture architecture) = normalizeArchitecture architecture := by
  rw [normalizeArchitecture_eq architecture]
  split
  · decide
  split
  · decide
  · rename_i hintel harm
    rw [normalizeArchitecture_eq, Text.normalize_ofList_normalize, if_neg hintel, if_neg harm]

theorem normalizeArchitecture_of_renames (h : Renames architecture architecture') :
    normalizeArchitecture architecture = normalizeArchitecture architecture' := by
  cases h with
  | respelled hrespells =>
      unfold normalizeArchitecture
      rw [Text.normalize_of_respells hrespells]
  | normalized =>
      exact (normalizeArchitecture_idem architecture).symm

theorem synonyms_iff :
    Synonyms architecture architecture' ↔
      normalizeArchitecture architecture = normalizeArchitecture architecture' := by
  constructor
  · exact eq_of_eqvGen fun _ _ hrenames => normalizeArchitecture_of_renames hrenames
  · intro h
    have hname : Synonyms architecture (normalizeArchitecture architecture) :=
      .rel _ _ (.normalized architecture)
    rw [h] at hname
    exact .trans _ _ _ hname (.symm _ _ (.rel _ _ (.normalized architecture')))

end Names

/-! ## Resolution -/

/-- Two pairs of names have the same descriptor, or neither has one and each is refused as it was
given. -/
def AnswersAlike (stem os architecture os' architecture' : String) : Prop :=
  (∃ descriptor, resolveIn stem os architecture = .ok descriptor ∧
      resolveIn stem os' architecture' = .ok descriptor) ∨
    resolveIn stem os architecture = .error (.unsupportedPlatform os architecture) ∧
      resolveIn stem os' architecture' = .error (.unsupportedPlatform os' architecture')

section Resolve

variable {os architecture os' architecture' : String}

theorem answersAlike (stem : String) (hos : OsFamily.parse? os = OsFamily.parse? os')
    (harchitecture : normalizeArchitecture architecture = normalizeArchitecture architecture') :
    AnswersAlike stem os architecture os' architecture' := by
  have hsame : ∀ descriptor, resolveIn stem os architecture = .ok descriptor ↔
      resolveIn stem os' architecture' = .ok descriptor := fun descriptor => by
    rw [resolveIn_eq_ok_iff, resolveIn_eq_ok_iff, hos, harchitecture]
  rcases resolveIn_cases stem os architecture with ⟨target, _, hresolved⟩ | hunsupported
  · exact .inl ⟨_, hresolved, (hsame _).1 hresolved⟩
  · rcases resolveIn_cases stem os' architecture' with ⟨target, _, hresolved'⟩ | hunsupported'
    · exact absurd (hunsupported.symm.trans ((hsame _).2 hresolved')) (by simp)
    · exact .inr ⟨hunsupported, hunsupported'⟩

end Resolve

/-- What does not depend on how names are spelled, where `stem` is what the artifacts are called. -/
structure SpellingFree (stem : String) : Prop where
  /-- The name of an architecture in bundles is found from itself. -/
  idempotent : ∀ architecture,
    normalizeArchitecture (normalizeArchitecture architecture) = normalizeArchitecture architecture
  /-- A system's family depends on its name only. -/
  system : ∀ os os', Text.Alike os os' → OsFamily.parse? os = OsFamily.parse? os'
  /-- Names of one architecture, and no others, have the same name in bundles. -/
  architecture : ∀ architecture architecture', Synonyms architecture architecture' ↔
    normalizeArchitecture architecture = normalizeArchitecture architecture'
  /-- With such names the answers differ in nothing but the names that a refusal repeats. -/
  resolved : ∀ os os' architecture architecture', Text.Alike os os' →
    Synonyms architecture architecture' → AnswersAlike stem os architecture os' architecture'

theorem spellingFree (stem : String) : SpellingFree stem where
  idempotent := normalizeArchitecture_idem
  system _ _ := OsFamily.parse?_of_alike
  architecture _ _ := synonyms_iff
  resolved _ _ _ _ hos harchitecture :=
    answersAlike stem (OsFamily.parse?_of_alike hos) (synonyms_iff.1 harchitecture)

/-- Capitals, an unusual blank and an alias: the names below are those of one platform. -/
example : AnswersAlike libraryName "linux" "x86_64" "\u2003LiNuX\n" " AMD64" :=
  answersAlike libraryName (by decide) (by decide)

end Platform
end NativeLaunch
