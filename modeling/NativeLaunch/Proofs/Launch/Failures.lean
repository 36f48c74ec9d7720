import NativeLaunch.Proofs.Launch.Arguments
import NativeLaunch.Proofs.Launch.Pipeline
import NativeLaunch.Proofs.Platform.Resolution

/-!
# Why launches fail

Every failure of a launch says of itself at which stage the launch has ended.  None of them is a status
that the native component returned, so the exit code of each is one (`Halts.exitCode_eq`), and only a
bundle without the artifact makes a launch fail for want of it (`launch_artifactNotFound_iff`).
-/

namespace NativeLaunch

/-! ## Failures by stage -/

namespace World

variable {Library : Type} {loader : Loader Library} {bundle : Bundle} {invocation : Invocation}
  {world : World}

theorem Uncalled.ne_artifactNotFound {path : Path} {stage : Stage} {failure : Failure}
    (h : Uncalled loader invocation world path stage failure) (resource : String) :
    failure ≠ .artifactNotFound resource := by
  cases h with
  | arguments hfails =>
      rcases ArgumentBlock.exists_index_of_marshal hfails with ⟨index, rfl⟩
      simp
  | library =>
      simp
  | symbol =>
      simp

/-- For want of the artifact a launch fails if and only if the bundle has none to open. -/
theorem launch_artifactNotFound_iff {descriptor : PlatformDescriptor}
    (hresolved : world.host.resolve = .ok descriptor) (resource : String) :
    (world.launch loader bundle invocation).1 = .error (.artifactNotFound resource) ↔
      resource = descriptor.resourceSubpath ∧
        bundle.openResource world.files world.workingDirectory descriptor.resourceSubpath =
          .ok none := by
  constructor
  · intro hresult
    rcases halts_or_completes loader bundle invocation world with
      ⟨stage, failure, hhalts⟩ | ⟨path, library, block, called, hcompletes⟩
    · rcases hhalts.launch_eq with ⟨after, hlaunch, _⟩
      rw [hlaunch] at hresult
      cases hresult
      -- Of all the ways to halt only a missing resource is told so.
      cases hhalts with
      | unresolved hfails =>
          rw [hresolved] at hfails
          cases hfails
      | unextracted hresolved' hunextracted =>
          rw [hresolved] at hresolved'
          cases hresolved'
          cases hunextracted with
          | missing hfails =>
              exact ⟨rfl, hfails⟩
      | uncalled _ huncalled =>
          exact absurd rfl (huncalled.ne_artifactNotFound resource)
    · rw [hcompletes.launch_eq] at hresult
      cases hresult
  · rintro ⟨rfl, hfails⟩
    rcases (Halts.unextracted hresolved (.missing hfails) :
      Halts loader bundle invocation world _ _).launch_eq with ⟨after, hlaunch, _⟩
    rw [hlaunch]

end World

end NativeLaunch
