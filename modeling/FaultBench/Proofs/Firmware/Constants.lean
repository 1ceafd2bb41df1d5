import FaultBench.Firmware.Build
import FaultBench.Proofs.Files
import FaultBench.Proofs.Profile.Constants

/-! Builds with other parameters leave other constants behind. -/
namespace FaultBench

namespace Profile

/-- Nothing of a profile but its parameters goes into the constants, and all of them do. -/
theorem constants_eq_iff {p q : Profile} :
    p.constants = q.constants ↔ p.parameters = q.parameters := by
  constructor
  · intro h
    have hread := ofConstants?_constants p
    rw [h, ofConstants?_constants q] at hread
    exact (Option.some.inj hread).symm
  · intro h
    simp only [parameters, Parameters.mk.injEq] at h
    obtain ⟨houter, hinner, hsize, hsource, hdestination, hexecutions, hbaud⟩ := h
    unfold constants
    rw [houter, hinner, hsize, hsource, hdestination, hexecutions, hbaud]

end Profile

namespace Firmware
open Profile

/-- A build that succeeds with a profile. -/
structure Builds (i : BuildInput) (p : Profile) : Prop where
  succeeds : (build i).result = .ok ()
  /-- The profile is read once the memory layout has been copied. -/
  profile : ∃ directory copied, i.outDir = some directory ∧
    i.files.copy layoutName (Files.join directory layoutName) = .ok copied ∧
      ofFile copied (i.profile.getD usualProfile) = .ok p

/-- The constants that a build leaves in its output directory. -/
def generated (i : BuildInput) : Option String := do
  let directory ← i.outDir
  ((build i).files.read (Files.join directory constantsName)).toOption

variable {i j : BuildInput} {p q : Profile}

lemma generate_of_ok {files : Files} {directory path : String}
    (h : (generate files directory path).1 = .ok ()) : ∃ p, ofFile files path = .ok p ∧
      files.create (Files.join directory constantsName) (.text p.constants) =
        .ok (generate files directory path).2 := by
  unfold generate at h ⊢
  cases hfile : ofFile files path with
  | error r =>
    rw [hfile] at h
    cases h
  | ok p =>
    rw [hfile] at h
    dsimp only at h ⊢
    cases hcreate : files.create (Files.join directory constantsName) (.text p.constants) with
    | error e =>
      rw [hcreate] at h
      cases h
    | ok written => exact ⟨p, rfl, hcreate⟩

lemma build_eq {directory : String} {copied : Files} (hdirectory : i.outDir = some directory)
    (hcopied : i.files.copy layoutName (Files.join directory layoutName) = .ok copied) :
    (build i).result = (generate copied directory (i.profile.getD usualProfile)).1 ∧
      (build i).files = (generate copied directory (i.profile.getD usualProfile)).2 := by
  unfold build
  simp only [hdirectory, hcopied]
  exact ⟨trivial, trivial⟩

theorem exists_builds (h : (build i).result = .ok ()) : ∃ p, Builds i p := by
  cases hdirectory : i.outDir with
  | none =>
    unfold build at h
    rw [hdirectory] at h
    cases h
  | some directory =>
    cases hcopied : i.files.copy layoutName (Files.join directory layoutName) with
    | error e =>
      unfold build at h
      simp only [hdirectory, hcopied] at h
      cases h
    | ok copied =>
      have hgenerate := h
      rw [(build_eq hdirectory hcopied).1] at hgenerate
      obtain ⟨p, hfile, -⟩ := generate_of_ok hgenerate
      exact ⟨p, h, directory, copied, hdirectory, hcopied, hfile⟩

lemma generated_of_builds (h : Builds i p) : generated i = some p.constants := by
  obtain ⟨hsucceeds, directory, copied, hdirectory, hcopied, hfile⟩ := h
  obtain ⟨hresult, hfiles⟩ := build_eq hdirectory hcopied
  rw [hresult] at hsucceeds
  obtain ⟨found, hfound, hcreate⟩ := generate_of_ok hsucceeds
  rw [hfile] at hfound
  cases hfound
  unfold generated
  rw [hdirectory, hfiles, Option.bind_eq_bind, Option.bind_some, Files.read_create hcreate]
  rfl

/-- The parameters of a profile are read back from its constants, whatever they are, so two builds
leave the same constants exactly if their parameters are the same. -/
theorem constants_determine :
    (∀ p : Profile, Parameters.ofConstants? p.constants = some p.parameters) ∧
      (∀ p q : Profile, p.constants = q.constants ↔ p.parameters = q.parameters) ∧
      (∀ i, (build i).result = .ok () → ∃ p, Builds i p) ∧
      ∀ i j p q, Builds i p → Builds j q → generated i = some p.constants ∧
        (generated i = generated j ↔ p.parameters = q.parameters) := by
  refine ⟨ofConstants?_constants, fun p q => constants_eq_iff, fun i => exists_builds,
    fun i j p q hi hj => ⟨generated_of_builds hi, ?_⟩⟩
  rw [generated_of_builds hi, generated_of_builds hj, Option.some.injEq]
  exact constants_eq_iff

/-- A first build with a profile. -/
def firstBuild (profile : String) : BuildInput where
  files := { elsewhere := [("memory.x", .text "MEMORY"), ("/out/memory.x", .text ""),
    ("/out/profile.rs", .text ""), ("profile.yaml", .text profile)] }
  outDir := some "/out"

lemma copy_firstBuild (profile : String) :
    (firstBuild profile).files.copy layoutName (Files.join "/out" layoutName) =
      .ok { elsewhere := [("/out/memory.x", .text "MEMORY"), ("memory.x", .text "MEMORY"),
        ("/out/profile.rs", .text ""), ("profile.yaml", .text profile)] } := by
  have hjoin : Files.join "/out" layoutName = "/out/memory.x" := by decide +kernel
  rw [hjoin]
  rfl

/-- Zeros by a single byte and zeros by a sequence are the same buffer, and not the same
constants. -/
theorem constants_determine_zeros :
    (build (firstBuild "buffer_copy:\n  source:\n    fill: 0\n")).result = .ok () ∧
      (build (firstBuild "buffer_copy:\n  source:\n    sequence: [0]\n")).result = .ok () ∧
      generated (firstBuild "buffer_copy:\n  source:\n    fill: 0\n") ≠
        generated (firstBuild "buffer_copy:\n  source:\n    sequence: [0]\n") := by
  obtain ⟨-, -, -, hgenerated⟩ := constants_determine
  have hfill : Builds (firstBuild "buffer_copy:\n  source:\n    fill: 0\n")
      { bufferCopy := { source := .fill 0 } } := by
    refine ⟨?_, "/out", _, rfl, copy_firstBuild _, ?_⟩
    · decide +kernel
    · decide +kernel
  have hsequence : Builds (firstBuild "buffer_copy:\n  source:\n    sequence: [0]\n")
      { bufferCopy := { source := .sequence [0] } } := by
    refine ⟨?_, "/out", _, rfl, copy_firstBuild _, ?_⟩
    · decide +kernel
    · decide +kernel
  refine ⟨hfill.succeeds, hsequence.succeeds, fun hsame => ?_⟩
  exact absurd ((hgenerated _ _ _ _ hfill hsequence).2.mp hsame) (by decide)

end Firmware
end FaultBench
