import FaultBench.Firmware.Build
import FaultBench.Proofs.Files
import FaultBench.Proofs.Profile.Validation

/-! Firmware is built from a profile exactly if the profile is valid, and validity is what the
parts of the firmware assert of themselves. -/
namespace FaultBench

namespace Profile

/-- The checks of a profile and the assertions of what is built from it decide the same. -/
structure Agrees (p : Profile) : Prop where
  /-- The rules are checked in their order, on the images of both buffers. -/
  checked : p.validate = p.check.mapError .violation
  /-- The buffers are set up under assertions on the byte at every position. -/
  asserted : p.bufferCopy.setUp =
    let size := p.bufferCopy.size.toNat
    let source := p.bufferCopy.source
    let destination := p.bufferCopy.destination
    if size = 0 then .error .emptyBuffers
    else if size < source.span then .error .sourceTooLong
    else if size < destination.span then .error .destinationTooLong
    else if ∀ i < size, source.byteAt i = destination.byteAt i then .error .indistinguishable
    else .ok ⟨.replicate size 0, .replicate size 0, source, destination⟩
  accepted : p.validate = .ok () ↔ p.Buildable
  /-- A rule of the buffers is the first one violated if nothing before it is wrong and the
  assertion that fails is its own. -/
  rejected {v : Violation} (hv : v.OfBuffers) : p.validate = .error (.violation v) ↔
    p.Opens ∧ ∃ e, p.bufferCopy.setUp = .error e ∧ v = p.bufferCopy.violation e

theorem agrees {p : Profile} (h : p.bufferCopy.size.toNat ≤ allocationLimit) : p.Agrees where
  checked := validate_eq_check h
  asserted := BufferCopy.new_eq _ _ _
  accepted := validate_eq_ok_iff h
  rejected hv := validate_eq_error_iff h hv

/-- The text is a profile's and the profile is valid. -/
def Accepted (text : String) (p : Profile) : Prop :=
  ofDocument (Yaml.Document.ofText text) = .ok p ∧ p.validate = .ok ()

/-- Where a text is a profile's, it is all up to validation. -/
lemma ofYaml_of_parsed {text : String} {p : Profile}
    (h : ofDocument (Yaml.Document.ofText text) = .ok p) :
    ofYaml text = (p.validate.mapError .invalid).map fun _ => p := by
  rw [ofYaml, h]
  change (p.validate.mapError Rejection.invalid >>= fun _ => .ok p) = _
  cases p.validate <;> rfl

lemma ofYaml_eq_ok_iff {text : String} {p : Profile} : ofYaml text = .ok p ↔ Accepted text p := by
  rw [Accepted]
  cases hparsed : ofDocument (Yaml.Document.ofText text) with
  | error e => simp [ofYaml, hparsed, Except.mapError, bind, Except.bind]
  | ok q =>
    rw [ofYaml_of_parsed hparsed]
    cases hvalid : q.validate with
    | error e =>
      refine ⟨nofun, ?_⟩
      rintro ⟨heq, hp⟩
      cases heq
      rw [hvalid] at hp
      cases hp
    | ok u =>
      simp only [Except.mapError, Except.map, Except.ok.injEq]
      exact ⟨fun heq => ⟨heq, heq ▸ hvalid⟩, And.left⟩

end Profile

namespace Firmware
open Profile

/-- An environment and files with which only the profile can stop a build: the memory layout can
be copied, then the profile can be read, and there is a place for the constants. -/
structure InOrder (i : BuildInput) (directory : String) (copied : Files) (text : String) : Prop where
  outDir : i.outDir = some directory
  layout : i.files.copy layoutName (Files.join directory layoutName) = .ok copied
  profile : copied.read (i.profile.getD usualProfile) = .ok text
  constants (c : FileContents) : ∃ f, copied.create (Files.join directory constantsName) c = .ok f

variable {i : BuildInput} {directory text : String} {copied : Files}

lemma build_of_accepted (h : InOrder i directory copied text) {p : Profile} (hp : Accepted text p) :
    (build i).result = .ok () ∧
      copied.create (Files.join directory constantsName) (.text p.constants) =
        .ok (build i).files := by
  obtain ⟨f, hf⟩ := h.constants (.text p.constants)
  have hfile : ofFile copied (i.profile.getD usualProfile) = .ok p := by
    simp only [ofFile, h.profile, ofYaml_eq_ok_iff.mpr hp, Except.mapError]
  have hgenerate : generate copied directory (i.profile.getD usualProfile) = (.ok (), f) := by
    simp only [generate, hfile, hf]
  simp only [build, h.outDir, h.layout, hgenerate]
  exact ⟨trivial, hf⟩

lemma build_of_not_accepted (h : InOrder i directory copied text)
    (hp : ¬ ∃ p, Accepted text p) : (build i).result ≠ .ok () ∧ (build i).files = copied := by
  cases hr : ofYaml text with
  | ok p => exact absurd ⟨p, ofYaml_eq_ok_iff.mp hr⟩ hp
  | error r =>
    have hfile : ofFile copied (i.profile.getD usualProfile) =
        .error (.rejected (i.profile.getD usualProfile) r) := by
      simp only [ofFile, h.profile, hr, Except.mapError]
    simp only [build, h.outDir, h.layout, generate, hfile]
    exact ⟨nofun, trivial⟩

/-- What becomes of a build that only the profile can stop. -/
structure Decided (i : BuildInput) (directory : String) (copied : Files) (text : String) :
    Prop where
  succeeds : (build i).result = .ok () ↔ ∃ p, Accepted text p
  writes {p : Profile} (hp : Accepted text p) :
    copied.create (Files.join directory constantsName) (.text p.constants) = .ok (build i).files ∧
      (build i).files.read (Files.join directory constantsName) = .ok p.constants
  /-- Nothing is written but the memory layout. -/
  stops (hp : ¬ ∃ p, Accepted text p) : (build i).files = copied

/-- A profile whose buffers can be laid out is valid exactly if what it is for can be built, and
rejected for the reason for which it cannot; and the firmware's constants are written exactly for
a profile that can be read and is valid. -/
theorem built_iff_valid :
    (∀ p : Profile, p.bufferCopy.size.toNat ≤ 2 ^ 63 - 1 → p.Agrees) ∧
      ∀ i directory copied text, InOrder i directory copied text →
        Decided i directory copied text := by
  refine ⟨fun p hsize => agrees hsize, fun i directory copied text h => ?_⟩
  refine ⟨⟨fun hresult => ?_, fun ⟨p, hp⟩ => (build_of_accepted h hp).1⟩, fun hp => ?_,
    fun hp => (build_of_not_accepted h hp).2⟩
  · by_contra hp
    exact (build_of_not_accepted h hp).1 hresult
  · have hwritten := (build_of_accepted h hp).2
    exact ⟨hwritten, Files.read_create hwritten⟩

/-- A build that finds what an earlier one left, with a profile that only sets the rate of the
line. -/
def rebuild : BuildInput where
  files := { elsewhere := [("memory.x", .text "MEMORY"), ("/out/memory.x", .text "OLD"),
    ("/out/profile.rs", .text "OLD"), ("profile.yaml", .text "serial:\n  baud: 9600\n")] }
  outDir := some "/out"

/-- Two spellings of zeros make no valid profile, as no copy can be set up with them, and a rebuild
replaces the constants. -/
theorem built_iff_valid_rebuild :
    ({ bufferCopy := { source := .fill 0, destination := .sequence [0] } } : Profile).validate =
        .error (.violation .indistinguishableBuffers) ∧
      (build rebuild).result = .ok () ∧ ∃ p, Accepted "serial:\n  baud: 9600\n" p ∧
        (build rebuild).files.read "/out/profile.rs" = .ok p.constants := by
  obtain ⟨hagrees, hdecided⟩ := built_iff_valid
  have hlayout : Files.join "/out" layoutName = "/out/memory.x" := by decide +kernel
  have hconstants : Files.join "/out" constantsName = "/out/profile.rs" := by decide +kernel
  have hinOrder : InOrder rebuild "/out" { elsewhere := [("/out/memory.x", .text "MEMORY"),
      ("memory.x", .text "MEMORY"), ("/out/profile.rs", .text "OLD"),
      ("profile.yaml", .text "serial:\n  baud: 9600\n")] } "serial:\n  baud: 9600\n" := by
    refine ⟨rfl, ?_, rfl, fun c => ?_⟩
    · rw [hlayout]
      rfl
    · rw [hconstants]
      exact ⟨_, rfl⟩
  have hparsed : ∃ p, Accepted "serial:\n  baud: 9600\n" p := by
    have hok : (ofYaml "serial:\n  baud: 9600\n").isOk = true := by decide +kernel
    cases hp : ofYaml "serial:\n  baud: 9600\n" with
    | error r => simp [hp, Except.isOk, Except.toBool] at hok
    | ok p => exact ⟨p, ofYaml_eq_ok_iff.mp hp⟩
  have hbuilt := hdecided _ _ _ _ hinOrder
  obtain ⟨p, hp⟩ := hparsed
  have hread := (hbuilt.writes hp).2
  rw [hconstants] at hread
  refine ⟨?_, hbuilt.succeeds.mpr ⟨p, hp⟩, p, hp, hread⟩
  have hrule := CopyBuffers.violation_ofBuffers
    { source := .fill 0, destination := .sequence [0] } .indistinguishable
  refine ((hagrees _ (by decide)).rejected hrule).mpr ⟨⟨rfl, by decide, by decide⟩, ?_⟩
  exact ⟨.indistinguishable, rfl, rfl⟩

end Firmware
end FaultBench
