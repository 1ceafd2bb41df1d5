import FaultBench.CommandLine.Execution
import FaultBench.Proofs.Firmware.Build
import FaultBench.Proofs.Yaml.Readings

/-! What the commands and the firmware's build make of a profile that is not accepted. They name the
first rule that does not hold and end in an error; but where the images of the buffers are laid out
and are larger than any allocation, the program ends with them. -/
namespace FaultBench

namespace Profile

/-- What validation makes of the profile in a text. -/
structure Settled (text : String) (p : Profile) : Prop where
  accepted : ofYaml text = .ok p ↔ p.check = .ok () ∧ ¬ p.Oversized
  refused (v : Violation) :
    ofYaml text = .error (.invalid (.violation v)) ↔ p.check = .error v ∧ ¬ p.Oversized
  crashed : ofYaml text = .error (.invalid .crash) ↔ p.Oversized

lemma settled {text : String} {p : Profile}
    (h : ofDocument (Yaml.Document.ofText text) = .ok p) : Settled text p := by
  by_cases hsize : p.Oversized
  · have hcrash : ofYaml text = .error (.invalid .crash) := by
      rw [ofYaml_of_parsed h, validate_of_oversized hsize]
      rfl
    exact ⟨by simp [hcrash, hsize], fun v => by simp [hcrash, hsize], by simp [hcrash, hsize]⟩
  · have hcheck : ofYaml text =
        (p.check.mapError fun v => .invalid (.violation v)).map fun _ => p := by
      rw [ofYaml_of_parsed h, validate_eq_check_of_not_oversized hsize]
      cases p.check <;> rfl
    refine ⟨?_, fun v => ?_, ?_⟩ <;> rw [hcheck] <;> cases p.check <;>
      simp [hsize, Except.mapError, Except.map]

/-- How a profile out of a file is refused for a rule that does not hold. -/
def FileRejection.ofViolation (path : String) (v : Violation) : FileRejection :=
  .rejected path (.invalid (.violation v))

lemma ofFile_of_rejected {f : Files} {path text : String} {r : Rejection}
    (hread : f.read path = .ok text) (hr : ofYaml text = .error r) :
    ofFile f path = .error (.rejected path r) := by
  rw [ofFile, hread]
  simp only [hr, Except.mapError]

end Profile

namespace CommandLine
open Profile

/-- The file from which a command takes its profile. -/
def Command.profilePath? : Command → Option String
  | .check path => path
  | .decode _ path _ => path
  | .run o => o.profile

section Execution

variable {env : Environment} {c : Command} {path text : String}

/-- What is done with an accepted profile is the only difference between the commands. -/
lemma execute_eq_withProfile (env : Environment) (h : c.profilePath? = some path) :
    ∃ next, execute env c = withProfile env (some path) next := by
  cases c with
  | check q => exact ⟨check env, by rw [execute, show q = some path from h]⟩
  | decode k q words => exact ⟨decode env k words, by rw [execute, show q = some path from h]⟩
  | run o => exact ⟨run env o, by rw [execute, show o.profile = some path from h]⟩

variable (h : c.profilePath? = some path) (hread : env.files.read path = .ok text)
include h hread

lemma execute_of_accepted {p : Profile} (hp : ofYaml text = .ok p) :
    ∃ o, execute env c = .exited o := by
  obtain ⟨next, hnext⟩ := execute_eq_withProfile env h
  refine ⟨next p, ?_⟩
  rw [hnext, withProfile, ofFile, hread]
  simp only [hp, Except.mapError]

lemma execute_of_rejected {r : Rejection} (hr : ofYaml text = .error r) :
    execute env c = if (FileRejection.rejected path r).crashes then .crashed
      else .exited (refuse env (FileRejection.rejected path r).message) := by
  obtain ⟨next, hnext⟩ := execute_eq_withProfile env h
  rw [hnext, withProfile, ofFile_of_rejected hread hr]

end Execution

/-- How a command ends that takes the profile in a text. -/
structure Ends (env : Environment) (c : Command) (path : String) (p : Profile) : Prop where
  /-- With an error that names the rule, and without anything done. -/
  refused {v : Violation} (hv : p.check = .error v) (hsize : ¬ p.Oversized) :
    execute env c = .exited
      { status := .badInput
        log := [Log.error (FileRejection.ofViolation path v).message]
        environment := env }
  crashed : execute env c = .crashed ↔ p.Oversized

lemma ends {env : Environment} {c : Command} {path text : String} {p : Profile}
    (hpath : c.profilePath? = some path) (hread : env.files.read path = .ok text)
    (h : Settled text p) : Ends env c path p where
  refused hv hsize := by
    rw [execute_of_rejected hpath hread ((h.refused _).mpr ⟨hv, hsize⟩)]
    rfl
  crashed := by
    rw [← h.crashed]
    cases hr : ofYaml text with
    | ok q =>
      obtain ⟨o, ho⟩ := execute_of_accepted hpath hread hr
      simp [ho]
    | error r =>
      rw [execute_of_rejected hpath hread hr]
      cases r with
      | unreadable f => simp [FileRejection.crashes]
      | invalid i => cases i <;> simp [FileRejection.crashes]

end CommandLine

namespace Firmware
open Profile

/-- The profile that a build takes. -/
def BuildInput.profilePath (i : BuildInput) : String := i.profile.getD usualProfile

/-- A build whose memory layout can be copied and that then finds a profile with a text. -/
structure Reaches (i : BuildInput) (copied : Files) (text : String) : Prop where
  layout : ∃ directory, i.outDir = some directory ∧
    i.files.copy layoutName (Files.join directory layoutName) = .ok copied
  profile : copied.read i.profilePath = .ok text

/-- How a build ends that takes the profile in a text. -/
structure Ends (i : BuildInput) (copied : Files) (p : Profile) : Prop where
  /-- With an error that names the rule, and without any constants. -/
  refused {v : Violation} (hv : p.check = .error v) (hsize : ¬ p.Oversized) :
    (build i).result = .error (.profile (FileRejection.ofViolation i.profilePath v)) ∧
      (build i).files = copied
  crashed : (∃ r, (build i).result = .error (.profile r) ∧ r.crashes = true) ↔ p.Oversized

variable {i : BuildInput} {copied : Files} {text : String}

lemma build_eq_generate (h : Reaches i copied text) :
    ∃ directory, (build i).result = (generate copied directory i.profilePath).1 ∧
      (build i).files = (generate copied directory i.profilePath).2 := by
  obtain ⟨directory, hdirectory, hcopy⟩ := h.layout
  refine ⟨directory, ?_⟩
  simp only [build, hdirectory, hcopy]
  exact ⟨rfl, rfl⟩

lemma build_of_rejected (h : Reaches i copied text) {r : Rejection} (hr : ofYaml text = .error r) :
    (build i).result = .error (.profile (.rejected i.profilePath r)) ∧
      (build i).files = copied := by
  obtain ⟨directory, hresult, hfiles⟩ := build_eq_generate h
  rw [hresult, hfiles, generate, ofFile_of_rejected h.profile hr]
  exact ⟨rfl, rfl⟩

/-- A profile that is accepted is no reason for a build to fail. -/
lemma build_ne_profile (h : Reaches i copied text) {p : Profile} (hp : ofYaml text = .ok p)
    (r : FileRejection) : (build i).result ≠ .error (.profile r) := by
  obtain ⟨directory, hresult, -⟩ := build_eq_generate h
  have hfile : ofFile copied i.profilePath = .ok p := by
    rw [ofFile, h.profile]
    simp only [hp, Except.mapError]
  rw [hresult, generate, hfile]
  cases hcreate : copied.create (Files.join directory constantsName) (.text p.constants) with
  | error e => simp [hcreate]
  | ok f => simp [hcreate]

lemma ends (h : Reaches i copied text) {p : Profile} (hp : Settled text p) : Ends i copied p where
  refused hv hsize := build_of_rejected h ((hp.refused _).mpr ⟨hv, hsize⟩)
  crashed := by
    rw [← hp.crashed]
    cases hr : ofYaml text with
    | ok q => simp [build_ne_profile h hr]
    | error r =>
      rw [(build_of_rejected h hr).1]
      cases r with
      | unreadable f => simp [FileRejection.crashes]
      | invalid i => cases i <;> simp [FileRejection.crashes]

end Firmware

namespace CommandLine
open Profile

/-- For every text that holds a profile, validation either accepts it or returns the first
violation, and the commands and the firmware's build then end accordingly, exactly as long as no
images out of reach have to be laid out. -/
theorem crashed_iff_oversized {text : String} {p : Profile}
    (h : ofDocument (Yaml.Document.ofText text) = .ok p) :
    Settled text p ∧
      (∀ env c path, c.profilePath? = some path → env.files.read path = .ok text →
        Ends env c path p) ∧
      ∀ i copied, Firmware.Reaches i copied text → Firmware.Ends i copied p :=
  ⟨settled h, fun _ _ _ hpath hread => ends hpath hread (settled h),
    fun _ _ hreach => Firmware.ends hreach (settled h)⟩

/-- A profile that comes to the rule of the loops, whatever the size of its buffers. -/
def zeroLoop : Profile where
  countedLoop := { outer := 0 }
  bufferCopy := { size := 18446744073709551615 }

def zeroLoopText : String :=
  "counted_loop:\n  outer: 0\nbuffer_copy:\n  size: 18446744073709551615\n"

/-- The largest size does no harm behind a rule that does not hold. -/
theorem crashed_iff_oversized_zero_loop :
    ofDocument (Yaml.Document.ofText zeroLoopText) = .ok zeroLoop ∧
      ofYaml zeroLoopText = .error (.invalid (.violation (.zeroIterations 0 500))) ∧
      execute { files := { elsewhere := [("/loop.yaml", .text zeroLoopText)] } }
          (.check (some "/loop.yaml")) =
        .exited
          { status := .badInput
            log := [Log.error (FileRejection.ofViolation "/loop.yaml"
              (.zeroIterations 0 500)).message]
            environment := { files := { elsewhere := [("/loop.yaml", .text zeroLoopText)] } } } := by
  have hparsed : ofDocument (Yaml.Document.ofText zeroLoopText) = .ok zeroLoop := by
    rw [← Yaml.Decoder.toOption_eq_some_iff]
    decide +kernel
  obtain ⟨hsettled, hcommands, -⟩ := crashed_iff_oversized hparsed
  have hcheck : zeroLoop.check = .error (.zeroIterations 0 500) := rfl
  have hsize : ¬ zeroLoop.Oversized := fun hover => absurd hover.opens.2.1 (by decide)
  exact ⟨hparsed, (hsettled.refused _).mpr ⟨hcheck, hsize⟩,
    (hcommands _ _ "/loop.yaml" rfl rfl).refused hcheck hsize⟩

/-- A profile whose only peculiarity is that its buffers are one byte larger than any allocation. -/
def overlarge : Profile where
  bufferCopy := { size := 9223372036854775808 }

def overlargeText : String := "buffer_copy:\n  size: 9223372036854775808\n"

/-- All rules hold for the profile of a text, and still it is not accepted and nothing that takes it
ends with an error. -/
theorem overlarge_crashes :
    ofDocument (Yaml.Document.ofText overlargeText) = .ok overlarge ∧
      overlarge.check = .ok () ∧
      ofYaml overlargeText = .error (.invalid .crash) ∧
      execute { files := { elsewhere := [("/large.yaml", .text overlargeText)] } }
        (.check (some "/large.yaml")) = .crashed := by
  have hparsed : ofDocument (Yaml.Document.ofText overlargeText) = .ok overlarge := by
    rw [← Yaml.Decoder.toOption_eq_some_iff]
    decide +kernel
  have hbuffers : ∃ buffers, overlarge.bufferCopy.setUp = .ok buffers := ⟨_, rfl⟩
  have hcheck : overlarge.check = .ok () :=
    overlarge.check_eq_ok_iff.mpr ⟨rfl, by decide, hbuffers, ⟨_, rfl⟩, by decide⟩
  have hsize : overlarge.Oversized := ⟨⟨rfl, by decide, by decide⟩, by decide, by decide, by decide⟩
  have hpath : (Command.check (some "/large.yaml")).profilePath? = some "/large.yaml" := rfl
  exact ⟨hparsed, hcheck, (settled hparsed).crashed.mpr hsize,
    (ends hpath rfl (settled hparsed)).crashed.mpr hsize⟩

end CommandLine
end FaultBench
