import FaultBench.Profile.Constants
import FaultBench.Profile.File

/-! The build step of the firmware: the memory layout goes to the output directory, and so do the
constants of the profile, unless the profile is not accepted. -/
namespace FaultBench.Firmware

structure BuildInput where
  files : Files
  outDir : Option String := none
  /-- The profile to use instead of the usual one. -/
  profile : Option String := none
  deriving DecidableEq, Repr

inductive BuildError where
  | noOutDir
  | layoutNotCopied (e : FileError)
  | profile (r : Profile.FileRejection)
  | constantsNotWritten (e : FileError)
  deriving DecidableEq, Repr

def BuildError.message : BuildError → String
  | .noOutDir => "OUT_DIR is not set: environment variable not found"
  | .layoutNotCopied e => "Failed to copy memory.x: " ++ e.message
  | .profile r => r.message
  | .constantsNotWritten e => "Failed to write generated profile constants: " ++ e.message

/-- The end of a build: its result, the files behind it and the lines printed. -/
structure Built where
  result : Except BuildError Unit
  files : Files
  lines : List String := []

def layoutName : String := "memory.x"
def constantsName : String := "profile.rs"
def usualProfile : String := "profile.yaml"

/-- The lines that tell what the build links and what it depends on. -/
def directives (outDir profile : String) : List String :=
  ["cargo:rustc-link-search=" ++ outDir, "cargo:rustc-link-arg=-Tlink.x",
    "cargo:rerun-if-changed=" ++ layoutName, "cargo:rerun-if-env-changed=FI_PROFILE",
    "cargo:rerun-if-changed=" ++ profile]

def generate (files : Files) (outDir profile : String) : Except BuildError Unit × Files :=
  match Profile.ofFile files profile with
  | .error r => (.error (.profile r), files)
  | .ok p =>
    match files.create (Files.join outDir constantsName) (.text p.constants) with
    | .error e => (.error (.constantsNotWritten e), files)
    | .ok files => (.ok (), files)

def build (i : BuildInput) : Built :=
  match i.outDir with
  | none => ⟨.error .noOutDir, i.files, []⟩
  | some outDir =>
    match i.files.copy layoutName (Files.join outDir layoutName) with
    | .error e => ⟨.error (.layoutNotCopied e), i.files, []⟩
    | .ok files =>
      let profile := i.profile.getD usualProfile
      let (result, files) := generate files outDir profile
      ⟨result, files, directives outDir profile⟩

end FaultBench.Firmware
