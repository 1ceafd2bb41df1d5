import FaultBench.Profile.Validation
import FaultBench.Proofs.Workload.Contents
import FaultBench.Proofs.Workload.Stepping
import Mathlib.Algebra.GroupWithZero.Nat

/-! Validation against what is built from a profile. The rules of the copy buffers are checked with
both images laid out, and come to the assertions under which the buffers are set up; the rule of the
loops is about the exact product of their bounds. -/
namespace FaultBench.Profile

/-- A rule as a check that stops at its violation. -/
def require (holds : Prop) [Decidable holds] (v : Violation) : Except Violation Unit :=
  if holds then .ok () else .error v

def CountedLoop.check (l : CountedLoop) : Except Violation Unit := do
  require (¬ (l.outer = 0 ∨ l.inner = 0)) (.zeroIterations l.outer l.inner)
  require (l.expected?.isSome) (.iterationOverflow l.outer l.inner)

/-- Lengths first, then the images of both buffers as a whole. -/
def CopyBuffers.check (c : CopyBuffers) : Except Violation Unit := do
  require (c.size ≠ 0) .zeroBufferSize
  require (c.source.span ≤ c.size.toNat) (.sequenceTooLong .source c.source.span c.size)
  require (c.destination.span ≤ c.size.toNat)
    (.sequenceTooLong .destination c.destination.span c.size)
  require (c.sourceImage ≠ c.destinationImage) .indistinguishableBuffers

/-- The checks of a profile's parts, one after the other. -/
def check (p : Profile) : Except Violation Unit := do
  require (p.schemaVersion = "1.0") (.unsupportedSchema p.schemaVersion)
  p.countedLoop.check
  p.bufferCopy.check
  require (p.unrolled.executions ∈ ([10, 100, 1000, 10000] : List UInt32))
    (.unsupportedExecutions p.unrolled.executions)
  require (p.serial.baud ≠ 0) .zeroBaud

section Require

variable {holds : Prop} [Decidable holds] {v w : Violation} {later : Except Violation Unit}

@[simp] lemma require_eq_ok : require holds v = .ok () ↔ holds := by
  rw [require]
  split <;> simp [*]

@[simp] lemma require_eq_error : require holds v = .error w ↔ ¬ holds ∧ w = v := by
  rw [require]
  split <;> simp [*, eq_comm]

lemma bind_eq_ok {first : Except Violation Unit} :
    (first >>= fun _ => later) = .ok () ↔ first = .ok () ∧ later = .ok () := by
  cases first <;> simp [bind, Except.bind]

lemma bind_eq_error {first : Except Violation Unit} :
    (first >>= fun _ => later) = .error v ↔
      first = .error v ∨ first = .ok () ∧ later = .error v := by
  cases first <;> simp [bind, Except.bind]

end Require

/-! ### The rules in their order -/

/-- The failure of the first rule that does not hold. -/
def firstFailure (rules : List (Bool × Invalid)) : Except Invalid Unit :=
  match rules.find? fun r => !r.1 with
  | none => .ok ()
  | some r => .error r.2

lemma validate_eq (p : Profile) : p.validate = firstFailure p.rules := rfl

lemma firstFailure_cons (holds : Bool) (i : Invalid) (rules : List (Bool × Invalid)) :
    firstFailure ((holds, i) :: rules) = if holds then firstFailure rules else .error i := by
  cases holds <;> rfl

/-- A rule that holds can be left out. -/
lemma firstFailure_of_true {holds : Bool} (h : holds = true) (i : Invalid)
    (rules : List (Bool × Invalid)) : firstFailure ((holds, i) :: rules) = firstFailure rules := by
  rw [firstFailure_cons, if_pos h]

/-- A rule in front is a check in front, and the rules behind it matter only where it holds. -/
lemma firstFailure_require {holds : Bool} {P : Prop} [Decidable P] (h : holds = true ↔ P)
    (v : Violation) {rules : List (Bool × Invalid)} {later : Except Violation Unit}
    (hlater : P → firstFailure rules = later.mapError .violation) :
    firstFailure ((holds, .violation v) :: rules) =
      (require P v >>= fun _ => later).mapError .violation := by
  rw [firstFailure_cons, require]
  by_cases hp : P
  · rw [if_pos (h.mpr hp), if_pos hp, hlater hp]
    rfl
  · rw [if_neg (fun hholds => hp (h.mp hholds)), if_neg hp]
    rfl

lemma firstFailure_last {holds : Bool} {P : Prop} [Decidable P] (h : holds = true ↔ P)
    (v : Violation) :
    firstFailure [(holds, .violation v)] = (require P v).mapError .violation := by
  have hpure : (require P v >>= fun _ => .ok ()) = require P v := by
    cases require P v <;> rfl
  have hnone : firstFailure [] = (Except.ok () : Except Violation Unit).mapError .violation := rfl
  rw [firstFailure_require h v fun _ => hnone, hpure]

section Rules

variable {p : Profile}

/-- All rules hold for a valid profile. -/
lemma rule_of_validate (h : p.validate = .ok ()) : ∀ r ∈ p.rules, r.1 = true := by
  rw [validate] at h
  split at h
  · next hnone => simpa using List.find?_eq_none.mp hnone
  · cases h

/-- What the rules come to for the workloads. -/
lemma rules_of_validate (h : p.validate = .ok ()) :
    p.countedLoop.expected?.isSome ∧ p.bufferCopy.size.toNat ≠ 0 ∧
      p.bufferCopy.source.fits p.bufferCopy.size.toNat ∧
      p.bufferCopy.destination.fits p.bufferCopy.size.toNat ∧
      p.bufferCopy.size.toNat ≤ allocationLimit ∧
      p.bufferCopy.source.differsFrom p.bufferCopy.destination p.bufferCopy.size.toNat := by
  have hrules := rule_of_validate h
  simp only [rules, List.forall_mem_cons, CopyBuffers.fits, decide_eq_true_eq] at hrules
  obtain ⟨-, -, hcount, hsize, hsource, hdestination, hlimit, hdiffer, -⟩ := hrules
  exact ⟨hcount, by simpa [← UInt64.toNat_inj] using hsize, hsource, hdestination, hlimit, hdiffer⟩

lemma schema_of_validate (h : p.validate = .ok ()) : p.schemaVersion = "1.0" :=
  of_decide_eq_true (rule_of_validate h _ List.mem_cons_self)

end Rules

lemma CountedLoop.bounds_iff (l : CountedLoop) :
    ((l.outer ≠ 0 ∧ l.inner ≠ 0) ∧ l.expected?.isSome = true) ↔
      1 ≤ l.outer.toNat * l.inner.toNat ∧ l.outer.toNat * l.inner.toNat ≤ 2 ^ 32 - 1 := by
  have hzero (n : UInt32) : n = 0 ↔ n.toNat = 0 := by
    rw [← UInt32.toNat_inj]
    rfl
  have hfits : l.expected?.isSome = true ↔ l.outer.toNat * l.inner.toNat < UInt32.size := by
    rw [expected?]
    split <;> simp [*]
  rw [hfits, ← not_or, hzero, hzero, ← Nat.mul_eq_zero]
  simp only [UInt32.size]
  omega

/-- The rules that come before those of the buffers. -/
def Opens (p : Profile) : Prop :=
  p.schemaVersion = "1.0" ∧ 1 ≤ p.countedLoop.outer.toNat * p.countedLoop.inner.toNat ∧
    p.countedLoop.outer.toNat * p.countedLoop.inner.toNat ≤ 2 ^ 32 - 1

/-- Nothing keeps the images from being laid out, and no allocation is large enough for them. -/
structure Oversized (p : Profile) : Prop where
  opens : p.Opens
  source : p.bufferCopy.source.span ≤ p.bufferCopy.size.toNat
  destination : p.bufferCopy.destination.span ≤ p.bufferCopy.size.toNat
  large : allocationLimit < p.bufferCopy.size.toNat

/-- Validation comes to the checks, unless the images are out of reach. -/
theorem validate_eq_check_of_not_oversized {p : Profile} (h : ¬ p.Oversized) :
    p.validate = p.check.mapError .violation := by
  simp only [validate_eq, rules, check, CountedLoop.check, CopyBuffers.check, bind_assoc]
  refine firstFailure_require decide_eq_true_iff _ fun hschema => ?_
  refine firstFailure_require (by simp) _ fun hbounds => ?_
  refine firstFailure_require Iff.rfl _ fun hexpected => ?_
  refine firstFailure_require decide_eq_true_iff _ fun _ => ?_
  refine firstFailure_require (BufferInit.fits_iff _ _) _ fun hsource => ?_
  refine firstFailure_require (BufferInit.fits_iff _ _) _ fun hdestination => ?_
  have hopens : p.Opens :=
    ⟨hschema, p.countedLoop.bounds_iff.mp ⟨not_or.mp hbounds, hexpected⟩⟩
  have hlimit : p.bufferCopy.size.toNat ≤ allocationLimit := by
    by_contra hlarge
    exact h ⟨hopens, hsource, hdestination, Nat.not_le.mp hlarge⟩
  rw [firstFailure_of_true (decide_eq_true hlimit)]
  refine firstFailure_require (BufferInit.differsFrom_iff_image_ne _ _ _) _ fun _ => ?_
  refine firstFailure_require decide_eq_true_iff _ fun _ => ?_
  exact firstFailure_last decide_eq_true_iff _

/-- Validation comes to the checks, as long as the images can be laid out. -/
theorem validate_eq_check {p : Profile} (h : p.bufferCopy.size.toNat ≤ allocationLimit) :
    p.validate = p.check.mapError .violation :=
  validate_eq_check_of_not_oversized fun hover => absurd hover.large (Nat.not_lt.mpr h)

/-- Images that are out of reach end the program, whatever the remaining rules say. -/
theorem validate_of_oversized {p : Profile} (h : p.Oversized) : p.validate = .error .crash := by
  have hschema : p.schemaVersion = currentSchema := h.opens.1
  obtain ⟨hbounds, hexpected⟩ := p.countedLoop.bounds_iff.mpr h.opens.2
  have hlarge := h.large
  have hsize : p.bufferCopy.size ≠ 0 := fun hzero => by simp [hzero] at hlarge
  have hsource : p.bufferCopy.fits p.bufferCopy.source = true :=
    (BufferInit.fits_iff _ _).mpr h.source
  have hdestination : p.bufferCopy.fits p.bufferCopy.destination = true :=
    (BufferInit.fits_iff _ _).mpr h.destination
  have hlimit : decide (p.bufferCopy.size.toNat ≤ allocationLimit) = false :=
    decide_eq_false (Nat.not_le.mpr hlarge)
  rw [validate_eq, rules, firstFailure_of_true (decide_eq_true hschema),
    firstFailure_of_true (decide_eq_true hbounds), firstFailure_of_true hexpected,
    firstFailure_of_true (decide_eq_true hsize), firstFailure_of_true hsource,
    firstFailure_of_true hdestination, firstFailure_cons, hlimit]
  rfl

/-! ### What is built -/

/-- The buffers of a target. -/
def CopyBuffers.setUp (c : CopyBuffers) : Except BufferCopy.SetupError BufferCopy :=
  BufferCopy.new c.size.toNat c.source c.destination

/-- The violation that stands for a failed assertion. -/
def CopyBuffers.violation (c : CopyBuffers) : BufferCopy.SetupError → Violation
  | .emptyBuffers => .zeroBufferSize
  | .sourceTooLong => .sequenceTooLong .source c.source.span c.size
  | .destinationTooLong => .sequenceTooLong .destination c.destination.span c.size
  | .indistinguishable => .indistinguishableBuffers

lemma toNat_size_eq_zero {c : CopyBuffers} : c.size.toNat = 0 ↔ c.size = 0 := by
  rw [← UInt64.toNat_inj]
  rfl

/-- The checks of the buffers come to the assertions under which they are set up, in the same
order. -/
theorem CopyBuffers.check_eq (c : CopyBuffers) :
    c.check = (c.setUp.mapError c.violation).map fun _ => () := by
  have himages : (c.source.differsFrom c.destination c.size.toNat = true) ↔
      c.sourceImage ≠ c.destinationImage := BufferInit.differsFrom_iff_image_ne _ _ _
  rw [setUp, BufferCopy.new, check]
  simp only [require, toNat_size_eq_zero, BufferInit.fits_iff, himages]
  by_cases hzero : c.size = 0
  · rw [if_pos hzero, if_neg (not_not.mpr hzero)]
    rfl
  · rw [if_neg hzero, if_pos hzero]
    by_cases hsource : c.source.span ≤ c.size.toNat
    · rw [if_neg (not_not.mpr hsource), if_pos hsource]
      by_cases hdestination : c.destination.span ≤ c.size.toNat
      · rw [if_neg (not_not.mpr hdestination), if_pos hdestination]
        by_cases hdiffer : c.sourceImage ≠ c.destinationImage
        · rw [if_neg (not_not.mpr hdiffer), if_pos hdiffer]
          rfl
        · rw [if_pos hdiffer, if_neg hdiffer]
          rfl
      · rw [if_pos hdestination, if_neg hdestination]
        rfl
    · rw [if_pos hsource, if_neg hsource]
      rfl

lemma CopyBuffers.check_eq_ok_iff (c : CopyBuffers) :
    c.check = .ok () ↔ ∃ buffers, c.setUp = .ok buffers := by
  rw [c.check_eq]
  cases c.setUp with
  | error e => simp [Except.map, Except.mapError]
  | ok buffers => simp [Except.map, Except.mapError]

lemma CopyBuffers.check_eq_error_iff (c : CopyBuffers) (v : Violation) :
    c.check = .error v ↔ ∃ e, c.setUp = .error e ∧ v = c.violation e := by
  rw [c.check_eq]
  cases c.setUp with
  | error e => simp [Except.map, Except.mapError, eq_comm]
  | ok buffers => simp [Except.map, Except.mapError]

/-- The loops are accepted exactly if their bounds have a product that a counter can hold and that
is not zero. -/
theorem CountedLoop.check_eq_ok_iff (l : CountedLoop) :
    l.check = .ok () ↔
      1 ≤ l.outer.toNat * l.inner.toNat ∧ l.outer.toNat * l.inner.toNat ≤ 2 ^ 32 - 1 := by
  rw [check, bind_eq_ok, require_eq_ok, require_eq_ok, not_or, bounds_iff]

/-! ### Agreement -/

/-- What a target built from a profile needs. -/
structure Buildable (p : Profile) : Prop where
  schema : p.schemaVersion = "1.0"
  /-- The exact product of the bounds. -/
  iterations : 1 ≤ p.countedLoop.outer.toNat * p.countedLoop.inner.toNat ∧
    p.countedLoop.outer.toNat * p.countedLoop.inner.toNat ≤ 2 ^ 32 - 1
  buffers : ∃ buffers, p.bufferCopy.setUp = .ok buffers
  sequence : ∃ steps, Counting.straight? p.unrolled.executions = some steps
  baud : p.serial.baud ≠ 0

/-- The violations of the rules of the copy buffers. -/
def Violation.OfBuffers : Violation → Prop
  | .zeroBufferSize | .sequenceTooLong _ _ _ | .indistinguishableBuffers => True
  | _ => False

lemma CopyBuffers.violation_ofBuffers (c : CopyBuffers) (e : BufferCopy.SetupError) :
    (c.violation e).OfBuffers := by
  cases e <;> trivial

theorem check_eq_ok_iff (p : Profile) : p.check = .ok () ↔ p.Buildable := by
  have hsequence : (∃ steps, Counting.straight? p.unrolled.executions = some steps) ↔
      p.unrolled.executions ∈ ([10, 100, 1000, 10000] : List UInt32) :=
    Option.isSome_iff_exists.symm.trans (Counting.straight?_isSome_iff _)
  rw [check]
  simp only [bind_eq_ok, require_eq_ok, CountedLoop.check_eq_ok_iff, CopyBuffers.check_eq_ok_iff,
    ← hsequence]
  constructor
  · rintro ⟨hschema, hiterations, hbuffers, hsteps, hbaud⟩
    exact ⟨hschema, hiterations, hbuffers, hsteps, hbaud⟩
  · rintro ⟨hschema, hiterations, hbuffers, hsteps, hbaud⟩
    exact ⟨hschema, hiterations, hbuffers, hsteps, hbaud⟩

lemma CountedLoop.not_ofBuffers {l : CountedLoop} {v : Violation} (h : l.check = .error v) :
    ¬ v.OfBuffers := by
  rw [check, bind_eq_error, require_eq_error, require_eq_error] at h
  obtain ⟨-, rfl⟩ | ⟨-, -, rfl⟩ := h
  · exact not_false
  · exact not_false

/-- A rule of the buffers is the first one violated exactly if the buffers cannot be set up and
nothing before them is wrong, and the violation is the failed assertion's. -/
theorem check_eq_error_iff (p : Profile) {v : Violation} (hv : v.OfBuffers) :
    p.check = .error v ↔ p.Opens ∧ ∃ e, p.bufferCopy.setUp = .error e ∧
      v = p.bufferCopy.violation e := by
  rw [check, Opens]
  simp only [bind_eq_error, require_eq_ok, require_eq_error, CountedLoop.check_eq_ok_iff,
    CopyBuffers.check_eq_error_iff]
  constructor
  · rintro (⟨-, rfl⟩ | ⟨hschema, hloop | ⟨hloop, hsetup | ⟨-, ⟨-, rfl⟩ | ⟨-, -, rfl⟩⟩⟩⟩)
    · exact absurd hv not_false
    · exact absurd hv (CountedLoop.not_ofBuffers hloop)
    · exact ⟨⟨hschema, hloop⟩, hsetup⟩
    · exact absurd hv not_false
    · exact absurd hv not_false
  · rintro ⟨⟨hschema, hloop⟩, hsetup⟩
    exact .inr ⟨hschema, .inr ⟨hloop, .inl hsetup⟩⟩

section LaidOut

variable {p : Profile} (h : p.bufferCopy.size.toNat ≤ allocationLimit)
include h

theorem validate_eq_ok_iff : p.validate = .ok () ↔ p.Buildable := by
  rw [validate_eq_check h, ← p.check_eq_ok_iff]
  cases p.check <;> simp [Except.mapError]

theorem validate_eq_error_iff {v : Violation} (hv : v.OfBuffers) :
    p.validate = .error (.violation v) ↔ p.Opens ∧ ∃ e, p.bufferCopy.setUp = .error e ∧
      v = p.bufferCopy.violation e := by
  rw [validate_eq_check h, ← p.check_eq_error_iff hv]
  cases p.check <;> simp [Except.mapError]

end LaidOut

end FaultBench.Profile
