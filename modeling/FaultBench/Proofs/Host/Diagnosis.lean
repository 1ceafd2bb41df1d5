import FaultBench.Host.Interpretation
import FaultBench.Proofs.Profile.Validation
import FaultBench.Proofs.Wire.Counter
import FaultBench.Proofs.Workload.Verdict

/-! What the host reads out of a diagnostic of a workload that was built from a validated profile:
always the workload's own kind of answer, and always a difference. -/
namespace FaultBench

namespace Profile

variable {p : Profile} {k : Workload.Kind} {w : Workload}

/-- The count of a validated loop is the product that its target compares with. -/
lemma expected?_of_validate (h : p.validate = .ok ()) : p.countedLoop.expected? =
    some (Counting.total p.countedLoop.outer p.countedLoop.inner) := by
  have hfits := (rules_of_validate h).1
  rw [CountedLoop.expected?] at hfits ⊢
  split at hfits
  · next hlt => rw [if_pos hlt, UInt32.ofNat_mul, UInt32.ofNat_toNat, UInt32.ofNat_toNat,
      Counting.total]
  · cases hfits

/-- Buffers can be set up from a validated profile. -/
lemma new_of_validate (h : p.validate = .ok ()) :
    BufferCopy.new p.bufferCopy.size.toNat p.bufferCopy.source p.bufferCopy.destination =
      .ok ⟨.replicate p.bufferCopy.size.toNat 0, .replicate p.bufferCopy.size.toNat 0,
        p.bufferCopy.source, p.bufferCopy.destination⟩ := by
  obtain ⟨-, hzero, hsource, hdestination, -, hdiffer⟩ := rules_of_validate h
  rw [BufferCopy.new, if_neg hzero, if_neg (not_not.mpr hsource), if_neg (not_not.mpr hdestination),
    if_neg (not_not.mpr hdiffer)]

/-- A target can be built from a validated profile for every kind of workload, and what it reports
of a fault has the size that the host expects. -/
theorem workload_of_validate (h : p.validate = .ok ()) (k : Workload.Kind) :
    ∃ w, p.workload k = .ok w ∧ w.Sized ∧ w.payloadLength = p.faultPayloadLength k ∧
      0 < w.payloadLength := by
  cases k with
  | countedLoop => exact ⟨_, rfl, trivial, rfl, Nat.zero_lt_succ 3⟩
  | unrolled => exact ⟨_, rfl, trivial, rfl, Nat.zero_lt_succ 3⟩
  | bufferCopy =>
    obtain ⟨-, hzero, -⟩ := rules_of_validate h
    refine ⟨_, by rw [workload, new_of_validate h]; rfl, by simp [Workload.Sized, BufferCopy.Sized],
      by simp [Workload.payloadLength, BufferCopy.size, faultPayloadLength], ?_⟩
    simpa [Workload.payloadLength, BufferCopy.size] using Nat.pos_iff_ne_zero.mpr hzero

end Profile

namespace Host

lemma mem_differences {i j : ℕ} {as bs : List UInt8} :
    j ∈ differences i as bs ↔
      ∃ n a b, j = i + n ∧ as[n]? = some a ∧ bs[n]? = some b ∧ a ≠ b := by
  induction as generalizing i bs with
  | nil => simp [differences]
  | cons a as ih =>
    cases bs with
    | nil => simp [differences]
    | cons b bs =>
      rw [differences, List.mem_append, ih]
      constructor
      · rintro (h | ⟨n, a', b', rfl, ha, hb, hne⟩)
        · split at h
          · cases h
          · next hne => exact ⟨0, a, b, by simpa using h, rfl, rfl, hne⟩
        · exact ⟨n + 1, a', b', by omega, ha, hb, hne⟩
      · rintro ⟨_ | n, a', b', rfl, ha, hb, hne⟩
        · obtain ⟨rfl, rfl⟩ : a = a' ∧ b = b' := by simpa using And.intro ha hb
          left
          simp [hne]
        · exact .inr ⟨n, a', b', by omega, ha, hb, hne⟩

/-- Positions come in order. -/
lemma pairwise_differences (i : ℕ) (as bs : List UInt8) :
    (differences i as bs).Pairwise (· < ·) := by
  induction as generalizing i bs with
  | nil => simp [differences]
  | cons a as ih =>
    cases bs with
    | nil => simp [differences]
    | cons b bs =>
      rw [differences]
      split
      · exact ih (i + 1) bs
      · refine List.pairwise_cons.mpr ⟨fun j hj => ?_, ih (i + 1) bs⟩
        obtain ⟨n, -, -, rfl, -⟩ := mem_differences.mp hj
        omega

lemma differences_eq_nil {as bs : List UInt8} (hlength : as.length = bs.length)
    (h : differences 0 as bs = []) : as = bs := by
  refine List.ext_getElem hlength fun n ha hb => ?_
  by_contra hne
  have hmem : n ∈ differences 0 as bs :=
    mem_differences.mpr ⟨n, as[n], bs[n], by omega, by simp, by simp, hne⟩
  rw [h] at hmem
  cases hmem

lemma interpret_bufferCopy {p : Profile} {payload : List UInt8}
    (h : payload.length = p.bufferCopy.size.toNat) :
    interpret p .bufferCopy payload =
      .buffer (differences 0 payload p.bufferCopy.sourceImage)
        (payload = p.bufferCopy.destinationImage) := by
  have hcompare : interpret p .bufferCopy payload = compareBuffers p.bufferCopy payload := by
    rw [interpret, if_neg (fun hne => hne h)]
    cases Wire.Counter.decode? payload <;> rfl
  rw [hcompare, compareBuffers, h, Nat.min_self]
  simp only [true_and]
  rfl

namespace Interpretation

/-- An interpretation says in the host's terms what a diagnostic says in the target's: a count that
is not the expected one, or a destination with all the places at which it is not the source's
image, of which there is at least one. -/
def Explains (p : Profile) (k : Workload.Kind) : Diagnostic → Interpretation → Prop
  | .counter value, .counter observed expected =>
    observed = value ∧ p.expectedCounter? k = some expected ∧ observed ≠ expected
  | .buffer bytes, .buffer differing untouched =>
    p.expectedCounter? k = none ∧ differing ≠ [] ∧ differing.Pairwise (· < ·) ∧
      (∀ i, i ∈ differing ↔
        ∃ a b, bytes[i]? = some a ∧ p.bufferCopy.sourceImage[i]? = some b ∧ a ≠ b) ∧
      (untouched = true ↔ bytes = p.bufferCopy.destinationImage)
  | _, _ => False

variable {p : Profile} {k : Workload.Kind} {w : Workload} {d : Disturbance}

lemma explains_counter {value expected : UInt32} (hk : p.expectedCounter? k = some expected)
    (hlength : p.faultPayloadLength k = Wire.Counter.width) (hne : value ≠ expected) :
    Explains p k (.counter value) (interpret p k (Wire.Counter.encode value)) := by
  rw [interpret, if_neg (by simp [hlength]), Wire.Counter.decode?_encode, hk]
  exact ⟨rfl, hk, hne⟩

lemma explains_buffer {bytes : List UInt8} (hlength : bytes.length = p.bufferCopy.size.toNat)
    (hne : bytes ≠ p.bufferCopy.sourceImage) :
    Explains p .bufferCopy (.buffer bytes) (interpret p .bufferCopy bytes) := by
  have himage : p.bufferCopy.sourceImage.length = p.bufferCopy.size.toNat :=
    BufferInit.length_image _ _
  rw [interpret_bufferCopy hlength]
  refine ⟨rfl, fun h => hne (differences_eq_nil (hlength.trans himage.symm) h),
    pairwise_differences _ _ _, fun i => ?_, decide_eq_true_iff⟩
  rw [mem_differences]
  simp

/-- No diagnostic of a target is taken for something else. -/
theorem explains_diagnostic (h : p.validate = .ok ()) (hw : p.workload k = .ok w)
    {diagnostic : Diagnostic} (hv : w.verdict d = .fault diagnostic) :
    Explains p k diagnostic (interpret p k diagnostic.bytes) := by
  cases k with
  | countedLoop =>
    cases hw
    rw [Workload.verdict_countedLoop] at hv
    obtain ⟨rfl, hne⟩ := Workload.judge_eq_fault hv
    exact explains_counter (Profile.expected?_of_validate h) rfl hne
  | unrolled =>
    cases hw
    rw [Workload.verdict_unrolled] at hv
    obtain ⟨rfl, hne⟩ := Workload.judge_eq_fault hv
    exact explains_counter rfl rfl hne
  | bufferCopy =>
    rw [Profile.workload, Profile.new_of_validate h] at hw
    cases hw
    have hsized : (⟨.replicate p.bufferCopy.size.toNat 0, .replicate p.bufferCopy.size.toNat 0,
        p.bufferCopy.source, p.bufferCopy.destination⟩ : BufferCopy).Sized := rfl
    rw [Workload.verdict_bufferCopy hsized] at hv
    split at hv
    · cases hv
    · next hne =>
      cases hv
      refine explains_buffer (by simp [BufferCopy.size]) fun heq => hne ?_
      rw [heq]
      simp [Profile.CopyBuffers.sourceImage, BufferCopy.size]

end Interpretation

end Host
end FaultBench
