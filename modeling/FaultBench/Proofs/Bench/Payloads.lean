import FaultBench.Proofs.Bench.Prediction

/-! What a host says of any payload whatsoever, whether a target would send it or not. The kind of
workload alone decides how a payload of the announced size is read, so four bytes of a buffer are
never taken for a counter. -/
namespace FaultBench

/-- What a target that was built from a profile counts when nothing disturbs it. -/
def Profile.FaultFree (p : Profile) (k : Workload.Kind) (value : UInt32) : Prop :=
  ∃ w, p.workload k = .ok w ∧ w.stepped? = some value ∧ (w.prepare.run {}).1 = .counter value

namespace Host

/-- A destination compared with both images. -/
structure Comparison (c : Profile.CopyBuffers) (payload : List UInt8) (differing : List ℕ)
    (untouched : Bool) : Prop where
  ordered : differing.Pairwise (· < ·)
  mem_iff (i : ℕ) : i ∈ differing ↔ i < c.size.toNat ∧ payload[i]? ≠ c.sourceImage[i]?
  untouched_iff : untouched = true ↔ payload = c.destinationImage
  nil_iff : differing = [] ↔ payload = c.sourceImage
  /-- A copy that did not happen left its trace. -/
  ne_nil : untouched = true → differing ≠ []

lemma mem_differences_iff {as bs : List UInt8} (h : as.length = bs.length) {i : ℕ} :
    i ∈ differences 0 as bs ↔ i < bs.length ∧ as[i]? ≠ bs[i]? := by
  rw [mem_differences]
  constructor
  · rintro ⟨n, a, b, rfl, ha, hb, hne⟩
    rw [Nat.zero_add]
    obtain ⟨hlt, -⟩ := List.getElem?_eq_some_iff.mp hb
    exact ⟨hlt, by rw [ha, hb]; exact fun heq => hne (Option.some.inj heq)⟩
  · rintro ⟨hlt, hne⟩
    have hlt' : i < as.length := h ▸ hlt
    refine ⟨i, as[i], bs[i], by omega, by simp, by simp, fun heq => hne ?_⟩
    rw [List.getElem?_eq_getElem hlt', List.getElem?_eq_getElem hlt, heq]

lemma differences_eq_nil_iff {as bs : List UInt8} (h : as.length = bs.length) :
    differences 0 as bs = [] ↔ as = bs := by
  refine ⟨differences_eq_nil h, fun heq => List.eq_nil_iff_forall_not_mem.mpr fun i hi => ?_⟩
  exact ((mem_differences_iff h).mp hi).2 (by rw [heq])

variable {p : Profile} {k : Workload.Kind} {payload : List UInt8}

lemma comparison_differences {c : Profile.CopyBuffers} (hlength : payload.length = c.size.toNat)
    (hne : c.sourceImage ≠ c.destinationImage) :
    Comparison c payload (differences 0 payload c.sourceImage)
      (payload = c.destinationImage) := by
  have himage : c.sourceImage.length = c.size.toNat := BufferInit.length_image _ _
  have hsame : payload.length = c.sourceImage.length := hlength.trans himage.symm
  refine ⟨pairwise_differences _ _ _, fun i => ?_, decide_eq_true_iff, differences_eq_nil_iff hsame,
    fun huntouched hnil => ?_⟩
  · rw [mem_differences_iff hsame, himage]
  · rw [differences_eq_nil_iff hsame] at hnil
    exact hne (hnil.symm.trans (of_decide_eq_true huntouched))

/-- A counter is read from all four bytes that are not those of a buffer. -/
lemma interpret_counter {expected : UInt32} (hk : p.expectedCounter? k = some expected)
    (hwidth : p.faultPayloadLength k = Wire.Counter.width)
    (h : payload.length = p.faultPayloadLength k) :
    ∃ observed, interpret p k payload = .counter observed expected ∧
      Wire.Counter.encode observed = payload := by
  obtain ⟨observed, hobserved⟩ :=
    Option.isSome_iff_exists.mp (Wire.Counter.isSome_decode? (h.trans hwidth))
  refine ⟨observed, ?_, Wire.Counter.encode_of_decode? hobserved⟩
  rw [interpret, if_neg (fun hne => hne h), hobserved, hk]

lemma interpret_malformed (h : payload.length ≠ p.faultPayloadLength k) :
    interpret p k payload = .malformed payload.length (p.faultPayloadLength k) := if_pos h

lemma crashes_interpret (h : p.validate = .ok ()) (k : Workload.Kind) (payload : List UInt8) :
    (interpret p k payload).crashes p = false := by
  obtain ⟨-, -, -, -, hlimit, -⟩ := Profile.rules_of_validate h
  cases interpret p k payload with
  | buffer differing untouched => exact decide_eq_false (Nat.not_lt.mpr hlimit)
  | _ => rfl

end Host

namespace Bench
open Host

/-- The predicted value of a counter is that of a run without faults. -/
lemma faultFree_of_validate {p : Profile} {k : Workload.Kind} (h : p.validate = .ok ())
    (hk : k ≠ .bufferCopy) :
    ∃ expected, p.expectedCounter? k = some expected ∧ p.FaultFree k expected ∧
      p.faultPayloadLength k = Wire.Counter.width := by
  cases k with
  | countedLoop =>
    obtain ⟨expected, hexpected, hstepped, hrun⟩ := (performs_countedLoop h).counts hk
    exact ⟨expected, hexpected, ⟨_, rfl, hstepped, hrun⟩, rfl⟩
  | unrolled =>
    obtain ⟨expected, hexpected, hstepped, hrun⟩ := (performs_unrolled h).counts hk
    exact ⟨expected, hexpected, ⟨_, rfl, hstepped, hrun⟩, rfl⟩
  | bufferCopy => exact absurd rfl hk

/-- Whatever its bytes, a payload of the wrong size is malformed and nothing else is. One of the
announced size is the counter that its bytes are, beside the count of a run without faults, or the
destination of a copy with all the places at which it is not the source's image. Two images that
differ are never both found in it. -/
theorem interpret_exact {p : Profile} (h : p.validate = .ok ()) (k : Workload.Kind)
    (payload : List UInt8) :
    ((∃ length expected, interpret p k payload = .malformed length expected) ↔
      payload.length ≠ p.faultPayloadLength k) ∧
    (payload.length ≠ p.faultPayloadLength k →
      interpret p k payload = .malformed payload.length (p.faultPayloadLength k)) ∧
    (payload.length = p.faultPayloadLength k → k ≠ .bufferCopy →
      ∃ observed expected, interpret p k payload = .counter observed expected ∧
        Wire.Counter.encode observed = payload ∧ p.FaultFree k expected) ∧
    (payload.length = p.faultPayloadLength k → k = .bufferCopy →
      ∃ differing untouched, interpret p k payload = .buffer differing untouched ∧
        Comparison p.bufferCopy payload differing untouched) ∧
    (interpret p k payload).crashes p = false := by
  have hcounter (hlength : payload.length = p.faultPayloadLength k) (hk : k ≠ .bufferCopy) :
      ∃ observed expected, interpret p k payload = .counter observed expected ∧
        Wire.Counter.encode observed = payload ∧ p.FaultFree k expected := by
    obtain ⟨expected, hexpected, hfree, hwidth⟩ := faultFree_of_validate h hk
    obtain ⟨observed, hread, hencode⟩ := interpret_counter hexpected hwidth hlength
    exact ⟨observed, expected, hread, hencode, hfree⟩
  have hbuffer (hlength : payload.length = p.faultPayloadLength k) (hk : k = .bufferCopy) :
      ∃ differing untouched, interpret p k payload = .buffer differing untouched ∧
        Comparison p.bufferCopy payload differing untouched := by
    subst hk
    obtain ⟨-, -, -, -, -, hdiffer⟩ := Profile.rules_of_validate h
    have hne : p.bufferCopy.sourceImage ≠ p.bufferCopy.destinationImage :=
      (BufferInit.differsFrom_iff_image_ne _ _ _).mp hdiffer
    exact ⟨_, _, interpret_bufferCopy hlength, comparison_differences hlength hne⟩
  refine ⟨⟨?_, fun hne => ⟨_, _, interpret_malformed hne⟩⟩, interpret_malformed, hcounter, hbuffer,
    crashes_interpret h k payload⟩
  rintro ⟨length, expected, hread⟩ hlength
  by_cases hk : k = .bufferCopy
  · obtain ⟨differing, untouched, hother, -⟩ := hbuffer hlength hk
    cases hread.symm.trans hother
  · obtain ⟨observed, expected, hother, -⟩ := hcounter hlength hk
    cases hread.symm.trans hother

/-- Four bytes that are a counter too, and the destination as it was before the copy. -/
theorem interpret_exact_four_bytes :
    let p : Profile :=
      { bufferCopy := { size := 4, source := .sequence [1, 0xFF], destination := .fill 0xFF } }
    p.validate = .ok () ∧ Wire.Counter.decode? [0xFF,0xFF,0xFF,0xFF] = some 0xFFFFFFFF ∧
      ∃ differing, interpret p .bufferCopy [0xFF,0xFF,0xFF,0xFF] = .buffer differing true ∧
        0 ∈ differing ∧ 1 ∉ differing ∧ differing ≠ [] := by
  intro p
  have hvalid : p.validate = .ok () := by decide +kernel
  obtain ⟨-, -, -, hbuffer, -⟩ := interpret_exact hvalid .bufferCopy [0xFF,0xFF,0xFF,0xFF]
  obtain ⟨differing, untouched, hread, hcompare⟩ := hbuffer rfl rfl
  obtain rfl : untouched = true := hcompare.untouched_iff.mpr rfl
  refine ⟨hvalid, by decide +kernel, differing, hread, ?_, ?_, hcompare.ne_nil rfl⟩
  · exact (hcompare.mem_iff 0).mpr (by decide +kernel)
  · exact mt (hcompare.mem_iff 1).mp (by decide +kernel)

end Bench
end FaultBench
