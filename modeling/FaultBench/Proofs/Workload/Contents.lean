import FaultBench.Workload.BufferCopy
import Mathlib.Tactic.Common

/-! Initial contents compared position by position: the images of two contents differ exactly if
some position within the size holds different bytes, and so do the assertions under which two
buffers are set up with them. -/
namespace FaultBench

namespace BufferInit

@[simp] lemma byteAt_fill (b : UInt8) (i : ℕ) : (fill b).byteAt i = b := rfl

lemma byteAt_sequence (bytes : List UInt8) (i : ℕ) :
    (sequence bytes).byteAt i = bytes.getD i 0 := rfl

@[simp] lemma byteAt_tail (init : BufferInit) (i : ℕ) :
    init.tail.byteAt i = init.byteAt (i + 1) := by
  cases init with
  | fill b => rfl
  | sequence bytes => simp [tail, byteAt]

/-- Behind the span of the contents all bytes are the same. -/
lemma byteAt_of_span_le {init : BufferInit} {i j : ℕ} (hi : init.span ≤ i) (hj : init.span ≤ j) :
    init.byteAt i = init.byteAt j := by
  cases init with
  | fill b => rfl
  | sequence bytes =>
    have hbeyond (k : ℕ) (hk : bytes.length ≤ k) : (sequence bytes).byteAt k = 0 := by
      simp [byteAt, hk]
    rw [hbeyond i hi, hbeyond j hj]

lemma differWithin_iff (n : ℕ) (a b : BufferInit) :
    differWithin n a b = true ↔ ∃ i < n, a.byteAt i ≠ b.byteAt i := by
  induction n generalizing a b with
  | zero => simp [differWithin]
  | succ n ih =>
    rw [differWithin, Bool.or_eq_true, ih, bne_iff_ne]
    simp only [byteAt_tail]
    constructor
    · rintro (hfirst | ⟨i, hi, hne⟩)
      · exact ⟨0, Nat.zero_lt_succ n, hfirst⟩
      · exact ⟨i + 1, Nat.succ_lt_succ hi, hne⟩
    · rintro ⟨_ | i, hi, hne⟩
      · exact .inl hne
      · exact .inr ⟨i, Nat.lt_of_succ_lt_succ hi, hne⟩

/-- The comparison says of all positions what it finds out at a few of them. -/
theorem differsFrom_iff (a b : BufferInit) (size : ℕ) :
    a.differsFrom b size = true ↔ ∃ i < size, a.byteAt i ≠ b.byteAt i := by
  rw [differsFrom, differWithin_iff]
  constructor
  · rintro ⟨i, hi, hne⟩
    exact ⟨i, by omega, hne⟩
  · rintro ⟨i, hi, hne⟩
    -- A difference behind both spans is there from their end on.
    by_cases hspan : i < max a.span b.span + 1
    · exact ⟨i, by omega, hne⟩
    · have ha : a.byteAt (max a.span b.span) = a.byteAt i := by
        apply byteAt_of_span_le <;> omega
      have hb : b.byteAt (max a.span b.span) = b.byteAt i := by
        apply byteAt_of_span_le <;> omega
      exact ⟨max a.span b.span, by omega, by rwa [ha, hb]⟩

lemma image_eq_map (init : BufferInit) (size : ℕ) :
    init.image size = (List.range size).map init.byteAt := by
  apply List.ext_getElem
  · simp
  · intro i hi hi'
    cases init with
    | fill b => simp [image]
    | sequence bytes =>
      simp only [image, List.getElem_map, List.getElem_range, byteAt_sequence]
      by_cases hlt : i < bytes.length
      · rw [List.getElem_append_left (by simp at hi ⊢; omega)]
        simp [hlt]
      · rw [List.getElem_append_right (by simp; omega)]
        simp [Nat.le_of_not_lt hlt]

/-- Contents differ within a size exactly if their images of this size differ. -/
theorem differsFrom_iff_image_ne (a b : BufferInit) (size : ℕ) :
    a.differsFrom b size = true ↔ a.image size ≠ b.image size := by
  rw [differsFrom_iff, image_eq_map, image_eq_map, ne_eq, List.map_inj_left]
  simp only [List.mem_range, not_forall, exists_prop, ne_eq]

lemma fits_iff (init : BufferInit) (size : ℕ) : init.fits size = true ↔ init.span ≤ size :=
  decide_eq_true_iff

end BufferInit

namespace BufferCopy

/-- The assertions in their order, with the bytes at all positions compared. -/
theorem new_eq (size : ℕ) (source destination : BufferInit) :
    new size source destination =
      if size = 0 then .error .emptyBuffers
      else if size < source.span then .error .sourceTooLong
      else if size < destination.span then .error .destinationTooLong
      else if ∀ i < size, source.byteAt i = destination.byteAt i then .error .indistinguishable
      else .ok ⟨.replicate size 0, .replicate size 0, source, destination⟩ := by
  have hfits (init : BufferInit) : (¬ init.fits size = true) ↔ size < init.span := by
    rw [BufferInit.fits_iff, Nat.not_le]
  have hsame : (¬ source.differsFrom destination size = true) ↔
      ∀ i < size, source.byteAt i = destination.byteAt i := by
    rw [BufferInit.differsFrom_iff]
    simp only [ne_eq, not_exists, not_and, not_not]
  simp only [new, hfits, hsame]

end BufferCopy
end FaultBench
