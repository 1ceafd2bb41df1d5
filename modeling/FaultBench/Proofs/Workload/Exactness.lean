import FaultBench.Proofs.Wire.Counter
import FaultBench.Proofs.Workload.Contents
import FaultBench.Proofs.Workload.Stepping
import FaultBench.Proofs.Workload.Verdict
import Mathlib.Algebra.Group.Nat.Defs
import Mathlib.Algebra.Ring.Int.Defs

/-! The verdicts of all workloads under all disturbances: no lost increment and no byte that
differs from the source goes unseen, and nothing else is taken for a fault. Corruptions of one byte
add up to their exclusive or, so that some of them cancel each other. -/
namespace FaultBench

namespace BufferCopy

/-- The bits that all corruptions together flip at a position. -/
def maskAt (i : ℕ) : List (ℕ × UInt8) → UInt8
  | [] => 0
  | (j, mask) :: corruptions => (if j = i then mask else 0) ^^^ maskAt i corruptions

/-- The order of the corruptions does not count. -/
theorem getElem?_flipped (bytes : List UInt8) (corruptions : List (ℕ × UInt8)) (i : ℕ) :
    (flipped bytes corruptions)[i]? = bytes[i]?.map (· ^^^ maskAt i corruptions) := by
  induction corruptions generalizing bytes with
  | nil => simp [flipped, maskAt]
  | cons x corruptions ih =>
    rw [flipped_cons, ih, List.getElem?_modify, maskAt]
    by_cases h : x.1 = i
    · simp [h, UInt8.xor_assoc, Function.comp_def]
    · simp [h]

lemma xor_eq_self_iff {a mask : UInt8} : a ^^^ mask = a ↔ mask = 0 := by
  have hcancel := UInt8.xor_right_inj a (a := mask) (b := 0)
  rwa [UInt8.xor_zero] at hcancel

lemma flipped_eq_self_iff {bytes : List UInt8} {corruptions : List (ℕ × UInt8)} :
    flipped bytes corruptions = bytes ↔ ∀ i < bytes.length, maskAt i corruptions = 0 := by
  rw [List.ext_getElem?_iff]
  simp only [getElem?_flipped]
  constructor
  · intro h i hi
    simpa [hi, xor_eq_self_iff] using h i
  · intro h i
    by_cases hi : i < bytes.length
    · simp [h i hi]
    · simp [Nat.le_of_not_lt hi]

/-- Buffers that could be set up start out with different images. -/
lemma images_ne_of_new {size : ℕ} {source destination : BufferInit} {c : BufferCopy}
    (h : new size source destination = .ok c) :
    c.sourceInit = source ∧ c.destinationInit = destination ∧
      source.image size ≠ destination.image size := by
  rw [new] at h
  split_ifs at h with _ _ _ hdiffer
  cases h
  exact ⟨rfl, rfl, (BufferInit.differsFrom_iff_image_ne _ _ _).mp hdiffer⟩

end BufferCopy

namespace Workload

/-- An execution of a counter of `n` increments of which some are lost. -/
structure Tallies (w : Workload) (n : ℕ) (d : Disturbance) : Prop where
  /-- All increments, made one after the other, come to `n`. -/
  steps : ∃ value, w.stepped? = some value ∧ value.toNat = n
  /-- The lost ones are missing in what is observed, and the report of a fault tells it. -/
  observes : ∃ observed, (w.prepare.run d).1 = .counter observed ∧
    (observed.toNat : ℤ) = ((n : ℤ) - d.skip.toNat) % 2 ^ 32 ∧
    (w.verdict d = .expected ↔ d.skip = 0) ∧
    (d.skip ≠ 0 → w.verdict d = .fault (.counter observed) ∧
      (Diagnostic.counter observed).bytes.length = 4 ∧
      Wire.Counter.decode? (Diagnostic.counter observed).bytes = some observed)

/-- An execution of a copy, judged by what it leaves in the destination. -/
structure Compares (c : BufferCopy) (d : Disturbance) : Prop where
  leaves : (bufferCopy c).after d =
    .bufferCopy { c with source := c.sourceInit.image c.size, destination := c.left d }
  expected_iff : (bufferCopy c).verdict d = .expected ↔ c.left d = c.sourceInit.image c.size
  fault : c.left d ≠ c.sourceInit.image c.size →
    (bufferCopy c).verdict d = .fault (.buffer (c.left d))
  skipped : d.skipCopy → d.corruptions = [] →
    (bufferCopy c).verdict d = .fault (.buffer (c.destinationInit.image c.size))
  /-- Corruptions of a good copy are seen unless they cancel out at every position. -/
  copied : ¬ d.skipCopy →
    if ∃ i < c.size, BufferCopy.maskAt i d.corruptions ≠ 0 then
      (bufferCopy c).verdict d = .fault (.buffer (c.left d))
    else (bufferCopy c).verdict d = .expected

lemma judge_eq_expected_iff {expected observed : UInt32} :
    judge expected observed = .expected ↔ observed = expected := by
  rw [judge]
  split
  · next heq => simp [heq]
  · next hne => simp [hne]

lemma judge_of_ne {expected observed : UInt32} (h : observed ≠ expected) :
    judge expected observed = .fault (.counter observed) := if_neg h

lemma sub_eq_self_iff {n skip : UInt32} : n - skip = n ↔ skip = 0 := by grind

lemma toNat_sub_emod (n skip : UInt32) :
    ((n - skip).toNat : ℤ) = ((n.toNat : ℤ) - skip.toNat) % 2 ^ 32 := by
  have hn := n.toNat_lt
  have hskip := skip.toNat_lt
  rw [UInt32.toNat_sub]
  omega

/-- A counter is judged by the value that its increments come to. -/
lemma tallies_of_stepped {w : Workload} {value : UInt32} {d : Disturbance}
    (hstepped : w.stepped? = some value) (hrun : (w.prepare.run d).1 = .counter (value - d.skip))
    (hverdict : w.verdict d = judge value (value - d.skip)) : w.Tallies value.toNat d where
  steps := ⟨value, hstepped, rfl⟩
  observes := by
    refine ⟨value - d.skip, hrun, toNat_sub_emod value d.skip, ?_, fun hskip => ⟨?_, rfl, ?_⟩⟩
    · rw [hverdict, judge_eq_expected_iff, sub_eq_self_iff]
    · rw [hverdict, judge_of_ne (mt sub_eq_self_iff.mp hskip)]
    · exact Wire.Counter.decode?_encode _

lemma tallies_countedLoop {outer inner : UInt32} (h : outer.toNat * inner.toNat < 2 ^ 32)
    (d : Disturbance) : (countedLoop outer inner).Tallies (outer.toNat * inner.toNat) d := by
  have htotal : (Counting.total outer inner).toNat = outer.toNat * inner.toNat := by
    rw [Counting.total, UInt32.toNat_mul, Nat.mod_eq_of_lt h]
  rw [← htotal]
  refine tallies_of_stepped ?_ ?_ (verdict_countedLoop outer inner d)
  · rw [stepped?, Counting.nested_eq, UInt32.zero_add, increments_product]
  · rw [← increments_product]
    rfl

lemma tallies_unrolled {executions : UInt32} (h : executions ∈ Counting.unrolledLengths)
    (d : Disturbance) : (unrolled executions).Tallies executions.toNat d := by
  obtain ⟨steps, hsteps⟩ := Option.isSome_iff_exists.mp (Counting.straight?_isSome_iff _ |>.mpr h)
  refine tallies_of_stepped ?_ ?_ (verdict_unrolled executions d)
  · rw [stepped?, hsteps, Option.map_some, Counting.straight?_eq_some hsteps, UInt32.zero_add]
  · have hcount : Counting.increments executions.toNat = executions := by
      simp [Counting.increments]
    exact congrArg (fun n => Observation.counter (n - d.skip)) hcount

lemma compares_of_images_ne {c : BufferCopy} (h : c.Sized)
    (hne : c.sourceInit.image c.size ≠ c.destinationInit.image c.size) (d : Disturbance) :
    Compares c d where
  leaves := by rw [after_bufferCopy, BufferCopy.disturbed_prepare h]
  expected_iff := by
    rw [verdict_bufferCopy h]
    split
    · next heq => exact iff_of_true rfl heq.symm
    · next hdiffer => exact iff_of_false nofun (Ne.symm hdiffer)
  fault hleft := by rw [verdict_bufferCopy h, if_neg (Ne.symm hleft)]
  skipped hskip hnone := by
    have hleft : c.left d = c.destinationInit.image c.size := by
      rw [BufferCopy.left, hnone, if_pos hskip]
      rfl
    rw [verdict_bufferCopy h, hleft, if_neg hne]
  copied hcopied := by
    have hsame : c.left d = c.sourceInit.image c.size ↔
        ∀ i < c.size, BufferCopy.maskAt i d.corruptions = 0 := by
      rw [BufferCopy.left, if_neg hcopied, BufferCopy.flipped_eq_self_iff,
        BufferInit.length_image]
    rw [verdict_bufferCopy h]
    split
    · next hmask =>
      obtain ⟨i, hi, hmask⟩ := hmask
      exact if_neg fun heq => hmask (hsame.mp heq.symm i hi)
    · next hmask =>
      simp only [not_exists, not_and, not_not] at hmask
      exact if_pos (hsame.mpr hmask).symm

/-- Every workload sees every disturbance that changes its result and no other. A counter fails
exactly if increments are lost, and tells what it counted; a copy fails exactly if what is left in
the destination is not the source's image, and tells all of it, whatever its buffers held before. -/
theorem verdict_exact (d : Disturbance) :
    (∀ outer inner : UInt32, outer.toNat * inner.toNat < 2 ^ 32 →
      (countedLoop outer inner).Tallies (outer.toNat * inner.toNat) d) ∧
    (∀ executions ∈ Counting.unrolledLengths, (unrolled executions).Tallies executions.toNat d) ∧
    ∀ (size : ℕ) (source destination : BufferInit) (c : BufferCopy),
      BufferCopy.new size source destination = .ok c →
      c.sourceInit = source ∧ c.destinationInit = destination ∧
        ∀ held overwritten : List UInt8, held.length = size → overwritten.length = size →
          Compares { c with source := held, destination := overwritten } d := by
  refine ⟨fun outer inner h => tallies_countedLoop h d, fun executions h => tallies_unrolled h d,
    fun size source destination c hnew => ?_⟩
  obtain ⟨rfl, rfl, hne⟩ := BufferCopy.images_ne_of_new hnew
  refine ⟨rfl, rfl, fun held overwritten hheld hoverwritten => ?_⟩
  have hsized : ({ c with source := held, destination := overwritten } : BufferCopy).Sized :=
    hheld.trans hoverwritten.symm
  refine compares_of_images_ne hsized ?_ d
  rwa [BufferCopy.size, hoverwritten]

/-- More increments lost than made, and corruptions of which two cancel and one does not. -/
theorem verdict_exact_cancelling :
    let d : Disturbance := { skip := 13, corruptions := [(1, 3), (2, 0x80), (1, 3)] }
    let c : BufferCopy := ⟨[7, 7, 7], [8, 8, 8], .sequence [1, 2], .fill 9⟩
    3 * 4 < 2 ^ 32 ∧ (countedLoop 3 4).verdict d = .fault (.counter 0xFFFFFFFF) ∧
      10 ∈ Counting.unrolledLengths ∧ (unrolled 10).verdict d = .fault (.counter 0xFFFFFFFD) ∧
      BufferCopy.new 3 (.sequence [1, 2]) (.fill 9) =
        .ok ⟨[0, 0, 0], [0, 0, 0], .sequence [1, 2], .fill 9⟩ ∧
      (bufferCopy c).verdict d = .fault (.buffer [1, 2, 0x80]) := by
  intro d c
  obtain ⟨hloop, hunrolled, hcopy⟩ := verdict_exact d
  have hten : 10 ∈ Counting.unrolledLengths := by decide
  obtain ⟨loops, hrun, -, -, hloop⟩ := (hloop 3 4 (by decide)).observes
  obtain rfl : 0xFFFFFFFF = loops := Observation.counter.inj hrun
  obtain ⟨steps, hrun, -, -, hunrolled⟩ := (hunrolled 10 hten).observes
  obtain rfl : 0xFFFFFFFD = steps := Observation.counter.inj hrun
  have hnew : BufferCopy.new 3 (.sequence [1, 2]) (.fill 9) =
    .ok ⟨[0, 0, 0], [0, 0, 0], .sequence [1, 2], .fill 9⟩ := rfl
  obtain ⟨-, -, hcompares⟩ := hcopy _ _ _ _ hnew
  have hfault := (hcompares [7, 7, 7] [8, 8, 8] rfl rfl).fault (by decide)
  exact ⟨by decide, (hloop (by decide)).1, hten, (hunrolled (by decide)).1, hnew, hfault⟩

end Workload
end FaultBench
