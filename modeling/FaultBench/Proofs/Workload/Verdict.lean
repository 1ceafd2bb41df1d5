import FaultBench.Workload.Basic
import Mathlib.Tactic.Common

/-! The verdict on one execution: it follows from the workload's parameters and the disturbance
alone, whatever earlier executions left in the buffers. -/
namespace FaultBench

namespace BufferInit

lemma overwrite_nil (buffer : List UInt8) :
    overwrite [] buffer = List.replicate buffer.length 0 := by
  induction buffer with
  | nil => rfl
  | cons _ buffer ih => simp [overwrite, ih, List.replicate_succ]

lemma overwrite_eq (bytes buffer : List UInt8) :
    overwrite bytes buffer = (sequence bytes).image buffer.length := by
  induction bytes generalizing buffer with
  | nil => simp [overwrite_nil, image]
  | cons b bytes ih =>
    cases buffer with
    | nil => simp [overwrite, image]
    | cons _ buffer => simp [overwrite, ih, image]

/-- Nothing of a buffer but its length survives. -/
theorem apply_eq_image (init : BufferInit) (buffer : List UInt8) :
    init.apply buffer = init.image buffer.length := by
  cases init with
  | fill b => exact List.map_const'
  | sequence bytes => exact overwrite_eq bytes buffer

end BufferInit

namespace BufferCopy

def Sized (c : BufferCopy) : Prop := c.source.length = c.destination.length

/-- The buffers as an execution under a disturbance leaves them. -/
def disturbed (c : BufferCopy) (d : Disturbance) : BufferCopy :=
  (if d.skipCopy then c else c.run).corruptAll d.corruptions

/-- Bytes with the bits flipped that each corruption says, one after the other. -/
def flipped (bytes : List UInt8) (corruptions : List (ℕ × UInt8)) : List UInt8 :=
  corruptions.foldl (fun bytes x => bytes.modify x.1 (· ^^^ x.2)) bytes

lemma flipped_cons (bytes : List UInt8) (x : ℕ × UInt8) (corruptions : List (ℕ × UInt8)) :
    flipped bytes (x :: corruptions) = flipped (bytes.modify x.1 (· ^^^ x.2)) corruptions := rfl

@[simp] lemma length_flipped (bytes : List UInt8) (corruptions : List (ℕ × UInt8)) :
    (flipped bytes corruptions).length = bytes.length := by
  induction corruptions generalizing bytes with
  | nil => rfl
  | cons x corruptions ih => rw [flipped_cons, ih, List.length_modify]

lemma corruptAll_eq (c : BufferCopy) (corruptions : List (ℕ × UInt8)) :
    c.corruptAll corruptions = { c with destination := flipped c.destination corruptions } := by
  induction corruptions generalizing c with
  | nil => rfl
  | cons x corruptions ih => exact ih (c.corrupt x.1 x.2)

lemma prepare_eq (c : BufferCopy) :
    c.prepare = { c with
      source := c.sourceInit.image c.source.length
      destination := c.destinationInit.image c.destination.length } := by
  simp only [prepare, BufferInit.apply_eq_image]

/-- The destination after an execution. -/
def left (c : BufferCopy) (d : Disturbance) : List UInt8 :=
  flipped ((if d.skipCopy then c.destinationInit else c.sourceInit).image c.size) d.corruptions

@[simp] lemma length_left (c : BufferCopy) (d : Disturbance) : (c.left d).length = c.size := by
  simp [left]

/-- An execution leaves the source's image in the source, and in the destination one of the images
with the corruptions. -/
lemma disturbed_prepare {c : BufferCopy} (h : c.Sized) (d : Disturbance) :
    c.prepare.disturbed d =
      { c with source := c.sourceInit.image c.size, destination := c.left d } := by
  rw [disturbed, corruptAll_eq, prepare_eq, h, left, size]
  cases d.skipCopy <;> rfl

lemma prepare_disturbed {c : BufferCopy} (h : c.Sized) (d : Disturbance) :
    (c.prepare.disturbed d).prepare = c.prepare := by
  rw [disturbed_prepare h, prepare_eq, prepare_eq, h]
  simp [size]

end BufferCopy

namespace Workload

/-- The buffers of a copy have the same size. -/
def Sized : Workload → Prop
  | .bufferCopy copy => copy.Sized
  | _ => True

def after (w : Workload) (d : Disturbance) : Workload := (w.prepare.run d).2

def verdict (w : Workload) (d : Disturbance) : Verdict :=
  (w.after d).evaluate (w.prepare.run d).1

lemma after_bufferCopy (c : BufferCopy) (d : Disturbance) :
    (bufferCopy c).after d = .bufferCopy (c.prepare.disturbed d) := rfl

lemma prepare_after {w : Workload} (h : w.Sized) (d : Disturbance) :
    (w.after d).prepare = w.prepare := by
  cases w with
  | bufferCopy c => exact congrArg bufferCopy (BufferCopy.prepare_disturbed h d)
  | _ => rfl

lemma Sized.after {w : Workload} (h : w.Sized) (d : Disturbance) : (w.after d).Sized := by
  cases w with
  | bufferCopy c =>
    rw [after_bufferCopy, BufferCopy.disturbed_prepare h]
    simp [Sized, BufferCopy.Sized]
  | _ => trivial

/-- What an execution leaves in the buffers has no part in the next verdict. -/
theorem verdict_after {w : Workload} (h : w.Sized) (d e : Disturbance) :
    (w.after d).verdict e = w.verdict e := by
  change ((w.after d).prepare.run e).2.evaluate ((w.after d).prepare.run e).1 = _
  rw [prepare_after h d]
  rfl

/-- The verdicts on executions one after the other, each on what the one before left. -/
def verdicts (w : Workload) : List Disturbance → List Verdict
  | [] => []
  | d :: ds => w.verdict d :: (w.after d).verdicts ds

@[simp] lemma length_verdicts (w : Workload) (ds : List Disturbance) :
    (w.verdicts ds).length = ds.length := by
  induction ds generalizing w with
  | nil => rfl
  | cons d ds ih => exact congrArg (· + 1) (ih (w.after d))

/-- Executions are independent of each other. -/
theorem verdicts_eq_map {w : Workload} (h : w.Sized) (ds : List Disturbance) :
    w.verdicts ds = ds.map w.verdict := by
  induction ds generalizing w with
  | nil => rfl
  | cons d ds ih =>
    rw [verdicts, ih (h.after d), List.map_cons]
    exact congrArg (_ :: ·) (List.map_congr_left fun e _ => verdict_after h d e)

lemma payloadLength_after {w : Workload} (h : w.Sized) (d : Disturbance) :
    (w.after d).payloadLength = w.payloadLength := by
  cases w with
  | bufferCopy c =>
    rw [after_bufferCopy, BufferCopy.disturbed_prepare h]
    exact c.length_left d
  | _ => rfl

lemma increments_product (outer inner : UInt32) :
    Counting.increments (outer.toNat * inner.toNat) = Counting.total outer inner := by
  simp [Counting.increments, Counting.total, UInt32.ofNat_mul]

lemma verdict_countedLoop (outer inner : UInt32) (d : Disturbance) :
    (countedLoop outer inner).verdict d =
      judge (Counting.total outer inner) (Counting.total outer inner - d.skip) := by
  rw [← increments_product]
  exact congrArg (judge · _) (increments_product outer inner).symm

lemma verdict_unrolled (executions : UInt32) (d : Disturbance) :
    (unrolled executions).verdict d = judge executions (executions - d.skip) := by
  have h : Counting.increments executions.toNat = executions := by simp [Counting.increments]
  exact congrArg (fun n => judge executions (n - d.skip)) h

lemma verdict_bufferCopy {c : BufferCopy} (h : c.Sized) (d : Disturbance) :
    (bufferCopy c).verdict d =
      if c.sourceInit.image c.size = c.left d then .expected else .fault (.buffer (c.left d)) := by
  rw [verdict, after_bufferCopy, BufferCopy.disturbed_prepare h]
  rfl

lemma judge_eq_fault {expected observed : UInt32} {diagnostic : Diagnostic}
    (h : judge expected observed = .fault diagnostic) :
    diagnostic = .counter observed ∧ observed ≠ expected := by
  rw [judge] at h
  split at h
  · cases h
  · next hne => exact ⟨(Verdict.fault.inj h).symm, hne⟩

/-- Every diagnostic has the size that is announced for the workload. -/
theorem length_diagnostic {w : Workload} (h : w.Sized) {d : Disturbance} {diagnostic : Diagnostic}
    (hv : w.verdict d = .fault diagnostic) : diagnostic.bytes.length = w.payloadLength := by
  cases w with
  | countedLoop outer inner =>
    rw [verdict_countedLoop] at hv
    rw [(judge_eq_fault hv).1]
    rfl
  | unrolled executions =>
    rw [verdict_unrolled] at hv
    rw [(judge_eq_fault hv).1]
    rfl
  | bufferCopy c =>
    rw [verdict_bufferCopy h] at hv
    split at hv
    · cases hv
    · rw [← Verdict.fault.inj hv]
      exact c.length_left d

end Workload
end FaultBench
