import FaultBench.Workload.Basic
import Mathlib.Tactic.Common

/-! Counters increment by increment: the nested loops and the sequences without branches, run as
they are written, come to the counts that the workloads compare with. -/
namespace FaultBench

namespace Counting

/-- A sequence of steps written down ten times. -/
def tenfold (steps : UInt32 → UInt32) : UInt32 → UInt32 := Nat.repeat steps 10

/-- One increment expanded tenfold, a number of times. -/
def expanded : ℕ → UInt32 → UInt32
  | 0 => (· + 1)
  | n + 1 => tenfold (expanded n)

/-- The increment sequence of a length, if there is one. -/
def straight? (executions : UInt32) : Option (UInt32 → UInt32) :=
  [(10, expanded 1), (100, expanded 2), (1000, expanded 3), (10000, expanded 4)].lookup executions

lemma repeat_eq_add {steps : UInt32 → UInt32} {n : UInt32} (h : ∀ r, steps r = r + n) (m : ℕ)
    (r : UInt32) : Nat.repeat steps m r = r + UInt32.ofNat m * n := by
  induction m with
  | zero => simp [Nat.repeat]
  | succ m ih =>
    rw [Nat.repeat, ih, h, UInt32.add_assoc, UInt32.ofNat_add, UInt32.add_mul]
    simp

lemma expanded_eq (n : ℕ) (r : UInt32) : expanded n r = r + 10 ^ n := by
  induction n generalizing r with
  | zero => simp [expanded]
  | succ n ih =>
    rw [expanded, tenfold, repeat_eq_add ih, UInt32.pow_succ, UInt32.mul_comm]
    rfl

/-- There is a sequence for each of the lengths that a profile can ask for, and for no other. -/
theorem straight?_isSome_iff (executions : UInt32) :
    (straight? executions).isSome ↔ executions ∈ unrolledLengths := by
  rw [← not_iff_not, Option.not_isSome_iff_eq_none, straight?, List.lookup_eq_none_iff]
  simp [unrolledLengths]

/-- A sequence has as many increments as its name says. -/
theorem straight?_eq_some {executions : UInt32} {steps : UInt32 → UInt32}
    (h : straight? executions = some steps) (r : UInt32) : steps r = r + executions := by
  obtain ⟨before, after, heq, -⟩ := List.lookup_eq_some_iff.mp h
  have hmem : (executions, steps) ∈ before ++ (executions, steps) :: after := by simp
  rw [← heq] at hmem
  simp only [List.mem_cons, Prod.mk.injEq, List.not_mem_nil, or_false] at hmem
  obtain ⟨rfl, rfl⟩ | ⟨rfl, rfl⟩ | ⟨rfl, rfl⟩ | ⟨rfl, rfl⟩ := hmem
  · exact expanded_eq 1 r
  · exact expanded_eq 2 r
  · exact expanded_eq 3 r
  · exact expanded_eq 4 r

end Counting

namespace Workload

/-- The counter behind the increments of a workload, one after the other. -/
def stepped? : Workload → Option UInt32
  | .countedLoop outer inner => some (Counting.nested outer.toNat inner.toNat 0)
  | .unrolled executions => (Counting.straight? executions).map (· 0)
  | .bufferCopy _ => none

theorem count_of_stepped {w : Workload} {value : UInt32} (h : w.stepped? = some value) :
    w.count = value := by
  cases w with
  | countedLoop outer inner =>
    rw [stepped?, Counting.nested_eq, UInt32.zero_add] at h
    exact Option.some.inj h
  | unrolled executions =>
    obtain ⟨steps, hsteps, rfl⟩ := Option.map_eq_some_iff.mp h
    rw [Counting.straight?_eq_some hsteps, UInt32.zero_add]
    simp [count, Counting.increments]
  | bufferCopy copy => cases h

/-- A run that nothing disturbs observes what the increments come to. -/
theorem run_of_stepped {w : Workload} {value : UInt32} (h : w.stepped? = some value) :
    (w.prepare.run {}).1 = .counter value := by
  have hcount : w.count - 0 = value := by rw [count_of_stepped h, UInt32.sub_zero]
  cases w with
  | bufferCopy copy => cases h
  | countedLoop outer inner => exact congrArg Observation.counter hcount
  | unrolled executions => exact congrArg Observation.counter hcount

end Workload
end FaultBench
