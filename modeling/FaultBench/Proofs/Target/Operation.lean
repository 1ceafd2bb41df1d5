import FaultBench.Target.Harness
import Mathlib.Tactic.Common

/-! Whole lives of a harness: calls of it in any order, and between them changes of what its line
delivers and accepts and of what goes wrong in its runs. -/
namespace FaultBench.Target

inductive Operation where
  | step
  | cycle
  | deliver (arrivals : List Arrival)
  | failWrites (accepted : ℕ) (e : LineError)
  | failFlushes (e : LineError)
  /-- Writes and flushes work again. -/
  | repair
  | disturb (d : Disturbance)
  deriving DecidableEq, Repr

/-- Whether an operation is one of the harness itself. -/
def Operation.isCall : Operation → Bool
  | .step => true
  | .cycle => true
  | _ => false

namespace Harness

variable {capacity : ℕ}

/-- A harness that was not called yet. -/
def new (line : Line) (workload : Workload) (d : Disturbance) (shows : Bool) :
    Harness capacity where
  channel := { line }
  workload
  disturbance := d
  showsCycles := shows

def onLine (h : Harness capacity) (f : Line → Line) : Harness capacity :=
  { h with channel := { h.channel with line := f h.channel.line } }

def apply (h : Harness capacity) : Operation → Progress capacity
  | .step => h.step
  | .cycle => h.cycle
  | .deliver arrivals => { harness := h.onLine (·.deliver arrivals) }
  | .failWrites accepted e => { harness := h.onLine (·.failWritesAfter accepted e) }
  | .failFlushes e => { harness := h.onLine (·.failFlushes e) }
  | .repair => { harness := h.onLine (·.repair) }
  | .disturb d => { harness := { h with disturbance := d } }

def perform (h : Harness capacity) : List Operation → Progress capacity
  | [] => { harness := h }
  | op :: ops => (h.apply op).andThen fun h => h.perform ops

/-- A property of a harness and of all that was seen of it, kept by every transition and by
everything that happens around the harness. -/
structure Lasting (P : Harness capacity → List Event → Prop) : Prop where
  step {h t} : P h t → P h.step.harness (t ++ h.step.events)
  around {h t op} : op.isCall = false → P h t → P (h.apply op).harness t

namespace Lasting

variable {P : Harness capacity → List Event → Prop} {h : Harness capacity} {t : List Event}

lemma stepUntilIdle (hP : Lasting P) (more : ℕ) (hp : P h t) :
    P (h.stepUntilIdle more).harness (t ++ (h.stepUntilIdle more).events) := by
  induction more generalizing h t with
  | zero => exact hP.step hp
  | succ more ih =>
    rw [Harness.stepUntilIdle]
    split
    · exact hP.step hp
    · simpa [Progress.andThen] using ih (hP.step hp)

lemma cycle (hP : Lasting P) (hp : P h t) : P h.cycle.harness (t ++ h.cycle.events) := by
  rw [Harness.cycle]
  split
  · simpa [Progress.andThen] using hP.stepUntilIdle 2 (hP.step hp)
  · exact hP.stepUntilIdle 2 hp

/-- What every transition keeps holds after any operations. -/
theorem perform (hP : Lasting P) (ops : List Operation) (hp : P h t) :
    P (h.perform ops).harness (t ++ (h.perform ops).events) := by
  induction ops generalizing h t with
  | nil => simpa [Harness.perform] using hp
  | cons op ops ih =>
    have happly : P (h.apply op).harness (t ++ (h.apply op).events) := by
      cases op with
      | step => exact hP.step hp
      | cycle => exact hP.cycle hp
      | _ =>
        change P _ (t ++ [])
        rw [List.append_nil]
        exact hP.around rfl hp
    simpa [Harness.perform, Progress.andThen] using ih happly

end Lasting

end Harness
end FaultBench.Target
