import FaultBench.Wire.Counter
import FaultBench.Workload.Counting
import FaultBench.Workload.BufferCopy

/-! The protected operations. Each is determined by its parameters alone, so only a disturbance of
the run can change its result, and each judges its own result. -/
namespace FaultBench

inductive Workload where
  | countedLoop (outer inner : UInt32)
  | unrolled (executions : UInt32)
  | bufferCopy (copy : BufferCopy)
  deriving DecidableEq, Repr

inductive Observation where
  | counter (value : UInt32)
  /-- The buffers themselves. -/
  | buffers
  deriving DecidableEq, Repr

inductive Diagnostic where
  | counter (value : UInt32)
  /-- The whole destination after the copy. -/
  | buffer (bytes : List UInt8)
  deriving DecidableEq, Repr

def Diagnostic.bytes : Diagnostic → List UInt8
  | .counter value => Wire.Counter.encode value
  | .buffer bytes => bytes

inductive Verdict where
  | expected
  | fault (diagnostic : Diagnostic)
  deriving DecidableEq, Repr

structure Disturbance where
  /-- Increments that are lost. -/
  skip : UInt32 := 0
  /-- The copy does not happen. -/
  skipCopy : Bool := false
  /-- Bits flipped in the destination afterwards, in order. -/
  corruptions : List (Nat × UInt8) := []
  deriving DecidableEq, Repr

namespace Workload

def payloadLength : Workload → Nat
  | .countedLoop _ _ => Wire.Counter.width
  | .unrolled _ => Wire.Counter.width
  | .bufferCopy copy => copy.size

def prepare : Workload → Workload
  | .bufferCopy copy => .bufferCopy copy.prepare
  | w => w

/-- The value that a counter holds after a run without faults. -/
def count : Workload → UInt32
  | .countedLoop outer inner => Counting.increments (outer.toNat * inner.toNat)
  | .unrolled executions => Counting.increments executions.toNat
  | .bufferCopy _ => 0

def run (d : Disturbance) : Workload → Observation × Workload
  | .bufferCopy copy =>
    (.buffers, .bufferCopy ((if d.skipCopy then copy else copy.run).corruptAll d.corruptions))
  | w => (.counter (w.count - d.skip), w)

def judge (expected observed : UInt32) : Verdict :=
  if observed = expected then .expected else .fault (.counter observed)

def evaluate : Workload → Observation → Verdict
  | .countedLoop outer inner, .counter observed => judge (Counting.total outer inner) observed
  | .unrolled executions, .counter observed => judge executions observed
  | .bufferCopy copy, _ =>
    if copy.source = copy.destination then .expected else .fault (.buffer copy.destination)
  | _, .buffers => .expected

end Workload
end FaultBench
