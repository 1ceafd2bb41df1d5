import FaultBench.Workload.Basic
import FaultBench.Workload.Kind

/-! Profiles: the parameters that host and target share, and what follows from them. -/
namespace FaultBench

namespace Profile

structure CountedLoop where
  outer : UInt32 := 500
  inner : UInt32 := 500
  deriving DecidableEq, Repr

structure CopyBuffers where
  size : UInt64 := 68
  source : BufferInit := .fill 0xAA
  destination : BufferInit := .fill 0xBB
  deriving DecidableEq, Repr

structure Unrolled where
  executions : UInt32 := 100
  deriving DecidableEq, Repr

structure Serial where
  baud : UInt32 := 38400
  deriving DecidableEq, Repr

/-- The schema version that is written and accepted. -/
def currentSchema : String := "1.0"

end Profile

structure Profile where
  schemaVersion : String := Profile.currentSchema
  countedLoop : Profile.CountedLoop := {}
  bufferCopy : Profile.CopyBuffers := {}
  unrolled : Profile.Unrolled := {}
  serial : Profile.Serial := {}
  deriving DecidableEq, Repr

namespace Profile

/-- The count of a fault-free run, if it fits 32 bits. -/
def CountedLoop.expected? (l : CountedLoop) : Option UInt32 :=
  if l.outer.toNat * l.inner.toNat < UInt32.size then
    some (UInt32.ofNat (l.outer.toNat * l.inner.toNat))
  else none

/-- The source before the copy, and the destination after a good one. -/
def CopyBuffers.sourceImage (c : CopyBuffers) : List UInt8 := c.source.image c.size.toNat

/-- The destination before the copy. -/
def CopyBuffers.destinationImage (c : CopyBuffers) : List UInt8 := c.destination.image c.size.toNat

def expectedCounter? (p : Profile) : Workload.Kind → Option UInt32
  | .countedLoop => p.countedLoop.expected?
  | .bufferCopy => none
  | .unrolled => some p.unrolled.executions

def faultPayloadLength (p : Profile) : Workload.Kind → Nat
  | .countedLoop => Wire.Counter.width
  | .bufferCopy => p.bufferCopy.size.toNat
  | .unrolled => Wire.Counter.width

def workload (p : Profile) : Workload.Kind → Except BufferCopy.SetupError Workload
  | .countedLoop => .ok (.countedLoop p.countedLoop.outer p.countedLoop.inner)
  | .bufferCopy =>
    (BufferCopy.new p.bufferCopy.size.toNat p.bufferCopy.source p.bufferCopy.destination).map
      .bufferCopy
  | .unrolled => .ok (.unrolled p.unrolled.executions)

end Profile
end FaultBench
