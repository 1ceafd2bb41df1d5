import FaultBench.Workload.BufferInit

/-! A source buffer copied over a destination buffer of the same size. The two have to start out
different, or a copy that did not happen would pass for a good one. -/
namespace FaultBench

structure BufferCopy where
  source : List UInt8
  destination : List UInt8
  sourceInit : BufferInit
  destinationInit : BufferInit
  deriving DecidableEq, Repr

namespace BufferCopy

inductive SetupError where
  | emptyBuffers
  | sourceTooLong
  | destinationTooLong
  | indistinguishable
  deriving DecidableEq, Repr

def SetupError.message : SetupError → String
  | .emptyBuffers => "copy buffers must not be empty"
  | .sourceTooLong => "source init sequence is longer than the buffer"
  | .destinationTooLong => "destination init sequence is longer than the buffer"
  | .indistinguishable => "source and destination must start out different"

/-- Two buffers of `size` bytes, all zero until they are prepared. -/
def new (size : Nat) (source destination : BufferInit) : Except SetupError BufferCopy :=
  if size = 0 then .error .emptyBuffers
  else if ¬ source.fits size then .error .sourceTooLong
  else if ¬ destination.fits size then .error .destinationTooLong
  else if ¬ source.differsFrom destination size then .error .indistinguishable
  else .ok ⟨List.replicate size 0, List.replicate size 0, source, destination⟩

def size (c : BufferCopy) : Nat := c.destination.length

def prepare (c : BufferCopy) : BufferCopy :=
  { c with
    source := c.sourceInit.apply c.source
    destination := c.destinationInit.apply c.destination }

def run (c : BufferCopy) : BufferCopy := { c with destination := c.source }

def corrupt (c : BufferCopy) (index : Nat) (mask : UInt8) : BufferCopy :=
  { c with destination := c.destination.modify index (· ^^^ mask) }

def corruptAll (c : BufferCopy) (corruptions : List (Nat × UInt8)) : BufferCopy :=
  corruptions.foldl (fun c x => c.corrupt x.1 x.2) c

end BufferCopy
end FaultBench
