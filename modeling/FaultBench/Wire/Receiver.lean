import FaultBench.Wire.Packet

/-! Receiving frames in a bounded buffer. A frame that does not fit is dropped whole, and the
receiver is in step again at the next terminator. -/
namespace FaultBench.Wire

/-- A receiver with a buffer of `capacity` bytes, terminator included. Kept bytes are held with
the latest first. -/
inductive Receiver (capacity : Nat) where
  | filling (kept : List UInt8)
  /-- The frame is too long; bytes are dropped up to its terminator. -/
  | overflowed
  /-- A frame is complete, in order and with its terminator; empty once it was taken. -/
  | complete (bytes : List UInt8)
  /-- The terminator of an overflowed frame was seen. -/
  | overran
  deriving DecidableEq, Repr

namespace Receiver

variable {capacity : Nat}

/-- A receiver at a frame boundary. -/
def fresh : Receiver capacity := .filling []

/-- Takes a byte of a frame that is not yet complete. One place is kept for the terminator. -/
def accept (kept : List UInt8) (b : UInt8) : Receiver capacity :=
  if b = 0 then .complete (0 :: kept).reverse
  else if kept.length + 1 < capacity then .filling (b :: kept)
  else .overflowed

def push (r : Receiver capacity) (b : UInt8) : Receiver capacity :=
  match r with
  | .filling kept => accept kept b
  | .overflowed => if b = 0 then .overran else .overflowed
  | .complete _ => accept [] b
  | .overran => accept [] b

/-- Whether the last byte pushed ended a frame. -/
def atBoundary : Receiver capacity → Bool
  | .complete _ => true
  | .overran => true
  | _ => false

/-- Takes the frame that the last byte ended. It can be taken once; an overflow is reported as
often as it is asked for. -/
def take (r : Receiver capacity) : Except FrameError Packet × Receiver capacity :=
  match r with
  | .filling kept => (.error .unterminated, .filling kept)
  | .overflowed => (.error .unterminated, .overflowed)
  | .complete bytes => (Packet.decode bytes, .complete [])
  | .overran => (.error (.overflow capacity), .overran)

/-- A push together with the answer whether it ended a frame. -/
def step (r : Receiver capacity) (b : UInt8) : Bool × Receiver capacity :=
  ((r.push b).atBoundary, r.push b)

end Receiver
end FaultBench.Wire
