import FaultBench.Wire.Packet

/-! Frames out of a byte stream of any length: an assembler that is fed byte by byte, and the
packets of a whole capture. -/
namespace FaultBench.Wire

/-- The bytes since the last terminator, the latest first. -/
structure Assembler where
  pending : List UInt8 := []
  deriving DecidableEq, Repr

namespace Assembler

/-- The assembler after one more byte, and the frame's reading when the byte ended it. -/
def push (a : Assembler) (b : UInt8) : Option (Except FrameError Packet) × Assembler :=
  if b = 0 then (some (Packet.decode (0 :: a.pending).reverse), {})
  else (none, ⟨b :: a.pending⟩)

/-- The readings of all frames that end in `bytes`, in order. -/
def feed (a : Assembler) : List UInt8 → List (Except FrameError Packet)
  | [] => []
  | b :: rest => (a.push b).1.toList ++ (a.push b).2.feed rest

end Assembler

/-- The readings of a capture's frames, but for empty ones and a last one without terminator. -/
def split (bytes : List UInt8) : List (Except FrameError Packet) :=
  (Assembler.feed {} bytes).filter fun
    | .error .empty => false
    | _ => true

/-- The packets of a capture, with unreadable frames left out. -/
def packets (bytes : List UInt8) : List Packet :=
  (split bytes).filterMap fun
    | .ok p => some p
    | .error _ => none

end FaultBench.Wire
