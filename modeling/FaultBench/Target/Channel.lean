import FaultBench.Target.Line
import FaultBench.Wire.Receiver

/-! Packets over a serial line. The capacity bounds the frames received and the sealed payloads
sent. -/
namespace FaultBench.Target
open Wire

inductive ChannelError where
  | transport (e : LineError)
  | frame (e : FrameError)
  deriving DecidableEq, Repr

def ChannelError.message : ChannelError → String
  | .transport e => "transport: " ++ e.message
  | .frame e => "frame: " ++ e.message

structure Channel (capacity : Nat) where
  line : Line
  receiver : Receiver capacity := .fresh
  deriving DecidableEq, Repr

namespace Channel

variable {capacity : Nat}

/-- Reads up to the next frame boundary or failure. A failure drops what was received of the
frame it interrupts. -/
def receive (r : Receiver capacity) :
    List Arrival → Except ChannelError Packet × Receiver capacity × List Arrival
  | [] => (.error (.transport .closed), .fresh, [])
  | .failure e :: rest => (.error (.transport e), .fresh, rest)
  | .byte b :: rest =>
    let r := r.push b
    if r.atBoundary then
      let (result, r) := r.take
      (result.mapError .frame, r, rest)
    else receive r rest

def read (c : Channel capacity) : Except ChannelError Packet × Channel capacity :=
  let (result, receiver, incoming) := receive c.receiver c.line.incoming
  (result, ⟨{ c.line with incoming }, receiver⟩)

/-- The end of a write: whether it succeeded, the channel behind it and what was seen. -/
structure Written (capacity : Nat) where
  result : Except ChannelError Unit
  channel : Channel capacity
  events : List Event

def send (c : Channel capacity) (bytes : List UInt8) : Written capacity :=
  let t := c.line.transmit bytes
  ⟨t.result.mapError .transport, { c with line := t.line }, t.events⟩

/-- Sends a packet. Nothing is sent of a packet that has no frame. -/
def write (c : Channel capacity) (p : Packet) : Written capacity :=
  if p.cmd = 0 then ⟨.error (.frame .reservedCommand), c, []⟩
  else
    match sealIn capacity p.payload with
    | .error e => ⟨.error (.frame e), c, []⟩
    | .ok block => c.send (frame p.cmd block)

def acknowledge (c : Channel capacity) (cmd : UInt8) : Written capacity := c.write (.bare cmd)

def announceReset (c : Channel capacity) : Written capacity := c.send resetMarker

end Channel
end FaultBench.Target
