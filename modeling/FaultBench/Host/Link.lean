import FaultBench.Host.Serial
import FaultBench.Host.Record
import FaultBench.Log
import FaultBench.Wire.Assembler

/-! The host's end of the link: packets off the line before a deadline, the wait for a target that
boots, and the exchange of one cycle. -/
namespace FaultBench.Host
open Wire

inductive LinkError where
  | closed
  | readFailed (e : IoFailure)
  | startFailed (e : IoFailure)
  deriving DecidableEq, Repr

def LinkError.message : LinkError → String
  | .closed => "target link closed"
  | .readFailed e => "Failed to read from target: " ++ e.message
  | .startFailed e => "Failed to send start command: " ++ e.message

structure Link where
  serial : Serial
  assembler : Assembler := {}
  deriving DecidableEq, Repr

/-- The end of an activity on the link: its result, the link behind it and what was logged. -/
structure Reached (α : Type) where
  result : Except LinkError α
  link : Link
  log : List Log.Entry := []

namespace Reached

variable {α β : Type}

def andThen (r : Reached α) (next : α → Link → Reached β) : Reached β :=
  match r.result with
  | .error e => ⟨.error e, r.link, r.log⟩
  | .ok a =>
    let s := next a r.link
    { s with log := r.log ++ s.log }

def map (r : Reached α) (f : α → β) : Reached β := ⟨r.result.map f, r.link, r.log⟩

def logged (entries : List Log.Entry) (r : Reached α) : Reached α :=
  { r with log := entries ++ r.log }

end Reached

namespace Link

def logPacket (p : Packet) : Log.Entry :=
  Log.trace "packet" [Log.count "cmd" p.cmd.toNat, Log.count "len" p.payload.length]

def logIgnored (p : Packet) : Log.Entry :=
  Log.debug "ignoring packet while waiting for reset" [Log.count "cmd" p.cmd.toNat]

def logBadFrame (e : FrameError) : Log.Entry := Log.warn ("dropping bad frame: " ++ e.message)

/-- The end of listening: what has not arrived stays on the line. -/
def heard (result : Except LinkError (Option Packet)) (serial : Serial) (assembler : Assembler)
    (rest : List Arrival) : Reached (Option Packet) :=
  ⟨result, ⟨{ serial with incoming := rest }, assembler⟩, []⟩

/-- Reads up to the first packet that is wanted or the deadline. No read is begun at the deadline
or after it, but one that was begun, as `reading` says, goes on. -/
def listen (wanted : Packet → Bool) (deadline : Nat) (reading : Bool) (serial : Serial)
    (assembler : Assembler) : List Arrival → Reached (Option Packet)
  | [] =>
    let clock := if reading then serial.clock + Serial.patience else serial.clock
    heard (.ok none) { serial with clock := Serial.silentUntil deadline clock } assembler []
  | item :: rest =>
    if !reading && decide (deadline ≤ serial.clock) then
      heard (.ok none) serial assembler (item :: rest)
    else
      match item with
      | .pause time =>
        listen wanted deadline true { serial with clock := serial.clock + time } assembler rest
      | .stall time =>
        listen wanted deadline false { serial with clock := serial.clock + time } assembler rest
      | .hangUp => heard (.error .closed) serial assembler rest
      | .failure e => heard (.error (.readFailed e)) serial assembler rest
      | .byte b =>
        let serial := { serial with clock := serial.clock + serial.byteTime }
        match assembler.push b with
        | (none, assembler) => listen wanted deadline false serial assembler rest
        | (some (.error .empty), assembler) => listen wanted deadline false serial assembler rest
        | (some (.error e), assembler) =>
          (listen wanted deadline false serial assembler rest).logged [logBadFrame e]
        | (some (.ok p), assembler) =>
          if wanted p then (heard (.ok (some p)) serial assembler rest).logged [logPacket p]
          else
            (listen wanted deadline false serial assembler rest).logged [logPacket p, logIgnored p]

def await (l : Link) (wanted : Packet → Bool) (timeout : Nat) : Reached (Option Packet) :=
  listen wanted (l.serial.clock + timeout) false l.serial l.assembler l.serial.incoming

/-- The next packet. Empty frames and unreadable ones are left out. -/
def readPacket (l : Link) (timeout : Nat) : Reached (Option Packet) :=
  l.await (fun _ => true) timeout

def isReset (p : Packet) : Bool := p.command? = some .reset

/-- Whether a target announces itself in time. Other packets are left out. -/
def awaitReset (l : Link) (timeout : Nat) : Reached Bool :=
  (l.await isReset timeout).map Option.isSome

/-- Sends a start, and forgets a frame that has not ended. -/
def sendStart (l : Link) : Reached Unit :=
  let (result, serial) := l.serial.send (Packet.bare Command.start.byte).encode
  ⟨result.mapError .startFailed, ⟨serial, {}⟩, []⟩

/-- What a packet behind the acknowledgment means. -/
def response : Option Packet → Response
  | none => .crash .responseTimeout
  | some p =>
    match p.command? with
    | some .finish => .expected
    | some .fault => .fault p.payload
    | some .reset => .reset
    | _ => .crash (.unexpected p.cmd)

/-- Goes on with the packet that should be the acknowledgment. -/
def respond (responseTimeout : Nat) (ack : Option Packet) (l : Link) : Reached Response :=
  match ack with
  | none => ⟨.ok (.crash .ackTimeout), l, []⟩
  | some p =>
    match p.command? with
    | some .start => (l.readPacket responseTimeout).map response
    | some .reset => ⟨.ok .reset, l, []⟩
    | _ => ⟨.ok (.crash (.unexpected p.cmd)), l, []⟩

/-- One cycle: a start, its acknowledgment, the response. -/
def cycle (l : Link) (ackTimeout responseTimeout : Nat) : Reached Response :=
  l.sendStart.andThen fun _ l =>
    (l.readPacket ackTimeout).andThen (respond responseTimeout)

end Link
end FaultBench.Host
