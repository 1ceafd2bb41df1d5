import FaultBench.Wire.Packet

/-! The target's serial line: what it delivers, how many more bytes it accepts, and what can be
seen from outside while the target runs. -/
namespace FaultBench.Target

inductive LineError where
  | overrun
  | framing
  | noise
  | parity
  | closed
  deriving DecidableEq, Repr

def LineError.message : LineError → String
  | .overrun => "receiver overrun"
  | .framing => "framing error on the line"
  | .noise => "noise detected on the line"
  | .parity => "parity error"
  | .closed => "serial port closed"

inductive Arrival where
  | byte (b : UInt8)
  | failure (e : LineError)
  deriving DecidableEq, Repr

/-- What an observer of the board sees. -/
inductive Event where
  | sent (b : UInt8)
  /-- All bytes sent so far have left the transmitter. -/
  | flushed
  | triggerLow
  | triggerHigh
  | prepared
  | ran
  /-- The indicator shows a good cycle. -/
  | shownGood (cycle : UInt32)
  | shownBad (cycle : UInt32)
  deriving DecidableEq, Repr

/-- A line with scripted behaviour. A read beyond the script finds the line closed. -/
structure Line where
  incoming : List Arrival := []
  /-- The bytes still accepted and the failure behind them, once writes begin to fail. -/
  writeLimit : Option (Nat × LineError) := none
  flushFailure : Option LineError := none
  /-- A line without a flush of its own has nothing to wait for. -/
  hasFlush : Bool := true
  deriving DecidableEq, Repr

/-- The end of a transmission: whether it succeeded, the line behind it and what was seen. -/
structure Transmission where
  result : Except LineError Unit
  line : Line
  events : List Event

namespace Line

def failWritesAfter (l : Line) (accepted : Nat) (e : LineError) : Line :=
  { l with writeLimit := some (accepted, e) }

def failFlushes (l : Line) (e : LineError) : Line := { l with flushFailure := some e }

def repair (l : Line) : Line := { l with writeLimit := none, flushFailure := none }

def deliver (l : Line) (arrivals : List Arrival) : Line :=
  { l with incoming := l.incoming ++ arrivals }

def write (l : Line) : Except LineError Line :=
  match l.writeLimit with
  | none => .ok l
  | some (0, e) => .error e
  | some (left + 1, e) => .ok { l with writeLimit := some (left, e) }

def flush (l : Line) : Transmission :=
  if l.hasFlush then
    match l.flushFailure with
    | none => ⟨.ok (), l, [.flushed]⟩
    | some e => ⟨.error e, l, []⟩
  else ⟨.ok (), l, []⟩

/-- Writes the bytes in order and then flushes; the first failure ends the transmission. -/
def transmit (l : Line) : List UInt8 → Transmission
  | [] => l.flush
  | b :: rest =>
    match l.write with
    | .error e => ⟨.error e, l, []⟩
    | .ok l' =>
      let t := l'.transmit rest
      { t with events := .sent b :: t.events }

end Line
end FaultBench.Target
