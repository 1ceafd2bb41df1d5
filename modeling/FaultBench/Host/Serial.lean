import FaultBench.Wire.Packet

/-! The host's end of the serial line: what its reads find, the time they take, and what becomes of
writes. Time is counted in microseconds and passes only while the line is read. -/
namespace FaultBench.Host
open Wire

inductive IoFailure where
  | brokenPipe
  | permissionDenied
  deriving DecidableEq, Repr

def IoFailure.message : IoFailure → String
  | .brokenPipe => "broken pipe"
  | .permissionDenied => "permission denied"

inductive Arrival where
  | byte (b : UInt8)
  /-- The read fails after some time, and the next one may succeed. -/
  | stall (time : Nat)
  /-- Time passes, and the same read goes on. -/
  | pause (time : Nat)
  | hangUp
  | failure (e : IoFailure)
  deriving DecidableEq, Repr

/-- A target at the other end, which answers each terminator that it receives. -/
structure Responder where
  replies : List (List UInt8)
  /-- The answer when none of them is left. -/
  default : List UInt8
  deriving DecidableEq, Repr

structure Serial where
  incoming : List Arrival := []
  clock : Nat := 0
  /-- How long a byte takes. -/
  byteTime : Nat := 0
  /-- The number of bytes still accepted, once writes begin to fail. -/
  writesLeft : Option Nat := none
  flushFails : Bool := false
  sent : List UInt8 := []
  responder : Option Responder := none
  deriving DecidableEq, Repr

namespace Serial

/-- How long a read waits when nothing more arrives. -/
def patience : Nat := 10000

def deliver (s : Serial) (arrivals : List Arrival) : Serial :=
  { s with incoming := s.incoming ++ arrivals }

/-- The line after the target at the other end received a byte. -/
def answered (s : Serial) (b : UInt8) : Serial :=
  match s.responder with
  | none => s
  | some r =>
    if b = 0 then
      { s with responder := some { r with replies := r.replies.tail } }.deliver
        ((r.replies.headD r.default).map .byte)
    else s

def write (s : Serial) (b : UInt8) : Except IoFailure Serial :=
  match s.writesLeft with
  | some 0 => .error .brokenPipe
  | left => .ok ({ s with writesLeft := left.map (· - 1), sent := s.sent ++ [b] }.answered b)

/-- Writes bytes in order and flushes; the first failure ends it. -/
def send (s : Serial) : List UInt8 → Except IoFailure Unit × Serial
  | [] => (if s.flushFails then .error .brokenPipe else .ok (), s)
  | b :: rest =>
    match s.write b with
    | .error e => (.error e, s)
    | .ok s => s.send rest

/-- The time at which reads of a silent line end for good: the first at or behind the deadline. -/
def silentUntil (deadline clock : Nat) : Nat :=
  clock + (deadline - clock + (patience - 1)) / patience * patience

theorem le_silentUntil (deadline clock : Nat) : deadline ≤ silentUntil deadline clock := by
  unfold silentUntil patience
  omega

example : silentUntil 25000 0 = 30000 := rfl
example : silentUntil 5 7 = 7 := rfl

end Serial
end FaultBench.Host
