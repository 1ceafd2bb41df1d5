import FaultBench.Text.Digits
import FaultBench.Wire.Checksum
import FaultBench.Wire.Stuffing
import FaultBench.Wire.Command

/-! Packets and their frames. A packet without payload is its command byte and a zero; with a
payload, the command byte is followed by the stuffed block of payload and checksum. The command
byte is not stuffed, so a frame keeps its only zero at the end when the command is not zero. -/
namespace FaultBench.Wire

structure Packet where
  cmd : UInt8
  payload : List UInt8
  deriving DecidableEq, Repr

inductive FrameError where
  | empty
  | unterminated
  /-- The frame is longer than the receive buffer. -/
  | overflow (capacity : Nat)
  | payloadTooLarge (length capacity : Nat)
  /-- A packet was to be sent with the terminator as its command. -/
  | reservedCommand
  | malformedBlock
  | checksumMismatch (computed received : UInt8)
  deriving DecidableEq, Repr

def FrameError.message : FrameError → String
  | .empty => "empty frame"
  | .unterminated => "frame is not terminated by 0x00"
  | .overflow capacity =>
    "frame exceeds the " ++ Text.decimal capacity ++ " byte receive buffer"
  | .payloadTooLarge length capacity =>
    Text.decimal length ++ " byte payload does not fit the " ++ Text.decimal capacity ++
      " byte frame buffer"
  | .reservedCommand => "command byte 0x00 is reserved as the frame terminator"
  | .malformedBlock => "malformed COBS block"
  | .checksumMismatch computed received =>
    "CRC mismatch: computed " ++ Text.hexLiteral computed ++ ", received " ++
      Text.hexLiteral received

/-- What a boot announces: a reset packet between empty frames, which keep it recognisable after
a partial line. -/
def resetMarker : List UInt8 := [0, 0, 0, Command.reset.byte, 0, 0, 0]

/-- The bytes to be stuffed for a payload: nothing for the empty one. -/
def sealed (payload : List UInt8) : List UInt8 :=
  if payload.isEmpty then [] else payload ++ [checksum payload]

/-- Seals a payload in a buffer of `capacity` bytes, which has to hold the checksum too. -/
def sealIn (capacity : Nat) (payload : List UInt8) : Except FrameError (List UInt8) :=
  if payload.isEmpty ∨ payload.length < capacity then .ok (sealed payload)
  else .error (.payloadTooLarge payload.length capacity)

/-- The frame of a command and a sealed block, the terminator included. -/
def frame (cmd : UInt8) (block : List UInt8) : List UInt8 :=
  cmd :: if block.isEmpty then [0] else Stuffing.stuff block

namespace Packet

def command? (p : Packet) : Option Command := Command.ofByte? p.cmd

def encode (p : Packet) : List UInt8 := frame p.cmd (sealed p.payload)

def bare (cmd : UInt8) : Packet := ⟨cmd, []⟩

/-- The packet of a block whose last byte is the checksum of the bytes before it. -/
def opened (cmd : UInt8) (block : List UInt8) : Except FrameError Packet :=
  match block.getLast? with
  | none => .error .malformedBlock
  | some received =>
    let payload := block.dropLast
    if checksum payload = received then .ok ⟨cmd, payload⟩
    else .error (.checksumMismatch (checksum payload) received)

/-- Reads the bytes of exactly one frame, from its command to its terminator. -/
def decode (bytes : List UInt8) : Except FrameError Packet :=
  if bytes.getLast? ≠ some 0 then .error .unterminated
  else
    match bytes with
    | [] => .error .unterminated
    | [_] => .error .empty
    | [cmd, _] => .ok (bare cmd)
    | cmd :: block =>
      match Stuffing.unstuff block with
      | none => .error .malformedBlock
      | some data => opened cmd data

end Packet

example : (Packet.mk 0x66 [0x6B,0xD0,0x03,0x00]).encode =
    [0x66,0x04,0x6B,0xD0,0x03,0x02,0x27,0x00] := by decide +kernel
example : (Packet.decode [0x66,0x04,0x6B,0xD0,0x03,0x02,0x27,0x00]).toOption =
    some ⟨0x66, [0x6B,0xD0,0x03,0x00]⟩ := by decide +kernel

end FaultBench.Wire
