import FaultBench.Board.BringUp
import FaultBench.Target.Line

/-! The devices of a board that was brought up: the polled serial line, the trigger and the
indicator. -/
namespace FaultBench.Board
open Target

def anySet (value mask : UInt32) : Bool := value &&& mask ≠ 0

def parityFlag : UInt32 := bit 0
def framingFlag : UInt32 := bit 1
def noiseFlag : UInt32 := bit 2
def overrunFlag : UInt32 := bit 3
def receivedFlag : UInt32 := bit 5
def sentFlag : UInt32 := bit 6
def transmitReadyFlag : UInt32 := bit 7

/-- The failure that a status word stands for; of several the first in this order. -/
def failure? (status : UInt32) : Option LineError :=
  if anySet status overrunFlag then some .overrun
  else if anySet status framingFlag then some .framing
  else if anySet status noiseFlag then some .noise
  else if anySet status parityFlag then some .parity
  else none

/-- Receives a byte, or nothing when the poll for one does not end. -/
def receive (m : Registers) : Option (Except LineError UInt8) :=
  let status := m.read .serialStatus
  if anySet status (receivedFlag ||| overrunFlag ||| framingFlag ||| noiseFlag ||| parityFlag) then
    match failure? status with
    | some e => some (.error e)
    | none => some (.ok (m.read .serialData).toUInt8)
  else none

def transmit (b : UInt8) (m : Registers) : Option Registers :=
  if anySet (m.read .serialStatus) transmitReadyFlag then some (m.store .serialData b.toUInt32)
  else none

def flush (m : Registers) : Option Registers :=
  if anySet (m.read .serialStatus) sentFlag then some m else none

/-- A trigger edge is a single store. -/
def triggerHigh (m : Registers) : Registers := m.store .gpioASetReset (setPin triggerPin)

def triggerLow (m : Registers) : Registers := m.store .gpioASetReset (resetPin triggerPin)

def showGood (m : Registers) : Registers :=
  m.store .gpioCSetReset (setPin goodPin ||| resetPin badPin)

def showBad (m : Registers) : Registers :=
  m.store .gpioCSetReset (setPin badPin ||| resetPin goodPin)

end FaultBench.Board
