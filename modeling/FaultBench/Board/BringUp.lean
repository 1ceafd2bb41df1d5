import FaultBench.Board.Register

/-! Bringing up the board: external clock, trigger on A12, serial line on A9 and A10, indicator on
C13 and C14. The trigger is driven low before its pin becomes an output. -/
namespace FaultBench.Board

/-- The frequency of the external clock in hertz. -/
def clockRate : UInt32 := 7372800

def transmitPin : UInt32 := 9
def receivePin : UInt32 := 10
def triggerPin : UInt32 := 12
def badPin : UInt32 := 13
def goodPin : UInt32 := 14

/-- The set half of a set-reset register. -/
def setPin (pin : UInt32) : UInt32 := bit pin

/-- The reset half of a set-reset register. -/
def resetPin (pin : UInt32) : UInt32 := bit (pin + 16)

def setField (r : Register) (pin value : UInt32) : Action :=
  .modify r (3 <<< (pin * 2)) (value <<< (pin * 2))

def outputMode : UInt32 := 1
def alternateMode : UInt32 := 2
def pullUp : UInt32 := 1
def pullDown : UInt32 := 2
def highSpeed : UInt32 := 2

/-- The alternate function that connects a pin to the serial line. -/
def serialFunction : UInt32 := 7

def clockSetup : List Action :=
  [.modify .clockControl 0 (bit 18),
    .modify .clockControl 0 (bit 16),
    .await .clockControl (bit 17) (bit 17),
    .modify .clockConfig 3 1,
    .await .clockConfig 0xC 0x4,
    .modify .ahbEnable 0 0x5,
    .modify .apbEnable 0 (bit 4)]

def triggerSetup : List Action :=
  [.store .gpioASetReset (resetPin triggerPin),
    setField .gpioAPull triggerPin pullDown,
    setField .gpioASpeed triggerPin highSpeed,
    setField .gpioAMode triggerPin outputMode]

/-- The four-bit alternate function field of a pin from 8 on. -/
def highField (pin value : UInt32) : UInt32 := value <<< ((pin - 8) * 4)

def serialPinSetup : List Action :=
  [.modify .gpioAAlternate (highField transmitPin 0xF ||| highField receivePin 0xF)
      (highField transmitPin serialFunction ||| highField receivePin serialFunction),
    setField .gpioAPull receivePin pullUp,
    setField .gpioAMode transmitPin alternateMode,
    setField .gpioAMode receivePin alternateMode]

def indicatorSetup : List Action :=
  [.store .gpioCSetReset (resetPin goodPin ||| resetPin badPin),
    setField .gpioCMode goodPin outputMode,
    setField .gpioCMode badPin outputMode]

/-- All that does not depend on the rate of the serial line. -/
def pinSetup : List Action := clockSetup ++ triggerSetup ++ serialPinSetup ++ indicatorSetup

/-- The clock rate over the baud rate, rounded to the nearest, ties upward. -/
def divisor (baud : UInt32) : UInt32 := (clockRate + baud / 2) / baud

def serialSetup (baud : UInt32) : List Action :=
  [.store .serialDivisor (divisor baud),
    .store .serialControl (bit 13 ||| bit 3 ||| bit 2)]

inductive BringUp where
  /-- A bit that is polled for is never set. -/
  | stuck
  /-- There is no divisor for the baud rate zero; the registers are as written so far. -/
  | noDivisor (m : Registers)
  | ready (m : Registers)

def bringUp (baud : UInt32) (m : Registers) : BringUp :=
  match Action.runAll pinSetup m with
  | none => .stuck
  | some m =>
    if baud = 0 then .noDivisor m
    else
      match Action.runAll (serialSetup baud) m with
      | none => .stuck
      | some m => .ready m

end FaultBench.Board
