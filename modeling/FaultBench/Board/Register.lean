/-! The memory-mapped registers of the board and the actions on them. -/
namespace FaultBench.Board

inductive Register where
  | clockControl
  | clockConfig
  | ahbEnable
  | apbEnable
  | gpioAMode
  | gpioASpeed
  | gpioAPull
  | gpioASetReset
  | gpioAAlternate
  | gpioCMode
  | gpioCSpeed
  | gpioCPull
  | gpioCSetReset
  | gpioCAlternate
  | serialStatus
  | serialData
  | serialDivisor
  | serialControl
  deriving DecidableEq, Repr

namespace Register

/-- The name in the reference manual. -/
def name : Register → String
  | clockControl => "RCC_CR"
  | clockConfig => "RCC_CFGR"
  | ahbEnable => "RCC_AHB1ENR"
  | apbEnable => "RCC_APB2ENR"
  | gpioAMode => "GPIOA_MODER"
  | gpioASpeed => "GPIOA_OSPEEDR"
  | gpioAPull => "GPIOA_PUPDR"
  | gpioASetReset => "GPIOA_BSRR"
  | gpioAAlternate => "GPIOA_AFRH"
  | gpioCMode => "GPIOC_MODER"
  | gpioCSpeed => "GPIOC_OSPEEDR"
  | gpioCPull => "GPIOC_PUPDR"
  | gpioCSetReset => "GPIOC_BSRR"
  | gpioCAlternate => "GPIOC_AFRH"
  | serialStatus => "USART1_SR"
  | serialData => "USART1_DR"
  | serialDivisor => "USART1_BRR"
  | serialControl => "USART1_CR1"

def all : List Register :=
  [clockControl, clockConfig, ahbEnable, apbEnable,
    gpioAMode, gpioASpeed, gpioAPull, gpioASetReset, gpioAAlternate,
    gpioCMode, gpioCSpeed, gpioCPull, gpioCSetReset, gpioCAlternate,
    serialStatus, serialData, serialDivisor, serialControl]

theorem mem_all (r : Register) : r ∈ all := by cases r <;> decide

end Register

def bit (n : UInt32) : UInt32 := 1 <<< n

structure Registers where
  read : Register → UInt32

namespace Registers

def cleared : Registers := ⟨fun _ => 0⟩

def store (m : Registers) (r : Register) (value : UInt32) : Registers :=
  ⟨fun s => if s = r then value else m.read s⟩

@[simp] theorem read_store_self (m : Registers) (r : Register) (v : UInt32) :
    (m.store r v).read r = v := by simp [store]

@[simp] theorem read_store_of_ne (m : Registers) {r s : Register} (v : UInt32) (h : s ≠ r) :
    (m.store r v).read s = m.read s := by simp [store, h]

/-- Stores that have happened, looked up once for all registers. -/
def settle (m : Registers) : Registers :=
  let values := Register.all.map fun r => (r, m.read r)
  ⟨fun s => (values.lookup s).getD 0⟩

end Registers

inductive Action where
  | store (r : Register) (value : UInt32)
  | modify (r : Register) (clear set : UInt32)
  /-- Polls until the masked bits have a value. -/
  | await (r : Register) (mask value : UInt32)
  deriving DecidableEq, Repr

namespace Action

def stored? (m : Registers) : Action → Option (Register × UInt32)
  | .store r value => some (r, value)
  | .modify r clear set => some (r, m.read r &&& ~~~ clear ||| set)
  | .await _ _ _ => none

/-- Whether the action ends, with registers that change by stores alone. -/
def ends (m : Registers) : Action → Bool
  | .await r mask value => m.read r &&& mask = value
  | _ => true

/-- The registers after an action, or nothing when it polls for ever. -/
def run (m : Registers) (a : Action) : Option Registers :=
  if a.ends m then
    match a.stored? m with
    | some (r, value) => some (m.store r value)
    | none => some m
  else none

def runAll : List Action → Registers → Option Registers
  | [], m => some m
  | a :: rest, m => (a.run m).bind (runAll rest)

end Action
end FaultBench.Board
