import FaultBench.Profile.Basic
import FaultBench.Text.Digits

/-! What a profile has to satisfy before anything is built from it or run with it. -/
namespace FaultBench.Profile

inductive BufferRole where
  | source
  | destination
  deriving DecidableEq, Repr

def BufferRole.name : BufferRole → String
  | .source => "source"
  | .destination => "destination"

inductive Violation where
  | unsupportedSchema (found : String)
  | zeroIterations (outer inner : UInt32)
  | iterationOverflow (outer inner : UInt32)
  | zeroBufferSize
  | sequenceTooLong (role : BufferRole) (length : Nat) (size : UInt64)
  /-- A copy that did not happen would leave no trace. -/
  | indistinguishableBuffers
  | unsupportedExecutions (executions : UInt32)
  | zeroBaud
  deriving DecidableEq, Repr

def Violation.message : Violation → String
  | .unsupportedSchema found =>
    "Unsupported schema_version '" ++ found ++ "'. Supported versions: '1.0'"
  | .zeroIterations outer inner =>
    "counted_loop needs at least one iteration (outer=" ++ Text.decimal outer.toNat ++
      ", inner=" ++ Text.decimal inner.toNat ++ ")"
  | .iterationOverflow outer inner =>
    "counted_loop outer*inner (" ++ Text.decimal outer.toNat ++ "*" ++
      Text.decimal inner.toNat ++ ") does not fit the 32-bit fault payload"
  | .zeroBufferSize => "buffer_copy size must be greater than zero"
  | .sequenceTooLong role length size =>
    "buffer_copy " ++ role.name ++ " sequence has " ++ Text.decimal length ++
      " bytes but the buffer holds " ++ Text.decimal size.toNat
  | .indistinguishableBuffers =>
    "buffer_copy source and destination start out identical; " ++
      "a skipped copy would go unnoticed"
  | .unsupportedExecutions executions =>
    "unrolled executions " ++ Text.decimal executions.toNat ++
      " is not supported (expected one of 10, 100, 1000, 10000)"
  | .zeroBaud => "serial baud rate must be greater than zero"

inductive Invalid where
  | violation (v : Violation)
  /-- The buffer images are larger than any allocation, and laying them out ends the program. -/
  | crash
  deriving DecidableEq, Repr

def Invalid.message : Invalid → String
  | .violation v => v.message
  | .crash => "capacity overflow"

/-- The largest size of an allocation in bytes. -/
def allocationLimit : Nat := Nat.pow 2 63 - 1

def CopyBuffers.fits (c : CopyBuffers) (init : BufferInit) : Bool := init.fits c.size.toNat

/-- The rules in the order in which they are checked, each with the failure it stands for. -/
def rules (p : Profile) : List (Bool × Invalid) :=
  let l := p.countedLoop
  let c := p.bufferCopy
  let tooLong (role : BufferRole) (init : BufferInit) : Invalid :=
    .violation (.sequenceTooLong role init.span c.size)
  [(p.schemaVersion = currentSchema, .violation (.unsupportedSchema p.schemaVersion)),
    (l.outer ≠ 0 ∧ l.inner ≠ 0, .violation (.zeroIterations l.outer l.inner)),
    (l.expected?.isSome, .violation (.iterationOverflow l.outer l.inner)),
    (c.size ≠ 0, .violation .zeroBufferSize),
    (c.fits c.source, tooLong .source c.source),
    (c.fits c.destination, tooLong .destination c.destination),
    (c.size.toNat ≤ allocationLimit, .crash),
    (c.source.differsFrom c.destination c.size.toNat, .violation .indistinguishableBuffers),
    (p.unrolled.executions ∈ Counting.unrolledLengths,
      .violation (.unsupportedExecutions p.unrolled.executions)),
    (p.serial.baud ≠ 0, .violation .zeroBaud)]

/-- Succeeds when all rules hold, and otherwise fails with the first that does not. -/
def validate (p : Profile) : Except Invalid Unit :=
  match p.rules.find? fun r => !r.1 with
  | none => .ok ()
  | some r => .error r.2

end FaultBench.Profile
