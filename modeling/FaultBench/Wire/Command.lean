/-! The commands of the profiling protocol and the bytes that stand for them. -/
namespace FaultBench.Wire

inductive Command where
  /-- From the host: run one cycle. The target echoes it as its acknowledgment. -/
  | start
  /-- From the target: the cycle ended with the expected result. -/
  | finish
  /-- From the target: the result diverged, and the payload carries what was observed. -/
  | fault
  /-- From the target: sent once after every boot. -/
  | reset
  deriving DecidableEq, Repr

namespace Command

/-- The letters `s`, `e`, `f` and `r`. -/
def byte : Command → UInt8
  | .start => 0x73
  | .finish => 0x65
  | .fault => 0x66
  | .reset => 0x72

def ofByte? (b : UInt8) : Option Command :=
  if b = start.byte then some .start
  else if b = finish.byte then some .finish
  else if b = fault.byte then some .fault
  else if b = reset.byte then some .reset
  else none

@[simp] theorem ofByte?_byte (c : Command) : ofByte? c.byte = some c := by cases c <;> rfl

end Command
end FaultBench.Wire
