/-! Counting by single increments of a 32-bit register. -/
namespace FaultBench.Counting

/-- A register cleared and incremented `n` times. -/
def increments (n : Nat) : UInt32 := UInt32.ofNat n

@[simp] theorem increments_zero : increments 0 = 0 := rfl

theorem increments_succ (n : Nat) : increments (n + 1) = increments n + 1 := by
  simp [increments, UInt32.ofNat_add]

/-- Two nested loops around one increment of the register. -/
def nested (outer inner : Nat) (register : UInt32) : UInt32 :=
  Nat.repeat (Nat.repeat (· + 1) inner) outer register

/-- The bounds whose product is the count of a fault-free run. -/
def total (outer inner : UInt32) : UInt32 := outer * inner

/-- The lengths that an increment sequence without branches can have. -/
def unrolledLengths : List UInt32 := [10, 100, 1000, 10000]

theorem repeat_succ_eq (n : Nat) (r : UInt32) : Nat.repeat (· + 1) n r = r + increments n := by
  induction n with
  | zero => simp [Nat.repeat]
  | succ n ih => rw [Nat.repeat, ih, increments_succ, UInt32.add_assoc]

/-- The loops add the product of their bounds. -/
theorem nested_eq (outer inner : Nat) (r : UInt32) :
    nested outer inner r = r + increments (outer * inner) := by
  unfold nested
  induction outer with
  | zero => simp [Nat.repeat]
  | succ n ih =>
    rw [Nat.repeat, ih, repeat_succ_eq, UInt32.add_assoc, Nat.succ_mul]
    simp [increments, UInt32.ofNat_add]

end FaultBench.Counting
