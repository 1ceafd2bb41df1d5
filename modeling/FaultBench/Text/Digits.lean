/-! Numbers and bytes as digits: decimal without leading zeros, and lower-case hexadecimal. -/
namespace FaultBench.Text

def decimal (n : Nat) : String := n.repr

/-- The value of a hexadecimal digit of either case. -/
def hexDigit? (c : Char) : Option Nat :=
  if '0' ≤ c ∧ c ≤ '9' then some (c.toNat - 48)
  else if 'a' ≤ c ∧ c ≤ 'f' then some (c.toNat - 87)
  else if 'A' ≤ c ∧ c ≤ 'F' then some (c.toNat - 55)
  else none

/-- The value of digits in a base, of which there has to be one. -/
def digits? (base : Nat) (cs : List Char) : Option Nat :=
  let step (n : Nat) (c : Char) : Option Nat :=
    (hexDigit? c).bind fun d => if d < base then some (n * base + d) else none
  if cs.isEmpty then none else cs.foldlM step 0

/-- The two hexadecimal digits of a byte, the high one first. -/
def hexPair (b : UInt8) : List Char := [Nat.digitChar (b.toNat / 16), Nat.digitChar (b.toNat % 16)]

/-- A byte in the notation `0x0f`. -/
def hexLiteral (b : UInt8) : String := String.ofList ('0' :: 'x' :: hexPair b)

/-- Two digits a byte, with nothing between the bytes. -/
def hex (bytes : List UInt8) : String := String.ofList (bytes.flatMap hexPair)

@[simp] theorem toList_decimal (n : Nat) : (decimal n).toList = Nat.toDigits 10 n := by
  simp [decimal]

@[simp] theorem length_hexPair (b : UInt8) : (hexPair b).length = 2 := rfl

end FaultBench.Text
