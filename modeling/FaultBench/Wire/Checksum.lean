/-! The one-byte payload checksum: a cyclic redundancy check with generator `x^8+x^6+x^3+x^2+1`,
zero initial register, most significant bit first and no final complement. -/
namespace FaultBench.Wire

/-- The generator polynomial without its leading term. -/
def generator : UInt8 := 0x4D

/-- Multiplies the register by `x` modulo the generator. -/
def shift (r : UInt8) : UInt8 :=
  if r &&& 0x80 = 0 then r <<< 1 else (r <<< 1) ^^^ generator

/-- The register after one more byte. -/
def absorb (r b : UInt8) : UInt8 := Nat.repeat shift 8 (r ^^^ b)

def checksumFrom (r : UInt8) (data : List UInt8) : UInt8 := data.foldl absorb r

def checksum (data : List UInt8) : UInt8 := checksumFrom 0 data

@[simp] theorem checksumFrom_nil (r : UInt8) : checksumFrom r [] = r := rfl

@[simp] theorem checksumFrom_cons (r b : UInt8) (data : List UInt8) :
    checksumFrom r (b :: data) = checksumFrom (absorb r b) data := rfl

theorem checksumFrom_append (r : UInt8) (xs ys : List UInt8) :
    checksumFrom r (xs ++ ys) = checksumFrom (checksumFrom r xs) ys := by
  simp [checksumFrom]

example : checksum [0x11,0x00,0x22] = 0xE3 := by decide +kernel

end FaultBench.Wire
