/-! Counters on the wire: four bytes, the least significant first. -/
namespace FaultBench.Wire.Counter

/-- The number of payload bytes of a counter. -/
def width : Nat := 4

def encode (value : UInt32) : List UInt8 :=
  [value.toUInt8, (value >>> 8).toUInt8, (value >>> 16).toUInt8, (value >>> 24).toUInt8]

/-- Reads a payload of exactly four bytes. -/
def decode? : List UInt8 → Option UInt32
  | [a, b, c, d] =>
    some (a.toUInt32 ||| b.toUInt32 <<< 8 ||| c.toUInt32 <<< 16 ||| d.toUInt32 <<< 24)
  | _ => none

@[simp] theorem length_encode (value : UInt32) : (encode value).length = width := rfl

example : encode 249963 = [0x6B,0xD0,0x03,0x00] := by decide
example : decode? [0x6B,0xD0,0x03,0x00] = some 249963 := by decide

end FaultBench.Wire.Counter
