/-! Initial contents of a copy buffer, seen as a byte at each position, as an image of a given
size, and as a change to a buffer that holds something else. -/
namespace FaultBench

inductive BufferInit where
  /-- The same byte everywhere. -/
  | fill (byte : UInt8)
  /-- Explicit leading bytes, then zeros. -/
  | sequence (bytes : List UInt8)
  deriving DecidableEq, Repr

namespace BufferInit

/-- The byte at a position of a buffer of any size. -/
def byteAt : BufferInit → Nat → UInt8
  | .fill b, _ => b
  | .sequence bytes, i => bytes.getD i 0

/-- A buffer of `size` bytes with these contents. -/
def image : BufferInit → Nat → List UInt8
  | .fill b, size => List.replicate size b
  | .sequence bytes, size => bytes.take size ++ List.replicate (size - bytes.length) 0

/-- Writes the leading bytes that fit over a buffer and clears the rest of it. -/
def overwrite : List UInt8 → List UInt8 → List UInt8
  | _, [] => []
  | [], _ :: buffer => 0 :: overwrite [] buffer
  | b :: bytes, _ :: buffer => b :: overwrite bytes buffer

def apply : BufferInit → List UInt8 → List UInt8
  | .fill b, buffer => buffer.map fun _ => b
  | .sequence bytes, buffer => overwrite bytes buffer

/-- The contents without their first byte. -/
def tail : BufferInit → BufferInit
  | .fill b => .fill b
  | .sequence bytes => .sequence bytes.tail

/-- From this position on all bytes are the same. -/
def span : BufferInit → Nat
  | .fill _ => 0
  | .sequence bytes => bytes.length

/-- Whether two contents differ at one of the first positions. -/
def differWithin : Nat → BufferInit → BufferInit → Bool
  | 0, _, _ => false
  | n + 1, a, b => a.byteAt 0 != b.byteAt 0 || differWithin n a.tail b.tail

/-- Whether buffers of `size` bytes with these contents differ. Behind the longer span the bytes
no longer change, so one position there stands for the rest. -/
def differsFrom (a b : BufferInit) (size : Nat) : Bool :=
  differWithin (min size (max a.span b.span + 1)) a b

def fits (init : BufferInit) (size : Nat) : Bool := init.span ≤ size

@[simp] theorem length_image (init : BufferInit) (size : Nat) :
    (init.image size).length = size := by
  cases init with
  | fill b => simp [image]
  | sequence bytes => simp [image]; omega

@[simp] theorem length_overwrite (bytes buffer : List UInt8) :
    (overwrite bytes buffer).length = buffer.length := by
  fun_induction overwrite bytes buffer <;> simp_all

@[simp] theorem length_apply (init : BufferInit) (buffer : List UInt8) :
    (init.apply buffer).length = buffer.length := by
  cases init <;> simp [apply]

end BufferInit
end FaultBench
