import FaultBench.Profile.Validation
import FaultBench.Text.Json

/-! What the payload of a fault report says about the run that diverged. -/
namespace FaultBench.Host
open Text

inductive Interpretation where
  | counter (observed expected : UInt32)
  /-- The positions at which the destination is not as after a good copy, and whether it still is
  as before the copy. -/
  | buffer (differing : List Nat) (untouched : Bool)
  /-- The payload has not the size that the workload reports. -/
  | malformed (length expected : Nat)
  deriving DecidableEq, Repr

/-- The positions, counted from `i`, at which two rows of bytes differ, as far as both go. -/
def differences (i : Nat) : List UInt8 → List UInt8 → List Nat
  | a :: as, b :: bs => (if a = b then [] else [i]) ++ differences (i + 1) as bs
  | _, _ => []

/-- Compares a payload with the images of the two buffers. No more of them than the payload's
length is laid out. -/
def compareBuffers (c : Profile.CopyBuffers) (payload : List UInt8) : Interpretation :=
  .buffer (differences 0 payload (c.source.image (min payload.length c.size.toNat)))
    (payload.length = c.size.toNat ∧ payload = c.destination.image payload.length)

def interpret (p : Profile) (k : Workload.Kind) (payload : List UInt8) : Interpretation :=
  if payload.length ≠ p.faultPayloadLength k then
    .malformed payload.length (p.faultPayloadLength k)
  else
    match Wire.Counter.decode? payload, p.expectedCounter? k with
    | some observed, some expected => .counter observed expected
    | _, _ => compareBuffers p.bufferCopy payload

namespace Interpretation

/-- Whether the images to compare with are too large to be laid out. -/
def crashes (p : Profile) : Interpretation → Bool
  | .buffer _ _ => Profile.allocationLimit < p.bufferCopy.size.toNat
  | _ => false

def json : Interpretation → Json
  | .counter observed expected =>
    .object [("kind", .text "counter"), ("observed", .number observed.toNat),
      ("expected", .number expected.toNat)]
  | .buffer differing untouched =>
    .object [("kind", .text "buffer"), ("differing", .list (differing.map .number)),
      ("untouched", .boolean untouched)]
  | .malformed length expected =>
    .object [("kind", .text "malformed"), ("len", .number length),
      ("expected_len", .number expected)]

end Interpretation
end FaultBench.Host
