import FaultBench.Profile.Validation
import FaultBench.Yaml.Decoding

/-! Profiles out of YAML documents. Everything that a document leaves out has its default. -/
namespace FaultBench

namespace Profile
open Yaml

def byteDecoder : Decoder UInt8 := fun d path n =>
  (Decoder.number "u8" UInt8.size d path n).map UInt8.ofNat

def wordDecoder : Decoder UInt32 := fun d path n =>
  (Decoder.number "u32" UInt32.size d path n).map UInt32.ofNat

def sizeDecoder : Decoder UInt64 := fun d path n =>
  (Decoder.number "usize" UInt64.size d path n).map UInt64.ofNat

/-- The contents of a buffer, as a mapping with one key. -/
def contentsDecoder : Decoder BufferInit :=
  .variant "enum BufferInitConfig"
    [⟨"fill", fun d path n => (byteDecoder d path n).map .fill⟩,
      ⟨"sequence", fun d path n => (Decoder.sequence byteDecoder d path n).map .sequence⟩]

def CountedLoop.decoder : Decoder CountedLoop :=
  .mapping "struct CountedLoopConfig"
    [.storing "outer" wordDecoder fun l outer => { l with outer },
      .storing "inner" wordDecoder fun l inner => { l with inner }] {}

def CopyBuffers.decoder : Decoder CopyBuffers :=
  .mapping "struct BufferCopyConfig"
    [.storing "size" sizeDecoder fun c size => { c with size },
      .storing "source" contentsDecoder fun c source => { c with source },
      .storing "destination" contentsDecoder fun c destination => { c with destination }] {}

def Unrolled.decoder : Decoder Unrolled :=
  .mapping "struct UnrolledConfig"
    [.storing "executions" wordDecoder fun _ executions => { executions }] {}

def Serial.decoder : Decoder Serial :=
  .mapping "struct SerialConfig" [.storing "baud" wordDecoder fun _ baud => { baud }] {}

def decoder : Decoder Profile :=
  .mapping "struct ProfileConfig"
    [.storing "schema_version" (.text "a string") fun p schemaVersion => { p with schemaVersion },
      .storing "counted_loop" CountedLoop.decoder fun p countedLoop => { p with countedLoop },
      .storing "buffer_copy" CopyBuffers.decoder fun p bufferCopy => { p with bufferCopy },
      .storing "unrolled" Unrolled.decoder fun p unrolled => { p with unrolled },
      .storing "serial" Serial.decoder fun p serial => { p with serial }] {}

/-- The profile of a document, whether it is valid or not. -/
def ofDocument (d : Document) : Except Failure Profile := do
  let p ← decoder d [] d.root
  if d.sound then return p else .error .malformed

inductive Rejection where
  | unreadable (f : Failure)
  | invalid (i : Invalid)
  deriving DecidableEq, Repr

def Rejection.message : Rejection → String
  | .unreadable f => "Failed to parse Profile YAML: " ++ f.message
  | .invalid i => i.message

/-- A valid profile from a text. -/
def ofYaml (text : String) : Except Rejection Profile := do
  let p ← (ofDocument (Document.ofText text)).mapError .unreadable
  (p.validate).mapError .invalid
  return p

end Profile
end FaultBench
