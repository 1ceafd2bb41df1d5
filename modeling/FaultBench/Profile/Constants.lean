import FaultBench.Profile.Basic
import FaultBench.Text.Digits

/-! The constants that a profile contributes to the firmware's source text. -/
namespace FaultBench

def BufferInit.byteList (bytes : List UInt8) : String :=
  ", ".intercalate (bytes.map Text.hexLiteral)

def BufferInit.constant : BufferInit → String
  | .fill b => "fi_profiler_core::BufferInit::Fill(" ++ Text.hexLiteral b ++ ")"
  | .sequence bytes => "fi_profiler_core::BufferInit::Sequence(&[" ++ byteList bytes ++ "])"

namespace Profile

def constantLine (name type value : String) : String :=
  "pub const " ++ name ++ ": " ++ type ++ " = " ++ value ++ ";\n"

def initType : String := "fi_profiler_core::BufferInit<'static>"

def constants (p : Profile) : String :=
  "// Generated from the profiling profile. Do not edit.\n" ++
    constantLine "LOOP_OUTER" "u32" (Text.decimal p.countedLoop.outer.toNat) ++
    constantLine "LOOP_INNER" "u32" (Text.decimal p.countedLoop.inner.toNat) ++
    constantLine "BUFFER_SIZE" "usize" (Text.decimal p.bufferCopy.size.toNat) ++
    constantLine "BUFFER_SOURCE" initType p.bufferCopy.source.constant ++
    constantLine "BUFFER_DESTINATION" initType p.bufferCopy.destination.constant ++
    constantLine "UNROLLED_EXECUTIONS" "u32" (Text.decimal p.unrolled.executions.toNat) ++
    constantLine "BAUD" "u32" (Text.decimal p.serial.baud.toNat)

end Profile
end FaultBench
