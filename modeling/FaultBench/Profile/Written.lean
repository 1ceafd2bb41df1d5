import FaultBench.Profile.Basic
import FaultBench.Yaml.Layout

/-! The written form of a profile: all of its fields, in a fixed order. -/
namespace FaultBench.Profile
open Yaml

def numberLayout (n : Nat) : Layout := .scalar (.ofNat n)

def contentsLayout : BufferInit → Layout
  | .fill b => .fields [("fill", numberLayout b.toNat)]
  | .sequence bytes => .fields [("sequence", .items (bytes.map fun b => .ofNat b.toNat))]

def layout (p : Profile) : List (String × Layout) :=
  [("schema_version", .scalar (.ofText p.schemaVersion)),
    ("counted_loop", .fields
      [("outer", numberLayout p.countedLoop.outer.toNat),
        ("inner", numberLayout p.countedLoop.inner.toNat)]),
    ("buffer_copy", .fields
      [("size", numberLayout p.bufferCopy.size.toNat),
        ("source", contentsLayout p.bufferCopy.source),
        ("destination", contentsLayout p.bufferCopy.destination)]),
    ("unrolled", .fields [("executions", numberLayout p.unrolled.executions.toNat)]),
    ("serial", .fields [("baud", numberLayout p.serial.baud.toNat)])]

def toYaml (p : Profile) : String := Layout.render p.layout

end FaultBench.Profile
