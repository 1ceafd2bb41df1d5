import FaultBench.Host.Interpretation

/-! What one cycle of a target came to, as a line of the results and as a part of their summary. -/
namespace FaultBench.Host
open Text

inductive CrashKind where
  | ackTimeout
  | responseTimeout
  /-- A packet came that has no place there. -/
  | unexpected (cmd : UInt8)
  deriving DecidableEq, Repr

def CrashKind.message : CrashKind → String
  | .ackTimeout => "ack timeout"
  | .responseTimeout => "response timeout"
  | .unexpected cmd => "unexpected packet " ++ hexLiteral cmd

inductive Response where
  | expected
  | fault (payload : List UInt8)
  | reset
  | crash (why : CrashKind)
  deriving DecidableEq, Repr

inductive Category where
  | noFault
  | fault
  | reset
  | crash
  deriving DecidableEq, Repr

namespace Category

def all : List Category := [noFault, fault, reset, crash]

def name : Category → String
  | noFault => "nofault"
  | fault => "fault"
  | reset => "reset"
  | crash => "crash"

/-- The name in log entries. -/
def title : Category → String
  | noFault => "NoFault"
  | fault => "Fault"
  | reset => "Reset"
  | crash => "Crash"

end Category

namespace Response

def category : Response → Category
  | .expected => .noFault
  | .fault _ => .fault
  | .reset => .reset
  | .crash _ => .crash

def payload? : Response → Option (List UInt8)
  | .fault payload => some payload
  | _ => none

def detail? : Response → Option String
  | .crash why => some why.message
  | _ => none

end Response

structure Record where
  cycle : Nat
  category : Category
  detail : Option String
  payload : Option (List UInt8)
  interpretation : Option Interpretation
  /-- In microseconds. -/
  elapsed : Nat
  deriving DecidableEq, Repr

namespace Record

def of (cycle : Nat) (r : Response) (p : Profile) (k : Workload.Kind) (elapsed : Nat) : Record :=
  { cycle
    category := r.category
    detail := r.detail?
    payload := r.payload?
    interpretation := r.payload?.map (interpret p k)
    elapsed }

/-- What a record does not have is left out. -/
def json (r : Record) : Json :=
  .object ([("cycle", .number r.cycle), ("category", .text r.category.name)] ++
    Json.member? "detail" .text r.detail ++
    Json.member? "payload" (fun b => .text (hex b)) r.payload ++
    Json.member? "interpretation" Interpretation.json r.interpretation ++
    [("elapsed_us", .number r.elapsed)])

def crashes (p : Profile) (r : Record) : Bool := r.interpretation.any (·.crashes p)

end Record

structure Summary where
  noFault : Nat := 0
  fault : Nat := 0
  reset : Nat := 0
  crash : Nat := 0
  deriving DecidableEq, Repr

namespace Summary

def count (s : Summary) : Category → Nat
  | .noFault => s.noFault
  | .fault => s.fault
  | .reset => s.reset
  | .crash => s.crash

def add (s : Summary) : Category → Summary
  | .noFault => { s with noFault := s.noFault + 1 }
  | .fault => { s with fault := s.fault + 1 }
  | .reset => { s with reset := s.reset + 1 }
  | .crash => { s with crash := s.crash + 1 }

def cycles (s : Summary) : Nat := s.noFault + s.fault + s.reset + s.crash

@[simp] theorem cycles_add (s : Summary) (c : Category) : (s.add c).cycles = s.cycles + 1 := by
  cases c <;> simp only [add, cycles] <;> omega

theorem count_add (s : Summary) (c d : Category) :
    (s.add c).count d = s.count d + if c = d then 1 else 0 := by
  cases c <;> cases d <;> rfl

/-- The counts of the categories that came up. -/
def json (s : Summary) : Json :=
  let seen := Category.all.filter fun c => s.count c ≠ 0
  .object [("cycles", .number s.cycles),
    ("categories", .object (seen.map fun c => (c.name, .number (s.count c))))]

end Summary
end FaultBench.Host
