import FaultBench.Text.Blank

/-! The kinds of workload and their names. -/
namespace FaultBench.Workload

inductive Kind where
  | countedLoop
  | bufferCopy
  | unrolled
  deriving DecidableEq, Repr

namespace Kind

def all : List Kind := [countedLoop, bufferCopy, unrolled]

def name : Kind → String
  | countedLoop => "counted-loop"
  | bufferCopy => "buffer-copy"
  | unrolled => "unrolled"

def binary : Kind → String
  | countedLoop => "profile-loop"
  | bufferCopy => "profile-memcpy"
  | unrolled => "profile-unrolled"

/-- A kind by its exact name or its short one. -/
def ofName? (name : String) : Option Kind :=
  if name = "counted-loop" ∨ name = "loop" then some countedLoop
  else if name = "buffer-copy" ∨ name = "memcpy" then some bufferCopy
  else if name = "unrolled" then some unrolled
  else none

/-- What a name given by hand stands for: blanks around it and the case of ASCII letters do not
count. -/
def canonical (text : String) : String :=
  String.ofList ((Text.strip text.toList).map Char.toLower)

def ofText? (text : String) : Option Kind := ofName? (canonical text)

def unknownMessage (text : String) : String :=
  "Unknown workload '" ++ canonical text ++
    "'. Expected one of: counted-loop, buffer-copy, unrolled"

@[simp] theorem ofName?_name (k : Kind) : ofName? k.name = some k := by cases k <;> decide

theorem mem_all (k : Kind) : k ∈ all := by cases k <;> decide

end Kind
end FaultBench.Workload
