import FaultBench.Yaml.Scalar.Written

/-! Documents in block style: fields one below the other, their values at the same line or, two
columns further in, on the lines below. -/
namespace FaultBench.Yaml

inductive Layout where
  | scalar (s : Scalar)
  | items (row : List Scalar)
  | fields (block : List (String × Layout))

namespace Layout

/-- Ends a line, unless a line break that belongs to a scalar has ended it. -/
def endLine (cs : List Char) : List Char :=
  if cs.getLast?.any isBreak then cs else cs ++ ['\n']

def item (column : Nat) (s : Scalar) : List Char :=
  Scalar.spaces column ++ '-' :: ' ' :: endLine (s.print (column + 2))

mutual
/-- The value of a field, from behind the colon to the end of its last line. -/
def value (column : Nat) : Layout → List Char
  | .scalar s => ' ' :: endLine (s.print (column + 2))
  | .items [] => [' ', '[', ']', '\n']
  | .items row => '\n' :: row.flatMap (item column)
  | .fields [] => [' ', '\x7b', '\x7d', '\n']
  | .fields block => '\n' :: lines (column + 2) block

def lines (column : Nat) : List (String × Layout) → List Char
  | [] => []
  | (name, layout) :: rest =>
    Scalar.spaces column ++ (name.toList ++ ':' :: value column layout) ++ lines column rest
end

def render (fields : List (String × Layout)) : String := String.ofList (lines 0 fields)

end Layout
end FaultBench.Yaml
