/-! Consistent-overhead byte stuffing. A block is a sequence of runs, each announced by a code one
larger than its length, and ends with a zero; the zeros of the data stand between the runs. A run
of 254 bytes is full and stands for its bytes alone, with no zero after it. -/
namespace FaultBench.Wire.Stuffing

/-- The longest run, announced by the code 255. -/
def fullRun : Nat := 254

/-- One run behind its code. -/
def block (run : List UInt8) : List UInt8 := UInt8.ofNat (run.length + 1) :: run

/-- Stuffs `data` after the bytes of an unfinished run. A full run that ends the data is the last
one: no empty run follows it. -/
def stuffFrom (run : List UInt8) : List UInt8 → List UInt8
  | [] => block run ++ [0]
  | b :: rest =>
    if b = 0 then block run ++ stuffFrom [] rest
    else if run.length + 1 = fullRun then
      block (run ++ [b]) ++ if rest.isEmpty then [0] else stuffFrom [] rest
    else stuffFrom (run ++ [b]) rest

def stuff (data : List UInt8) : List UInt8 := stuffFrom [] data

/-- Reads a block with `left` bytes of the current run to come; `gap` says whether a zero stands
between that run and the next. The code zero ends the block and the rest is ignored; so does the
end of the input behind a complete run, even if the run took the zero that was meant to end it. -/
def unstuffFrom (gap : Bool) : Nat → List UInt8 → Option (List UInt8)
  | 0, [] => some []
  | _ + 1, [] => none
  | left + 1, b :: rest => (unstuffFrom gap left rest).map (b :: ·)
  | 0, code :: rest =>
    if code = 0 then some []
    else
      (unstuffFrom (code ≠ 255) (code.toNat - 1) rest).map
        fun data => if gap then 0 :: data else data

/-- The data of a block, if its last run is complete. -/
def unstuff (stuffed : List UInt8) : Option (List UInt8) := unstuffFrom false 0 stuffed

example : stuff [0x11,0,0x22,0xE3] = [0x02,0x11,0x03,0x22,0xE3,0] := by decide
example : stuff [0] = [1,1,0] := by decide
example : unstuff [0x02,0x11,0x03,0x22,0xE3,0] = some [0x11,0,0x22,0xE3] := by decide
example : unstuff [0x03,0x11] = none := by decide
example : unstuff [0x03,0x11,0] = some [0x11,0] := by decide

end FaultBench.Wire.Stuffing
