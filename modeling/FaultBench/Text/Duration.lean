import FaultBench.Text.Digits

/-! Durations as text, in the largest unit that leaves a digit before the point. -/
namespace FaultBench.Text

/-- Thousandths without zeros at the end, behind a point. -/
def thousandths (n : Nat) : String :=
  if n = 0 then ""
  else if n % 100 = 0 then "." ++ decimal (n / 100)
  else if n % 10 = 0 then "." ++ (if n < 100 then "0" else "") ++ decimal (n / 10)
  else "." ++ (if n < 10 then "00" else if n < 100 then "0" else "") ++ decimal n

/-- A duration of whole milliseconds. -/
def milliseconds (n : Nat) : String :=
  if n = 0 then "0ns"
  else if n < 1000 then decimal n ++ "ms"
  else decimal (n / 1000) ++ thousandths (n % 1000) ++ "s"

example : ([0, 20, 1500, 1050, 1005, 60000].map milliseconds) =
    ["0ns", "20ms", "1.5s", "1.05s", "1.005s", "60s"] := by decide +kernel

end FaultBench.Text
