import FaultBench.Text.Concealed

/-! Text between double quotes, with escapes for quotes, backslashes and what cannot be shown. -/
namespace FaultBench.Text

/-- A number in lower-case hexadecimal, without leading zeros. -/
def hexNumber (n : Nat) : List Char := Nat.toDigits 16 n

/-- The escape of a character, if it needs one. -/
def escape? (c : Char) : Option (List Char) :=
  if c == '"' || c == '\\' then some ['\\', c]
  else if c == '\x00' then some ['\\', '0']
  else if c == '\t' then some ['\\', 't']
  else if c == '\n' then some ['\\', 'n']
  else if c == '\r' then some ['\\', 'r']
  else if isConcealed c then some (['\\', 'u', '\x7b'] ++ hexNumber c.toNat ++ ['\x7d'])
  else none

def escaped (c : Char) : List Char := (escape? c).getD [c]

def quoted (s : String) : String :=
  String.ofList (['"'] ++ s.toList.flatMap escaped ++ ['"'])

/-- In a quoted path a single quote is escaped too. -/
def quotedPath (path : String) : String :=
  String.ofList (['"'] ++
    path.toList.flatMap (fun c => if c == '\x27' then ['\\', c] else escaped c) ++ ['"'])

example : quoted "a\"b\\" = "\"a\\\"b\\\\\"" := by decide +kernel

end FaultBench.Text
