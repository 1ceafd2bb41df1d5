import FaultBench.Text.Blank
import FaultBench.Text.Digits

/-! Bytes written by hand in hexadecimal. Blanks, colons and commas separate words, each of which
may begin with `0x`; how the digits are divided into words does not matter. -/
namespace FaultBench.Text

inductive HexError where
  | invalidDigit (c : Char)
  | oddCount (digits : Nat)
  deriving DecidableEq, Repr

def HexError.message : HexError → String
  | .invalidDigit c => "Invalid hex digit '" ++ c.toString ++ "'"
  | .oddCount digits => "Hex input has an odd number of digits (" ++ decimal digits ++ ")"

def isSeparator (c : Char) : Bool := isBlank c || c == ':' || c == ','

/-- The digits of a text with the base marks of its words left out. `start` tells whether a word
may begin here. -/
def hexDigitsFrom (start : Bool) : List Char → List Char
  | [] => []
  | [c] => if isSeparator c then [] else [c]
  | c :: d :: rest =>
    if isSeparator c then hexDigitsFrom true (d :: rest)
    else if start && c == '0' && (d == 'x' || d == 'X') then hexDigitsFrom false rest
    else c :: hexDigitsFrom false (d :: rest)

/-- Pairs of digits as bytes, the high digit first. -/
def hexBytes : List Nat → List UInt8
  | high :: low :: rest => UInt8.ofNat (high * 16 + low) :: hexBytes rest
  | _ => []

/-- The values of digits, or the first character that is none. -/
def digitValues : List Char → Except Char (List Nat)
  | [] => .ok []
  | c :: rest =>
    match hexDigit? c with
    | none => .error c
    | some d => (digitValues rest).map (d :: ·)

def readHex (text : String) : Except HexError (List UInt8) :=
  match digitValues (hexDigitsFrom true text.toList) with
  | .error c => .error (.invalidDigit c)
  | .ok digits =>
    if digits.length % 2 = 0 then .ok (hexBytes digits) else .error (.oddCount digits.length)

example : (readHex "66 04 6b:d0,03 0x02 27 00").toOption =
    some [0x66,0x04,0x6B,0xD0,0x03,0x02,0x27,0x00] := by decide +kernel

end FaultBench.Text
