import FaultBench.Number.Binary64
import FaultBench.Text.Digits
import FaultBench.Yaml.Node

/-! What a plain scalar stands for: null, a boolean, an integer, a fraction or its own text. -/
namespace FaultBench.Yaml

inductive Meaning where
  | null
  | boolean (b : Bool)
  /-- An integer of 64 bits, with or without sign. -/
  | integer (n : Int)
  /-- An integer that takes up to 128 bits. -/
  | wideInteger (n : Int)
  | fraction (negative : Bool) (magnitude : Binary64)
  | infinite (negative : Bool)
  | notANumber
  | text (s : String)
  deriving DecidableEq, Repr

namespace Meaning
open Text

def isSign (c : Char) : Bool := c == '+' || c == '-'

def startsWithSign (cs : List Char) : Bool := cs.head?.any isSign

/-- Leaves out a plus sign, behind which no other sign may stand. -/
def dropPlus? : List Char → Option (List Char)
  | '+' :: rest => if startsWithSign rest then none else some rest
  | cs => some cs

/-- Digits with a zero too many in front are no number. -/
def isPadded (cs : List Char) : Bool :=
  let cs := if startsWithSign cs then cs.tail else cs
  match cs with
  | '0' :: rest => !rest.isEmpty && rest.all Char.isDigit
  | _ => false

/-- The base that two characters announce. -/
def base? : List Char → Option (Nat × List Char)
  | '0' :: 'x' :: rest => some (16, rest)
  | '0' :: 'o' :: rest => some (8, rest)
  | '0' :: 'b' :: rest => some (2, rest)
  | _ => none

/-- A number without minus sign that is below `limit`. -/
def unsigned? (limit : Nat) (cs : List Char) : Option Nat := do
  let body ← dropPlus? cs
  let n ← match base? body with
    | some (base, rest) => digits? base rest
    | none => if isPadded cs then none else digits? 10 body
  if n < limit then some n else none

/-- The magnitude, at most `limit`, of a number with minus sign. -/
def negative? (limit : Nat) : List Char → Option Nat
  | '-' :: rest => do
    let n ← match base? rest with
      | some (base, rest) => digits? base rest
      | none => if isPadded rest then none else digits? 10 rest
    if n ≤ limit then some n else none
  | _ => none

def integer? (cs : List Char) : Option Meaning :=
  match unsigned? (Nat.pow 2 64) cs, negative? (Nat.pow 2 63) cs with
  | some n, _ => some (.integer n)
  | none, some n => some (.integer (-n))
  | none, none =>
    match unsigned? (Nat.pow 2 128) cs, negative? (Nat.pow 2 127) cs with
    | some n, _ => some (.wideInteger n)
    | none, some n => some (.wideInteger (-n))
    | none, none => none

/-- The exponent behind a decimal fraction. -/
def exponent? : List Char → Option Int
  | [] => some 0
  | c :: rest =>
    if c == 'e' || c == 'E' then
      match rest with
      | '-' :: ds => (digits? 10 ds).map fun n => -(n : Int)
      | '+' :: ds => (digits? 10 ds).map fun n => (n : Int)
      | ds => (digits? 10 ds).map fun n => (n : Int)
    else none

/-- The magnitude of a decimal fraction with a digit at least before the exponent. -/
def magnitude? (cs : List Char) : Option Binary64 := do
  let whole := cs.takeWhile Char.isDigit
  let rest := cs.dropWhile Char.isDigit
  let afterPoint := match rest with
    | '.' :: rest => rest
    | rest => rest
  let places := if rest.head? = some '.' then afterPoint.takeWhile Char.isDigit else []
  let rest := if rest.head? = some '.' then afterPoint.dropWhile Char.isDigit else rest
  let n ← digits? 10 (whole ++ places)
  let e ← exponent? rest
  Binary64.ofDecimal? n (e - places.length)

def fraction? (cs : List Char) : Option Meaning := do
  let body ← dropPlus? cs
  if body ∈ [".inf", ".Inf", ".INF"].map String.toList then some (.infinite false)
  else if cs ∈ ["-.inf", "-.Inf", "-.INF"].map String.toList then some (.infinite true)
  else if cs ∈ [".nan", ".NaN", ".NAN"].map String.toList then some .notANumber
  else if body.head? = some '-' then (magnitude? body.tail).map (.fraction true)
  else (magnitude? body).map (.fraction false)

def isNull (s : String) : Bool := s ∈ ["null", "Null", "NULL", "~"]

def boolean? (s : String) : Option Bool :=
  if s ∈ ["true", "True", "TRUE"] then some true
  else if s ∈ ["false", "False", "FALSE"] then some false
  else none

def ofPlain (s : String) : Meaning :=
  if s = "" || isNull s then .null
  else
    match boolean? s with
    | some b => .boolean b
    | none =>
      match integer? s.toList with
      | some m => m
      | none =>
        if isPadded s.toList then .text s
        else (fraction? s.toList).getD (.text s)

end Meaning
end FaultBench.Yaml
