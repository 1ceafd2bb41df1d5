/-! Numbers of 53 binary digits: the nearest one to a decimal fraction, and the shortest decimal
that is nearer to it than to any other. -/
namespace FaultBench

/-- A magnitude `mantissa * 2^exponent`. It is normal, with `2^52 ≤ mantissa < 2^53`, or has the
least exponent. -/
structure Binary64 where
  mantissa : Nat
  exponent : Int
  deriving DecidableEq, Repr

namespace Binary64

def leastExponent : Int := -1074
def greatestExponent : Int := 971

/-- `n / d` rounded to the nearest integer, a tie to the even one. -/
def roundDiv (n d : Nat) : Nat :=
  let q := n / d
  let r := n % d
  if 2 * r < d then q else if d < 2 * r then q + 1 else q + q % 2

/-- The quotient of two numbers after scaling by `2^(-e)`, as a fraction. -/
def scaled (n d : Nat) (e : Int) : Nat × Nat := (n * Nat.pow 2 (-e).toNat, d * Nat.pow 2 e.toNat)

/-- The exponent at which `n / d` has 53 digits before the point. -/
def normalExponent (n d : Nat) : Int :=
  let e : Int := (Nat.log2 n : Int) - Nat.log2 d - 52
  let (n', d') := scaled n d e
  if n' < Nat.pow 2 52 * d' then e - 1 else e

/-- The nearest number to `n / d`, unless it is too large. -/
def nearest? (n d : Nat) : Option Binary64 :=
  if n = 0 then some ⟨0, leastExponent⟩
  else
    let e := max (normalExponent n d) leastExponent
    let (n', d') := scaled n d e
    let m := roundDiv n' d'
    let b : Binary64 := if m = Nat.pow 2 53 then ⟨Nat.pow 2 52, e + 1⟩ else ⟨m, e⟩
    if b.exponent ≤ greatestExponent then some b else none

/-- The nearest number to `digits * 10^exponent`. -/
def ofDecimal? (digits : Nat) (exponent : Int) : Option Binary64 :=
  let size : Int := (Nat.log2 digits : Int) * 30103 / 100000 + exponent
  if digits = 0 ∨ size < -400 then some ⟨0, leastExponent⟩
  else if 400 < size then none
  else nearest? (digits * Nat.pow 10 exponent.toNat) (Nat.pow 10 (-exponent).toNat)

/-- Whether all of `n / d` that is this near rounds to `b`. A tie goes to an even mantissa, and
below a power of two the numbers are twice as dense. -/
def captures (b : Binary64) (n d : Nat) : Bool :=
  let low :=
    if b.mantissa = Nat.pow 2 52 ∧ leastExponent < b.exponent then 4 * b.mantissa - 1
    else 4 * b.mantissa - 2
  let high := 4 * b.mantissa + 2
  let (n', d') := scaled n d (b.exponent - 2)
  if b.mantissa % 2 = 0 then low * d' ≤ n' && n' ≤ high * d' else low * d' < n' && n' < high * d'

/-- `b` itself as a fraction. -/
def fraction (b : Binary64) : Nat × Nat :=
  (b.mantissa * Nat.pow 2 b.exponent.toNat, Nat.pow 2 (-b.exponent).toNat)

/-- `digits * 10^exponent` as a fraction. -/
def decimalFraction (digits : Nat) (exponent : Int) : Nat × Nat :=
  (digits * Nat.pow 10 exponent.toNat, Nat.pow 10 (-exponent).toNat)

/-- The nearest of the two multiples of `10^exponent` around `b` that round to `b`; of two that are
as near the greater one. -/
def onGrid? (b : Binary64) (exponent : Int) : Option Nat :=
  let (n, d) := b.fraction
  let n' := n * Nat.pow 10 (-exponent).toNat
  let d' := d * Nat.pow 10 exponent.toNat
  let below := n' / d'
  let fits (k : Nat) : Bool :=
    let (x, y) := decimalFraction k exponent
    b.captures x y
  let preferred := if 2 * (n' % d') < d' then [below, below + 1] else [below + 1, below]
  preferred.find? fits

/-- The coarsest decimal grid, from `10^exponent` on, with a number that rounds to `b`. -/
def shortestFrom (b : Binary64) (exponent : Int) : Nat → Nat × Int
  | 0 => ((b.onGrid? exponent).getD 0, exponent)
  | n + 1 =>
    match b.onGrid? exponent with
    | some (k + 1) => (k + 1, exponent)
    | _ => b.shortestFrom (exponent - 1) n

/-- The shortest decimal that rounds to `b`, as digits and an exponent of ten. -/
def shortest (b : Binary64) : Nat × Int :=
  if b.mantissa = 0 then (0, 0)
  else
    let magnitude : Int := ((Nat.log2 b.mantissa : Int) + b.exponent) * 30103 / 100000 + 1
    b.shortestFrom magnitude 20

/-- Positional text of a decimal, with a digit at least after the point. -/
def positional (digits : Nat) (exponent : Int) : String :=
  let text := Nat.toDigits 10 digits
  if 0 ≤ exponent then String.ofList (text ++ List.replicate exponent.toNat '0') ++ ".0"
  else
    let places := (-exponent).toNat
    let text := List.replicate (places + 1 - text.length) '0' ++ text
    String.ofList (text.take (text.length - places) ++ '.' :: text.drop (text.length - places))

def toText (b : Binary64) : String :=
  let (digits, exponent) := b.shortest
  positional digits exponent

end Binary64
end FaultBench
