import FaultBench.Text.Digits
import FaultBench.Yaml.Meaning

/-! The written form of a text: the style in which it reads back as that text and as nothing else,
and the characters of each style. -/
namespace FaultBench.Yaml

def isPrintable (c : Char) : Bool :=
  c == '\n' || (0x20 ≤ c.toNat && c.toNat ≤ 0x7E) ||
    (0xA0 ≤ c.toNat && c ∉ ['\uFEFF', '\uFFFE', '\uFFFF'])

def isGap (c : Char) : Bool := isBlank c || isBreak c || c == '\x00'

def atGap (cs : List Char) : Bool := cs.head?.all isGap

/-- Whether two neighbours are of these kinds. -/
def hasPair (p q : Char → Bool) : List Char → Bool
  | a :: b :: rest => (p a && q b) || hasPair p q (b :: rest)
  | _ => false

/-- Characters that mean something at the start of a scalar. -/
def opensOther (c : Char) : Bool := c ∈ "#,[]\x7b\x7d&*!|>\x27\"%@`".toList

/-- Whether a colon or a number sign further on would be taken for an indicator. -/
def hasInnerIndicator (afterGap : Bool) : List Char → Bool
  | [] => false
  | c :: rest =>
    (c == ':' && atGap rest) || (c == '#' && afterGap) || hasInnerIndicator (isGap c) rest

def hasIndicator : List Char → Bool
  | '-' :: '-' :: '-' :: _ => true
  | '.' :: '.' :: '.' :: _ => true
  | [] => false
  | c :: rest =>
    opensOther c || ((c == '?' || c == ':' || c == '-') && atGap rest) ||
      hasInnerIndicator (isGap c) rest

def isSpace (c : Char) : Bool := c == ' '

/-- Whether a plain scalar may begin or end with a character. -/
def canDelimit (c : Option Char) : Bool := !c.any fun c => isSpace c || isBreak c

namespace Scalar

def singleQuotable (cs : List Char) : Bool :=
  cs.all isPrintable && !hasPair isBreak isSpace cs && !hasPair isSpace isBreak cs

def plainable (cs : List Char) : Bool :=
  singleQuotable cs && canDelimit cs.head? && canDelimit cs.getLast? && !cs.any isBreak &&
    !hasIndicator cs

def literalable (cs : List Char) : Bool :=
  cs.all isPrintable && !hasPair isSpace isBreak cs && !cs.getLast?.any isSpace

/-- Whether a plain scalar would be taken for something other than its text, or might be, as a row
of digits that begins with a zero. -/
def ambiguous (text : String) : Bool :=
  Meaning.ofPlain text ≠ .text text || Meaning.isPadded text.toList

/-- The style in which a text is written. -/
def styleOf (text : String) : Style :=
  let cs := text.toList
  if cs.any (· == '\n') then
    if literalable cs then .literal else .doubleQuoted
  else if plainable cs && !ambiguous text then .plain
  else if singleQuotable cs then .singleQuoted
  else .doubleQuoted

def ofText (text : String) : Scalar := { text, style := styleOf text }

def ofNat (n : Nat) : Scalar := { text := Text.decimal n }

def spaces (n : Nat) : List Char := List.replicate n ' '

/-- Lines that go on at a column; `fresh` tells whether one has just begun. -/
def indented (column : Nat) (atBreakEnd : List Char) (fresh : Bool) : List Char → List Char
  | [] => if fresh then atBreakEnd else []
  | c :: rest =>
    if isBreak c then c :: indented column atBreakEnd true rest
    else (if fresh then spaces column else []) ++ c :: indented column atBreakEnd false rest

def upperDigit (n : Nat) : Char := (Nat.digitChar n).toUpper

/-- The lowest hexadecimal digits of a number, a fixed count of them. -/
def upperHex (n : Nat) : Nat → List Char
  | 0 => []
  | width + 1 => upperHex (n / 16) width ++ [upperDigit (n % 16)]

def escapeLetter? (c : Char) : Option Char :=
  ['0', 'a', 'b', 't', 'n', 'v', 'f', 'r', 'e', '"', '\\', 'N', 'L', 'P'].find? fun letter =>
    Quoted.escape? letter = some c

def escapeCode (n : Nat) : List Char :=
  if n ≤ 0xFF then 'x' :: upperHex n 2
  else if n ≤ 0xFFFF then 'u' :: upperHex n 4
  else 'U' :: upperHex n 8

def doubleQuotedChar (c : Char) : List Char :=
  match escapeLetter? c with
  | some letter => ['\\', letter]
  | none => if isPrintable c then [c] else '\\' :: escapeCode c.toNat

/-- What stands behind the bar of a literal scalar: the indentation, always of two columns, if the
first line does not show it, and what becomes of the line breaks at the end. -/
def hints (cs : List Char) : List Char :=
  (if cs.head?.any fun c => isSpace c || isBreak c then ['2'] else []) ++
    match cs.reverse with
    | [] => ['-']
    | [c] => if isBreak c then ['+'] else ['-']
    | c :: d :: _ => if isBreak c then (if isBreak d then ['+'] else []) else ['-']

/-- The characters of a scalar whose further lines go on at a column. -/
def print (column : Nat) (s : Scalar) : List Char :=
  let cs := s.text.toList
  match s.style with
  | .plain => cs
  | .singleQuoted =>
    '\x27' :: (indented column (spaces column) false cs).flatMap
      (fun c => if c == '\x27' then [c, c] else [c]) ++ ['\x27']
  | .doubleQuoted => '"' :: cs.flatMap doubleQuotedChar ++ ['"']
  | _ => '|' :: hints cs ++ '\n' :: indented column [] true cs

end Scalar
end FaultBench.Yaml
