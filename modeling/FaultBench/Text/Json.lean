import FaultBench.Text.Digits

/-! JSON values whose objects keep the order of their members, and their text without blanks. -/
namespace FaultBench.Text

inductive Json where
  | boolean (b : Bool)
  | number (n : Nat)
  | text (s : String)
  | list (items : List Json)
  | object (members : List (String × Json))

namespace Json

/-- A character of a string. Quotes, backslashes and control characters are escaped. -/
def escaped (c : Char) : List Char :=
  if c == '"' || c == '\\' then ['\\', c]
  else if c == '\n' then ['\\', 'n']
  else if c == '\r' then ['\\', 'r']
  else if c == '\t' then ['\\', 't']
  else if c == '\x08' then ['\\', 'b']
  else if c == '\x0c' then ['\\', 'f']
  else if c.toNat < 0x20 then ['\\', 'u', '0', '0'] ++ hexPair (UInt8.ofNat c.toNat)
  else [c]

def quote (s : String) : List Char := '"' :: s.toList.flatMap escaped ++ ['"']

mutual
def print : Json → List Char
  | .boolean b => (if b then "true" else "false").toList
  | .number n => Nat.toDigits 10 n
  | .text s => quote s
  | .list items => '[' :: printItems items ++ [']']
  | .object members => '\x7b' :: printMembers members ++ ['\x7d']

def printItems : List Json → List Char
  | [] => []
  | [j] => print j
  | j :: rest => print j ++ ',' :: printItems rest

def printMember (member : String × Json) : List Char :=
  match member with
  | (name, j) => quote name ++ ':' :: print j

def printMembers : List (String × Json) → List Char
  | [] => []
  | [m] => printMember m
  | m :: rest => printMember m ++ ',' :: printMembers rest
end

def render (j : Json) : String := String.ofList j.print

/-! Where the text goes out as it comes about, it does so in pieces. -/

def isPlain (c : Char) : Bool := escaped c == [c]

/-- The quotes of a string, its escapes, and what stands between them. -/
def quotePieces (s : String) : List (List Char) :=
  ['"'] :: (s.toList.splitBy fun a b => isPlain a && isPlain b).map (·.flatMap escaped) ++ [['"']]

mutual
def pieces : Json → List (List Char)
  | .boolean b => [(if b then "true" else "false").toList]
  | .number n => [Nat.toDigits 10 n]
  | .text s => quotePieces s
  | .list items => ['['] :: piecesOfItems items ++ [[']']]
  | .object members => ['\x7b'] :: piecesOfMembers members ++ [['\x7d']]

def piecesOfItems : List Json → List (List Char)
  | [] => []
  | [j] => pieces j
  | j :: rest => pieces j ++ [','] :: piecesOfItems rest

def piecesOfMember (member : String × Json) : List (List Char) :=
  match member with
  | (name, j) => quotePieces name ++ [':'] :: pieces j

def piecesOfMembers : List (String × Json) → List (List Char)
  | [] => []
  | [m] => piecesOfMember m
  | m :: rest => piecesOfMember m ++ [','] :: piecesOfMembers rest
end

/-- Members ordered by their names. -/
def ordered (members : List (String × Json)) : List (String × Json) :=
  members.mergeSort fun a b => a.1 ≤ b.1

mutual
/-- The same value with the members of every object ordered by their names. -/
def sorted : Json → Json
  | .list items => .list (sortedItems items)
  | .object members => .object (ordered (sortedMembers members))
  | j => j

def sortedItems : List Json → List Json
  | [] => []
  | j :: rest => sorted j :: sortedItems rest

def sortedMembers : List (String × Json) → List (String × Json)
  | [] => []
  | (name, j) :: rest => (name, sorted j) :: sortedMembers rest
end

/-- A member that may be left out. -/
def member? {α : Type} (name : String) (encode : α → Json) : Option α → List (String × Json)
  | none => []
  | some a => [(name, encode a)]

end Json
end FaultBench.Text
