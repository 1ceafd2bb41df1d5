/-! Reading positions in a YAML text, and the classes of characters that its layout depends on. -/
namespace FaultBench.Yaml

/-- The number of bytes read, the line, and the column in characters, all from zero. -/
structure Place where
  offset : Nat := 0
  line : Nat := 0
  column : Nat := 0
  deriving DecidableEq, Repr

/-- Behind a character of the same line. -/
def Place.next (p : Place) (c : Char) : Place := ⟨p.offset + c.utf8Size, p.line, p.column + 1⟩

/-- Behind further characters of the same line. -/
def Place.past (p : Place) (word : List Char) : Place := word.foldl Place.next p

/-- The start of the next line, behind a line break of some bytes. -/
def Place.nextLine (p : Place) (bytes : Nat) : Place := ⟨p.offset + bytes, p.line + 1, 0⟩

structure Cursor where
  rest : List Char
  place : Place := {}
  deriving DecidableEq, Repr

def isBlank (c : Char) : Bool := c == ' ' || c == '\t'

def isBreak (c : Char) : Bool :=
  c == '\n' || c == '\r' || c == '\u0085' || c == '\u2028' || c == '\u2029'

/-- What a line break contributes to a scalar: the two separators stay as they are. -/
def breakChar (c : Char) : Char := if c == '\u2028' || c == '\u2029' then c else '\n'

/-- The characters of anchors, tag handles and directive names. -/
def isWordChar (c : Char) : Bool := c.isAlphanum || c == '_' || c == '-'

/-- Whether the text is at an end of a word: its own end, a blank or a line break. -/
def atWordEnd : List Char → Bool
  | [] => true
  | c :: _ => isBlank c || isBreak c

def atLineEnd : List Char → Bool
  | [] => true
  | c :: _ => isBreak c

/-- The marks between documents, recognised at the start of a line. -/
def atDocumentMark : List Char → Bool
  | '-' :: '-' :: '-' :: rest => atWordEnd rest
  | '.' :: '.' :: '.' :: rest => atWordEnd rest
  | _ => false

namespace Cursor

/-- Leaves out characters of the same line. -/
def skip (c : Cursor) (count : Nat := 1) : Cursor :=
  ⟨c.rest.drop count, c.place.past (c.rest.take count)⟩

/-- Leaves out a line break, if there is one. -/
def skipBreak (c : Cursor) : Cursor :=
  match c.rest with
  | '\r' :: '\n' :: rest => ⟨rest, c.place.nextLine 2⟩
  | b :: rest => if isBreak b then ⟨rest, c.place.nextLine b.utf8Size⟩ else c
  | [] => c

/-- The longest run of characters of a class that has no line breaks. -/
def span (c : Cursor) (p : Char → Bool) : List Char × Cursor :=
  let word := c.rest.takeWhile p
  (word, ⟨c.rest.dropWhile p, c.place.past word⟩)

def skipBlanks (c : Cursor) : Cursor := (c.span isBlank).2

def skipComment (c : Cursor) : Cursor :=
  match c.rest with
  | '#' :: _ => (c.span fun x => !isBreak x).2
  | _ => c

/-- Leaves out the rest of a line with nothing but blanks and a comment on it. -/
def skipLineEnd? (c : Cursor) : Option Cursor :=
  let c := c.skipBlanks.skipComment
  if atLineEnd c.rest then some c.skipBreak else none

end Cursor
end FaultBench.Yaml
