import FaultBench.Yaml.Scalar.Plain
import FaultBench.Yaml.Scalar.Quoted
import FaultBench.Yaml.Scalar.Block
import FaultBench.Yaml.Tag

/-! The tokens of a YAML text. Whether a word is a key is known only at the colon behind it, so its
mark is put before tokens that were read already; a token is settled when no such mark can come
before it any more. -/
namespace FaultBench.Yaml

inductive Style where
  | plain
  | singleQuoted
  | doubleQuoted
  | literal
  | folded
  deriving DecidableEq, Repr

inductive Token where
  | streamEnd
  | directive (d : Tag.Directive)
  | documentStart
  | documentEnd
  | blockSequenceStart
  | blockMappingStart
  | blockEnd
  | flowSequenceStart
  | flowSequenceEnd
  | flowMappingStart
  | flowMappingEnd
  | blockEntry
  | flowEntry
  | key
  | value
  | alias (name : String)
  | anchor (name : String)
  | tag (handle : String) (suffix : Tag)
  | scalar (text : String) (style : Style)
  deriving DecidableEq, Repr

/-- A place where a key may have begun. -/
structure KeyCandidate where
  place : Place
  /-- The number of tokens before it. -/
  index : Nat
  /-- Nothing but a key can stand there. -/
  required : Bool
  deriving DecidableEq, Repr

structure Scanner where
  cursor : Cursor
  /-- The tokens so far, the latest first. -/
  tokens : List Token := []
  settled : Nat := 0
  /-- The column of the innermost block collection, and those of the ones around it. -/
  indent : Int := -1
  indents : List Int := []
  /-- What may turn out to be a key, for each flow collection from the innermost, and last for the
  block around them. -/
  candidates : List (Option KeyCandidate) := [none]
  /-- A key may begin here. -/
  keyAllowed : Bool := true
  deriving DecidableEq, Repr

namespace Scanner

def inFlow (s : Scanner) : Bool := s.candidates.length > 1

def column (s : Scanner) : Int := s.cursor.place.column

def emit (s : Scanner) (t : Token) : Scanner := { s with tokens := t :: s.tokens }

/-- Puts a token before all but the first `index` tokens. -/
def insert (s : Scanner) (index : Nat) (t : Token) : Scanner :=
  let later := s.tokens.length - index
  { s with tokens := s.tokens.take later ++ t :: s.tokens.drop later }

/-- A key stands on one line, its colon at most 1024 bytes behind its start. -/
def expired (s : Scanner) (k : KeyCandidate) : Bool :=
  k.place.line < s.cursor.place.line || k.place.offset + 1024 < s.cursor.place.offset

/-- Gives up the candidates that can no longer be keys. -/
def dropExpired (s : Scanner) : Option Scanner :=
  if s.candidates.any fun k => k.any fun k => s.expired k && k.required then none
  else some { s with candidates := s.candidates.map fun k => k.filter fun k => !s.expired k }

def dropCandidate (s : Scanner) : Option Scanner :=
  match s.candidates with
  | some k :: rest => if k.required then none else some { s with candidates := none :: rest }
  | _ => some s

def noteCandidate (s : Scanner) : Option Scanner :=
  if s.keyAllowed then
    s.dropCandidate.map fun s =>
      { s with
        candidates :=
          some ⟨s.cursor.place, s.tokens.length, !s.inFlow && s.indent == s.column⟩ ::
            s.candidates.tail }
  else some s

/-- Opens a block collection at a column deeper than the one around it, its mark after `index`
tokens. -/
def openBlock (s : Scanner) (column : Int) (index : Nat) (t : Token) : Scanner :=
  if !s.inFlow && s.indent < column then
    { s.insert index t with indent := column, indents := s.indent :: s.indents }
  else s

/-- Closes the block collections that are deeper than a column. -/
def closeBlocks (s : Scanner) (column : Int) : Scanner :=
  let rec close (indent : Int) (tokens : List Token) : List Int → Int × List Token × List Int
    | [] => (indent, tokens, [])
    | outer :: rest =>
      if column < indent then close outer (.blockEnd :: tokens) rest
      else (indent, tokens, outer :: rest)
  if s.inFlow then s
  else
    let (indent, tokens, indents) := close s.indent s.tokens s.indents
    { s with indent, tokens, indents }

/-- Leaves out white space and comments. Tabs count as white space where no key can begin. A byte
order mark is left out at the start of a line. -/
def skipSpace (inFlow : Bool) (keyAllowed comment : Bool) (place : Place) :
    List Char → Cursor × Bool
  | [] => (⟨[], place⟩, keyAllowed)
  | '\r' :: '\n' :: rest => skipSpace inFlow (keyAllowed || !inFlow) false (place.nextLine 2) rest
  | c :: rest =>
    if isBreak c then
      skipSpace inFlow (keyAllowed || !inFlow) false (place.nextLine c.utf8Size) rest
    else if comment || c == '#' then skipSpace inFlow keyAllowed true (place.next c) rest
    else if c == ' ' || (c == '\t' && (inFlow || !keyAllowed)) ||
        (c == '\ufeff' && place.column == 0)
    then skipSpace inFlow keyAllowed false (place.next c) rest
    else (⟨c :: rest, place⟩, keyAllowed)

def advance (s : Scanner) (count : Nat) : Scanner := { s with cursor := s.cursor.skip count }

def allowKey (s : Scanner) (allowed : Bool) : Scanner := { s with keyAllowed := allowed }

/-- The end of the text counts as the start of a line. -/
def fetchEnd (s : Scanner) : Option Scanner := do
  let s ← (s.closeBlocks (-1)).dropCandidate
  let place := if s.column = 0 then s.cursor.place else s.cursor.place.nextLine 0
  pure ({ s with cursor := ⟨[], place⟩, keyAllowed := false }.emit .streamEnd)

def fetchDirective (s : Scanner) : Option Scanner := do
  let s ← (s.closeBlocks (-1)).dropCandidate
  let (directive, cursor) ← Tag.directive? s.cursor
  pure ({ s with cursor, keyAllowed := false }.emit (.directive directive))

def fetchDocumentMark (s : Scanner) (t : Token) : Option Scanner := do
  let s ← (s.closeBlocks (-1)).dropCandidate
  pure (((s.allowKey false).advance 3).emit t)

def fetchFlowStart (s : Scanner) (t : Token) : Option Scanner := do
  let s ← s.noteCandidate
  pure (({ s with candidates := none :: s.candidates, keyAllowed := true }.advance 1).emit t)

def fetchFlowEnd (s : Scanner) (t : Token) : Option Scanner := do
  let s ← s.dropCandidate
  let candidates := if s.inFlow then s.candidates.tail else s.candidates
  pure (({ s with candidates, keyAllowed := false }.advance 1).emit t)

def fetchFlowEntry (s : Scanner) : Option Scanner := do
  let s ← s.dropCandidate
  pure (((s.allowKey true).advance 1).emit .flowEntry)

/-- An indicator that opens a block collection if it is the first at its column. In a block it can
only stand where a key could begin. -/
def fetchIndicator (s : Scanner) (collection : Token) (keyAllowed : Bool) (t : Token) :
    Option Scanner := do
  if !s.inFlow && !s.keyAllowed then none
  let s ← (s.openBlock s.column s.tokens.length collection).dropCandidate
  pure (((s.allowKey keyAllowed).advance 1).emit t)

/-- A colon makes a key of the innermost candidate. Without one it belongs to an empty key or to a
key that was marked. -/
def fetchValue (s : Scanner) : Option Scanner :=
  match s.candidates with
  | some k :: rest =>
    let s := { s.insert k.index .key with candidates := none :: rest, keyAllowed := false }
    let s := s.openBlock k.place.column k.index .blockMappingStart
    some ((s.advance 1).emit .value)
  | _ => s.fetchIndicator .blockMappingStart (!s.inFlow) .value

def fetchName (s : Scanner) (t : String → Token) : Option Scanner := do
  let s ← s.noteCandidate
  let (name, cursor) := s.cursor.skip.span isWordChar
  let ended := atWordEnd cursor.rest || cursor.rest.head?.any (· ∈ "?:,]\x7d%@`".toList)
  if name.isEmpty || !ended then none
  pure ({ s with cursor, keyAllowed := false }.emit (t (String.ofList name)))

def fetchTag (s : Scanner) : Option Scanner := do
  let s ← s.noteCandidate
  let (handle, suffix, cursor) ← Tag.read? s.inFlow s.cursor
  pure ({ s with cursor, keyAllowed := false }.emit (.tag handle suffix))

def fetchBlockScalar (s : Scanner) (style : Style) : Option Scanner := do
  let s ← s.dropCandidate
  let (text, cursor) ← Block.read? (style == .literal) s.indent s.cursor.skip
  pure ({ s with cursor, keyAllowed := true }.emit (.scalar text style))

def fetchQuoted (s : Scanner) (quote : Quoted.Quote) (style : Style) : Option Scanner := do
  let s ← s.noteCandidate
  let c := s.cursor.skip
  let (text, cursor) ← Quoted.readFrom quote [] .empty .text c.place c.rest
  pure ({ s with cursor, keyAllowed := false }.emit (.scalar (String.ofList text.reverse) style))

def fetchPlain (s : Scanner) : Option Scanner := do
  let s ← s.noteCandidate
  let r ← Plain.readFrom s.inFlow (s.indent + 1) [] .empty s.cursor.place s.cursor.rest
  pure ({ s with cursor := r.cursor, keyAllowed := r.newLine }.emit
    (.scalar (String.ofList r.text.reverse) .plain))

/-- Whether a plain scalar can begin with these characters. -/
def startsPlain (inFlow : Bool) : List Char → Bool
  | [] => false
  | c :: rest =>
    if c == '-' then !(rest.head?.any isBlank)
    else if c == '?' || c == ':' then !inFlow && !atWordEnd rest
    else !isBlank c && !isBreak c && c ∉ ",[]\x7b\x7d#&*!|>\x27\"%@`".toList

/-- Reads the token at the position, at which no white space is left. -/
def fetchHere (s : Scanner) : Option Scanner :=
  let atStart := s.cursor.place.column == 0
  match s.cursor.rest with
  | [] => s.fetchEnd
  | c :: rest =>
    let indicator := s.inFlow || atWordEnd rest
    if atStart && c == '%' then s.fetchDirective
    else if atStart && atDocumentMark (c :: rest) then
      s.fetchDocumentMark (if c == '-' then .documentStart else .documentEnd)
    else if c == '[' then s.fetchFlowStart .flowSequenceStart
    else if c == '{' then s.fetchFlowStart .flowMappingStart
    else if c == ']' then s.fetchFlowEnd .flowSequenceEnd
    else if c == '}' then s.fetchFlowEnd .flowMappingEnd
    else if c == ',' then s.fetchFlowEntry
    else if c == '-' && atWordEnd rest then s.fetchIndicator .blockSequenceStart true .blockEntry
    else if c == '?' && indicator then s.fetchIndicator .blockMappingStart (!s.inFlow) .key
    else if c == ':' && indicator then s.fetchValue
    else if c == '*' then s.fetchName .alias
    else if c == '&' then s.fetchName .anchor
    else if c == '!' then s.fetchTag
    else if c == '|' && !s.inFlow then s.fetchBlockScalar .literal
    else if c == '>' && !s.inFlow then s.fetchBlockScalar .folded
    else if c == '\x27' then s.fetchQuoted .single .singleQuoted
    else if c == '"' then s.fetchQuoted .double .doubleQuoted
    else if startsPlain s.inFlow (c :: rest) then s.fetchPlain
    else none

def fetch (s : Scanner) : Option Scanner := do
  let (cursor, keyAllowed) :=
    skipSpace s.inFlow s.keyAllowed false s.cursor.place s.cursor.rest
  let s ← { s with cursor, keyAllowed }.dropExpired
  (s.closeBlocks s.column).fetchHere

/-- All tokens before the first that may still get a key's mark. -/
def settle (s : Scanner) : Option Scanner :=
  s.dropExpired.map fun s =>
    let waiting := s.candidates.filterMap fun k => k.map (·.index)
    { s with settled := waiting.foldl min s.tokens.length }

/-- Reads at most `n` tokens. The text ends with the first that is malformed. -/
def run (s : Scanner) : Nat → Scanner
  | 0 => s
  | n + 1 =>
    match s.settle with
    | none => s
    | some s =>
      match s.fetch with
      | none => s
      | some next =>
        match next.tokens with
        | .streamEnd :: _ => next.settle.getD next
        | _ => next.run n

end Scanner

/-- Characters that a text may hold. -/
def isAllowed (c : Char) : Bool :=
  let n := c.toNat
  n = 0x09 || n = 0x0A || n = 0x0D || (0x20 ≤ n && n ≤ 0x7E) || n = 0x85 ||
    (0xA0 ≤ n && n ≤ 0xD7FF) || (0xE000 ≤ n && n ≤ 0xFFFD) || 0x10000 ≤ n

/-- The settled tokens of a text in order. A text without mistakes has a last token `streamEnd`, and
no other has. Every token takes a character, but for the last and the ends of blocks. -/
def Token.scan (text : List Char) : List Token :=
  if text.all isAllowed then
    let s := ({ cursor := { rest := text } } : Scanner).run (text.length + 1)
    s.tokens.reverse.take s.settled
  else []

end FaultBench.Yaml
