import FaultBench.Yaml.Gap

/-! Reading plain scalars. -/
namespace FaultBench.Yaml

/-- What begins or ends a collection in the flow style, or parts its items. -/
def isFlowIndicator (c : Char) : Bool := c == ',' || c == '[' || c == ']' || c == '{' || c == '}'

namespace Plain

/-- A scalar that was read: its text with the latest character first, the position behind it and
whether that is the start of another line. -/
structure Reading where
  text : List Char
  cursor : Cursor
  newLine : Bool

/-- Whether a plain scalar ends before `c`, which is not white space. Between two words it also
ends at a lesser indentation, a document mark or a comment. -/
def stopsAt (inFlow : Bool) (indent : Int) (gap : Gap) (place : Place) (c : Char)
    (rest : List Char) : Bool :=
  (!gap.isEmpty && ((!inFlow && (place.column : Int) < indent) || c == '#' ||
    (place.column == 0 && atDocumentMark (c :: rest)))) ||
  (c == ':' && atWordEnd rest) || (inFlow && isFlowIndicator c)

/-- In a flow collection a colon has to be followed by white space or by a word. -/
def strayColon (inFlow : Bool) (c : Char) : List Char → Bool
  | [] => false
  | d :: _ => inFlow && c == ':' && (isFlowIndicator d || d == '?')

/-- Reads on after the words in `text` and the white space in `gap`. -/
def readFrom (inFlow : Bool) (indent : Int) (text : List Char) (gap : Gap) (place : Place) :
    List Char → Option Reading
  | [] => some ⟨text, ⟨[], place⟩, gap.broken⟩
  | '\r' :: '\n' :: rest =>
    readFrom inFlow indent text (gap.addBreak '\n') (place.nextLine 2) rest
  | c :: rest =>
    if isBreak c then
      readFrom inFlow indent text (gap.addBreak (breakChar c))
        (place.nextLine c.utf8Size) rest
    else if isBlank c then
      if gap.broken && (place.column : Int) < indent && c == '\t' then none
      else readFrom inFlow indent text (gap.addBlank c) (place.next c) rest
    else if stopsAt inFlow indent gap place c rest then
      some ⟨text, ⟨c :: rest, place⟩, gap.broken⟩
    else if strayColon inFlow c rest then none
    else readFrom inFlow indent (c :: gap.appendTo text) .empty (place.next c) rest

end Plain
end FaultBench.Yaml
