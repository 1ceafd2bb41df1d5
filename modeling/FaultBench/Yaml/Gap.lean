import FaultBench.Yaml.Cursor

/-! White space between the words of a scalar. On one line it stays; over line breaks it folds: a
single break is a blank, and of several the first is left out. Texts are held with the latest
character first. -/
namespace FaultBench.Yaml

inductive Gap where
  | blanks (text : List Char)
  /-- A first line break, if it counts, and further ones. -/
  | breaks (first : Option Char) (more : List Char)
  deriving DecidableEq, Repr

namespace Gap

def empty : Gap := .blanks []

def isEmpty : Gap → Bool
  | .blanks text => text.isEmpty
  | .breaks _ _ => false

/-- Whether the gap goes over the end of a line. -/
def broken : Gap → Bool
  | .blanks _ => false
  | .breaks _ _ => true

/-- Blanks at the end and the start of lines do not count. -/
def addBlank : Gap → Char → Gap
  | .blanks text, c => .blanks (c :: text)
  | .breaks first more, _ => .breaks first more

def addBreak : Gap → Char → Gap
  | .blanks _, c => .breaks (some c) []
  | .breaks first more, c => .breaks first (c :: more)

/-- Appends what the gap stands for to a text. -/
def appendTo (text : List Char) : Gap → List Char
  | .blanks white => white ++ text
  | .breaks (some '\n') [] => ' ' :: text
  | .breaks (some '\n') more => more ++ text
  | .breaks first more => more ++ first.toList ++ text

example : (Gap.empty.addBreak '\n').appendTo ['a'] = [' ', 'a'] := rfl
example : (((Gap.empty.addBlank ' ').addBreak '\n').addBreak '\n').appendTo ['a'] =
    ['\n', 'a'] := rfl

end Gap
end FaultBench.Yaml
