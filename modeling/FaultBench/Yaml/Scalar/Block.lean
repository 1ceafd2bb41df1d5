import FaultBench.Yaml.Gap

/-! Reading block scalars: a header, then the lines that are indented far enough. -/
namespace FaultBench.Yaml.Block

/-- What becomes of the line breaks at the end. -/
inductive Chomping where
  | strip
  | clip
  | keep
  deriving DecidableEq, Repr

structure Header where
  chomping : Chomping := .clip
  /-- The indentation of the lines beyond that of the node around, if it is given. -/
  increment : Option Nat := none
  deriving DecidableEq, Repr

def chomping? : Char → Option Chomping
  | '+' => some .keep
  | '-' => some .strip
  | _ => none

/-- An indentation is one digit from 1 to 9. -/
def increment? (c : Char) : Option Nat :=
  if '1' ≤ c ∧ c ≤ '9' then some (c.toNat - 48) else none

/-- Reads the two optional marks of a header in either order. -/
def header? (c : Cursor) : Option (Header × Cursor) :=
  let increment (h : Header) (c : Cursor) : Option (Header × Cursor) :=
    match c.rest with
    | d :: _ =>
      if d == '0' then none
      else
        match increment? d with
        | some n => some ({ h with increment := some n }, c.skip)
        | none => some (h, c)
    | [] => some (h, c)
  match c.rest with
  | [] => some ({}, c)
  | d :: _ =>
    match chomping? d with
    | some chomping => increment { chomping } c.skip
    | none =>
      (increment {} c).map fun (h, c) =>
        match h.increment, c.rest with
        | some _, e :: _ =>
          match chomping? e with
          | some chomping => ({ h with chomping }, c.skip)
          | none => (h, c)
        | _, _ => (h, c)

/-- A scalar while it is read. Texts are held with the latest character first. -/
structure Body where
  text : List Char := []
  /-- The line break behind the last line. -/
  lastBreak : Option Char := none
  /-- The empty lines after it. -/
  emptyLines : List Char := []
  /-- The last line began with white space, so the break behind it is not folded. -/
  indented : Bool := false
  deriving DecidableEq, Repr

/-- Appends what stands between two lines, the second of which begins with `c`. In a folded scalar
a single break between lines that are not indented further is a blank. -/
def Body.openLine (literal : Bool) (b : Body) (c : Char) : Body :=
  let text :=
    if !literal && b.lastBreak == some '\n' && !b.indented && !isBlank c then
      if b.emptyLines.isEmpty then ' ' :: b.text else b.emptyLines ++ b.text
    else b.emptyLines ++ b.lastBreak.toList ++ b.text
  ⟨text, none, [], isBlank c⟩

/-- The text at the end, with the latest character first. -/
def Body.close (chomping : Chomping) (b : Body) : List Char :=
  match chomping with
  | .strip => b.text
  | .clip => b.lastBreak.toList ++ b.text
  | .keep => b.emptyLines ++ b.lastBreak.toList ++ b.text

/-- Where a reader is: in front of a line, with the deepest column of the empty lines so far, or
within one. -/
inductive Mode where
  | between (deepest : Nat)
  | within
  deriving DecidableEq, Repr

/-- Goes on after a line break: it ends the line that was read, or is an empty line. -/
def Body.addBreak (b : Body) (mode : Mode) (c : Char) : Body :=
  match mode with
  | .within => { b with lastBreak := some c }
  | .between _ => { b with emptyLines := c :: b.emptyLines }

/-- The deepest column of the empty lines, with one that ends at `column`. -/
def Mode.deepest (column : Nat) : Mode → Nat
  | .within => 0
  | .between deepest => max deepest column

/-- Reads lines of the given indentation. While it is not known, the first line that is not empty
sets it, to at least `least`. -/
def readFrom (literal : Bool) (least : Nat) (indent : Option Nat) (body : Body) (mode : Mode)
    (place : Place) : List Char → Option (Body × Cursor)
  | [] => some (body, ⟨[], place⟩)
  | '\r' :: '\n' :: rest =>
    readFrom literal least indent (body.addBreak mode '\n') (.between (mode.deepest place.column))
      (place.nextLine 2) rest
  | c :: rest =>
    let shallow := mode ≠ .within ∧ indent.all (place.column < ·)
    if shallow ∧ c = ' ' then readFrom literal least indent body mode (place.next c) rest
    else if shallow ∧ c = '\t' then none
    else if isBreak c then
      readFrom literal least indent (body.addBreak mode (breakChar c))
        (.between (mode.deepest place.column)) (place.nextLine c.utf8Size) rest
    else
      match mode with
      | .within =>
        readFrom literal least indent { body with text := c :: body.text } .within
          (place.next c) rest
      | .between deepest =>
        let n := indent.getD (max (max deepest place.column) least)
        if place.column = n then
          let opened := body.openLine literal c
          readFrom literal least (some n) { opened with text := c :: opened.text } .within
            (place.next c) rest
        else some (body, ⟨c :: rest, place⟩)

/-- Reads a block scalar behind its indicator, inside a node of indentation `outer`. -/
def read? (literal : Bool) (outer : Int) (c : Cursor) : Option (String × Cursor) := do
  let (header, c) ← header? c
  let c ← c.skipLineEnd?
  let indent := header.increment.map fun n => (max outer 0).toNat + n
  let (body, c) ← readFrom literal (max (outer + 1) 1).toNat indent {} (.between 0) c.place c.rest
  pure (String.ofList (body.close header.chomping).reverse, c)

end FaultBench.Yaml.Block
