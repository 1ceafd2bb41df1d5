import FaultBench.Yaml.Event

/-! The node tree of a document. A text that is malformed further on still has the nodes that were
complete before: a collection that is not closed holds what could be read of it. -/
namespace FaultBench.Yaml

structure Scalar where
  text : String
  style : Style := .plain
  tag : Option Tag := none
  deriving DecidableEq, Repr

inductive Node where
  | scalar (s : Scalar)
  | sequence (tag : Option Tag) (items : List Node) (closed : Bool)
  | mapping (tag : Option Tag) (entries : List (Node × Node)) (closed : Bool)
  /-- Stands for the node with an anchor's number. -/
  | alias (number : Nat)
  /-- A document without a node. -/
  | void
  /-- A node that was not begun before the text broke off. -/
  | missing

/-- A document: its root, the nodes that aliases stand for, and whether the text is well-formed and
has no other document. -/
structure Document where
  root : Node
  anchored : List (Nat × Node) := []
  sound : Bool := true

/-- Anchors by name. An anchor's number is the count of names so far, and a number stands for the
last node that it was given to. -/
structure Anchors where
  numbers : List (String × Nat) := []
  starts : List (Nat × Nat) := []

namespace Anchors

def number? (a : Anchors) (name : String) : Option Nat := a.numbers.lookup name

def define (a : Anchors) (start : Nat) : Option String → Anchors
  | none => a
  | some name =>
    let number := a.numbers.length
    ⟨(name, number) :: a.numbers.filter (·.1 ≠ name), (number, start) :: a.starts⟩

end Anchors

/-- A collection that is not closed yet: the event at which it begins, what kind it is, and its
nodes so far, the latest first, keys and values in turn. -/
structure OpenNode where
  start : Nat
  isMapping : Bool
  tag : Option Tag
  nodes : List Node := []

namespace OpenNode

/-- Keys with their values. -/
def pairs : List Node → List (Node × Node)
  | key :: value :: rest => (key, value) :: pairs rest
  | [key] => [(key, .missing)]
  | [] => []

def node (o : OpenNode) (closed : Bool) : Node :=
  if o.isMapping then .mapping o.tag (pairs o.nodes.reverse) closed
  else .sequence o.tag o.nodes.reverse closed

end OpenNode

/-- A document while its events are read. Aliases hold the number of their anchor until its node is
known. -/
structure Builder where
  root : Option Node := none
  opened : List OpenNode := []
  anchors : Anchors := {}
  /-- The nodes by the event at which they begin. -/
  nodes : List (Nat × Node) := []

namespace Builder

def add (b : Builder) (start : Nat) (n : Node) : Builder :=
  let b := { b with nodes := (start, n) :: b.nodes }
  match b.opened with
  | [] => { b with root := some n }
  | o :: rest => { b with opened := { o with nodes := n :: o.nodes } :: rest }

def openNode (b : Builder) (start : Nat) (isMapping : Bool) (anchor : Option String)
    (tag : Option Tag) :
    Builder :=
  { b with
    opened := { start, isMapping, tag } :: b.opened
    anchors := b.anchors.define start anchor }

def closeNode (b : Builder) (closed : Bool) : Builder :=
  match b.opened with
  | [] => b
  | o :: rest => ({ b with opened := rest }).add o.start (o.node closed)

/-- Closes all that is still open where a text breaks off. -/
def breakOff (b : Builder) : Builder :=
  b.opened.foldl (fun b _ => b.closeNode false) b

def finish (b : Builder) (sound : Bool) : Document :=
  let b := b.breakOff
  { root := b.root.getD .missing
    anchored := b.anchors.starts.filterMap fun (number, start) =>
      (b.nodes.lookup start).map fun n => (number, n)
    sound }

/-- Reads the events of one document; `start` counts them. -/
def ofEvents (b : Builder) (start : Nat) : List Event → Document
  | [] => b.finish false
  | e :: rest =>
    match e with
    | .documentStart => ofEvents b start rest
    | .documentEnd => b.finish (rest = [.streamEnd])
    | .streamEnd => { root := .void }
    | .alias name =>
      match b.anchors.number? name with
      | none => b.finish false
      | some number => ofEvents (b.add start (.alias number)) (start + 1) rest
    | .scalar anchor tag text style =>
      let b := { b with anchors := b.anchors.define start anchor }
      ofEvents (b.add start (.scalar { text, style, tag })) (start + 1) rest
    | .sequenceStart anchor tag => ofEvents (b.openNode start false anchor tag) (start + 1) rest
    | .mappingStart anchor tag => ofEvents (b.openNode start true anchor tag) (start + 1) rest
    | .sequenceEnd => ofEvents (b.closeNode true) (start + 1) rest
    | .mappingEnd => ofEvents (b.closeNode true) (start + 1) rest

end Builder

namespace Document

def ofText (text : String) : Document := Builder.ofEvents {} 0 (Event.ofText text.toList)

/-- The node itself, or the one that an alias stands for. -/
def resolve (d : Document) : Node → Node
  | .alias number => (d.anchored.lookup number).getD .missing
  | n => n

end Document

mutual
def Node.complete : Node → Bool
  | .sequence _ items closed => closed && completeItems items
  | .mapping _ entries closed => closed && completeEntries entries
  | .missing => false
  | _ => true

def completeItems : List Node → Bool
  | [] => true
  | n :: rest => n.complete && completeItems rest

def completeEntries : List (Node × Node) → Bool
  | [] => true
  | (k, v) :: rest => k.complete && v.complete && completeEntries rest
end

end FaultBench.Yaml
