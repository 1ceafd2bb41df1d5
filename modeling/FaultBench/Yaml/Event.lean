import FaultBench.Yaml.Token

/-! The events of a YAML text: its documents, collections and scalars in the order in which they
begin and end, with empty scalars where a node is left out. -/
namespace FaultBench.Yaml

inductive Event where
  | documentStart
  | documentEnd
  | streamEnd
  | alias (name : String)
  | scalar (anchor : Option String) (tag : Option Tag) (text : String) (style : Style)
  | sequenceStart (anchor : Option String) (tag : Option Tag)
  | sequenceEnd
  | mappingStart (anchor : Option String) (tag : Option Tag)
  | mappingEnd
  deriving DecidableEq, Repr

inductive Expected where
  /-- The first document needs no mark in front of it. -/
  | firstDocument
  | document
  | documentContent
  | documentEnd
  | node
  | blockEntry
  /-- An entry of a block sequence at the column of the mapping around it. -/
  | indentlessEntry
  | blockKey
  | blockValue
  | firstFlowEntry
  | flowEntry
  /-- The key of a mapping with one pair, written without braces in a flow sequence. -/
  | pairKey
  | pairValue
  | pairEnd
  | firstFlowKey
  | flowKey
  | flowValue
  | noFlowValue
  | nothing
  deriving DecidableEq, Repr

/-- A row of tokens that is partly turned into events. -/
structure Reader where
  tokens : List Token
  expected : Expected := .firstDocument
  /-- What is expected after the open nodes, from the innermost. -/
  afterwards : List Expected := []
  /-- The tag handles of the document. -/
  handles : List (String × Tag) := []
  deriving DecidableEq, Repr

namespace Reader

def defaultHandles : List (String × Tag) := [("!", .mark), ("!!", .standardSpace)]

def emptyScalar : Event := .scalar none none "" .plain

def leave (r : Reader) : Reader :=
  match r.afterwards with
  | [] => { r with expected := .nothing }
  | e :: rest => { r with expected := e, afterwards := rest }

def expect (r : Reader) (e : Expected) : Reader := { r with expected := e }

/-- Remembers what is expected after the next node. -/
def push (r : Reader) (e : Expected) : Reader := { r with afterwards := e :: r.afterwards }

def drop (r : Reader) : Reader := { r with tokens := r.tokens.tail }

/-- The anchor and the tag in front of a node, in either order. -/
def properties : List Token → Option String × Option (String × Tag) × List Token
  | .anchor a :: .tag h s :: rest => (some a, some (h, s), rest)
  | .tag h s :: .anchor a :: rest => (some a, some (h, s), rest)
  | .anchor a :: rest => (some a, none, rest)
  | .tag h s :: rest => (none, some (h, s), rest)
  | rest => (none, none, rest)

/-- The full name of a tag, if its handle is known. -/
def expand? (r : Reader) : String × Tag → Option Tag
  | ("", suffix) => some suffix
  | (handle, suffix) => (r.handles.lookup handle).map (·.append suffix)

/-- The event of a node. A block collection can only begin where `block` allows it, and a sequence
without indentation of its own where `indentless` does. -/
def node (r : Reader) (block indentless : Bool) : Option (Event × Reader) := do
  match r.tokens with
  | .alias name :: _ => some (.alias name, r.drop.leave)
  | tokens =>
    let (anchor, marked, tokens) := properties tokens
    let next ← tokens.head?
    let tag ← marked.mapM r.expand?
    let r := { r with tokens }
    match next with
    | .scalar text style =>
      some (.scalar anchor tag text style, r.drop.leave)
    | .flowSequenceStart => some (.sequenceStart anchor tag, r.drop.expect .firstFlowEntry)
    | .flowMappingStart => some (.mappingStart anchor tag, r.drop.expect .firstFlowKey)
    | other =>
      if indentless && other == .blockEntry then
        some (.sequenceStart anchor tag, r.expect .indentlessEntry)
      else if block && other == .blockSequenceStart then
        some (.sequenceStart anchor tag, r.drop.expect .blockEntry)
      else if block && other == .blockMappingStart then
        some (.mappingStart anchor tag, r.drop.expect .blockKey)
      else if anchor.isSome || tag.isSome then some (.scalar anchor tag "" .plain, r.leave)
      else none

/-- A node after an indicator, or an empty scalar when the next token is one of `ends`. -/
def nodeUnless (r : Reader) (ends : List Token) (afterwards : Expected)
    (block indentless : Bool) : Option (Event × Reader) := do
  let next ← r.tokens.head?
  if next ∈ ends then some (emptyScalar, r.expect afterwards)
  else (r.push afterwards).node block indentless

/-- The directives before a document: one version at most, and no handle twice. -/
def directives (versioned : Bool) (handles : List (String × Tag)) :
    List Token → Option (List (String × Tag) × List Token)
  | .directive (.version major minor) :: rest =>
    if versioned || major ≠ 1 || (minor ≠ 1 && minor ≠ 2) then none
    else directives true handles rest
  | .directive (.tag handle expansion) :: rest =>
    if (handles.lookup handle).isSome then none
    else directives versioned (handles ++ [(handle, expansion)]) rest
  | rest => some (handles, rest)

/-- A document with its own tag handles and the usual ones. -/
def openDocument (r : Reader) (tokens : List Token) (handles : List (String × Tag))
    (content : Expected) : Reader :=
  { r with
    tokens
    handles := handles ++ defaultHandles
    expected := content
    afterwards := .documentEnd :: r.afterwards }

def isDocumentEnd (t : Token) : Bool := t == .documentEnd

/-- A document with directives or a mark in front of it, or the end of the stream. -/
def markedDocument (r : Reader) : Option (Event × Reader) := do
  let next ← r.tokens.head?
  if next = .streamEnd then some (.streamEnd, r.drop.expect .nothing)
  else
    let (handles, tokens) ← directives false [] r.tokens
    match tokens with
    | .documentStart :: rest => some (.documentStart, r.openDocument rest handles .documentContent)
    | _ => none

/-- An entry of a flow sequence, or its end. -/
def flowEntry (r : Reader) : Option (Event × Reader) :=
  match r.tokens with
  | [] => none
  | .flowSequenceEnd :: _ => some (.sequenceEnd, r.drop.leave)
  | .key :: _ => some (.mappingStart none none, r.drop.expect .pairKey)
  | _ => (r.push .flowEntry).node false false

/-- A key of a flow mapping, or its end. -/
def flowKey (r : Reader) : Option (Event × Reader) :=
  match r.tokens with
  | [] => none
  | .flowMappingEnd :: _ => some (.mappingEnd, r.drop.leave)
  | .key :: _ => r.drop.nodeUnless [.value, .flowEntry, .flowMappingEnd] .flowValue false false
  | _ => (r.push .noFlowValue).node false false

/-- The next event, with `token` the next token. -/
def nextAt (r : Reader) (token : Token) : Option (Event × Reader) :=
  match r.expected, token with
  | .firstDocument, .directive _ => r.markedDocument
  | .firstDocument, .documentStart => r.markedDocument
  | .firstDocument, .streamEnd => r.markedDocument
  | .firstDocument, _ => some (.documentStart, r.openDocument r.tokens [] .node)
  | .document, _ => markedDocument { r with tokens := r.tokens.dropWhile isDocumentEnd }
  | .documentContent, .directive _ => some (emptyScalar, r.leave)
  | .documentContent, .documentStart => some (emptyScalar, r.leave)
  | .documentContent, .documentEnd => some (emptyScalar, r.leave)
  | .documentContent, .streamEnd => some (emptyScalar, r.leave)
  | .documentContent, _ => r.node true false
  | .documentEnd, .documentEnd => some (.documentEnd, r.drop.expect .document)
  | .documentEnd, _ => some (.documentEnd, r.expect .document)
  | .node, _ => r.node true false
  | .blockEntry, .blockEntry => r.drop.nodeUnless [.blockEntry, .blockEnd] .blockEntry true false
  | .blockEntry, .blockEnd => some (.sequenceEnd, r.drop.leave)
  | .blockEntry, _ => none
  | .indentlessEntry, .blockEntry =>
    r.drop.nodeUnless [.blockEntry, .key, .value, .blockEnd] .indentlessEntry true false
  | .indentlessEntry, _ => some (.sequenceEnd, r.leave)
  | .blockKey, .key => r.drop.nodeUnless [.key, .value, .blockEnd] .blockValue true true
  | .blockKey, .blockEnd => some (.mappingEnd, r.drop.leave)
  | .blockKey, _ => none
  | .blockValue, .value => r.drop.nodeUnless [.key, .value, .blockEnd] .blockKey true true
  | .blockValue, _ => some (emptyScalar, r.expect .blockKey)
  | .firstFlowEntry, _ => r.flowEntry
  | .flowEntry, .flowEntry => r.drop.flowEntry
  | .flowEntry, .flowSequenceEnd => r.flowEntry
  | .flowEntry, _ => none
  | .pairKey, .value => some (emptyScalar, r.drop.expect .pairValue)
  | .pairKey, .flowEntry => some (emptyScalar, r.drop.expect .pairValue)
  | .pairKey, .flowSequenceEnd => some (emptyScalar, r.drop.expect .pairValue)
  | .pairKey, _ => (r.push .pairValue).node false false
  | .pairValue, .value => r.drop.nodeUnless [.flowEntry, .flowSequenceEnd] .pairEnd false false
  | .pairValue, _ => some (emptyScalar, r.expect .pairEnd)
  | .pairEnd, _ => some (.mappingEnd, r.expect .flowEntry)
  | .firstFlowKey, _ => r.flowKey
  | .flowKey, .flowEntry => r.drop.flowKey
  | .flowKey, .flowMappingEnd => r.flowKey
  | .flowKey, _ => none
  | .flowValue, .value => r.drop.nodeUnless [.flowEntry, .flowMappingEnd] .flowKey false false
  | .flowValue, _ => some (emptyScalar, r.expect .flowKey)
  | .noFlowValue, _ => some (emptyScalar, r.expect .flowKey)
  | .nothing, _ => none

def next (r : Reader) : Option (Event × Reader) := r.tokens.head?.bind r.nextAt

def run (r : Reader) : Nat → List Event
  | 0 => []
  | n + 1 =>
    match r.next with
    | none => []
    | some (e, r) => e :: r.run n

end Reader

/-- The events of a text. They end with `streamEnd`, or where the text is malformed. Between two
tokens there are at most three events that take none. -/
def Event.ofText (text : List Char) : List Event :=
  let tokens := Token.scan text
  ({ tokens } : Reader).run (4 * tokens.length + 4)

end FaultBench.Yaml
