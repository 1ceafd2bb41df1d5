import FaultBench.Yaml.Cursor
import FaultBench.Yaml.Scalar.Quoted

/-! Tags of nodes, and reading them and directives. -/
namespace FaultBench.Yaml

/-- The full name of a tag, octet by octet: escapes may spell octets that are no text. -/
structure Tag where
  octets : List UInt8
  deriving DecidableEq, Repr

namespace Tag

def ofString (s : String) : Tag := ⟨s.toUTF8.toList⟩

def append (a b : Tag) : Tag := ⟨a.octets ++ b.octets⟩

/-- The tag without a name of its own. -/
def mark : Tag := ofString "!"

/-- What the tags of the standard begin with. -/
def standardSpace : Tag := ofString "tag:yaml.org,2002:"

def standard (name : String) : Tag := standardSpace.append (ofString name)

/-- A tag of the document's own begins with an exclamation mark. -/
def isLocal (t : Tag) : Bool := t.octets.head? == some 0x21

/-- Whether the octets are a text. -/
def isText (t : Tag) : Bool := (String.fromUTF8? ⟨t.octets.toArray⟩).isSome

/-- The characters of a tag; three more are allowed between angle brackets and in directives. -/
def isUriChar (verbatim : Bool) (c : Char) : Bool :=
  isWordChar c || c ∈ ";/?:@&=+$.%!~*\x27()".toList || (verbatim && c ∈ [',', '[', ']'])

/-- The number of octets behind the first one of a character. -/
def followers? (first : UInt8) : Option Nat :=
  if first < 0x80 then some 0
  else if first < 0xC0 then none
  else if first < 0xE0 then some 1
  else if first < 0xF0 then some 2
  else if first < 0xF8 then some 3
  else none

/-- Replaces escapes by octets. A character that takes several octets is escaped in all of them;
`due` of them are still to come. -/
def unescapeFrom (due : Nat) : List Char → Option (List UInt8)
  | [] => if due = 0 then some [] else none
  | '%' :: a :: b :: rest => do
    let high ← Text.hexDigit? a
    let low ← Text.hexDigit? b
    let octet := UInt8.ofNat (high * 16 + low)
    match due with
    | 0 => return octet :: (← unescapeFrom (← followers? octet) rest)
    | due + 1 =>
      if octet &&& 0xC0 = 0x80 then return octet :: (← unescapeFrom due rest) else none
  | '%' :: _ => none
  | c :: rest =>
    if due = 0 then do return UInt8.ofNat c.toNat :: (← unescapeFrom 0 rest) else none

/-- The tag that characters spell. An octet zero ends it. -/
def unescape? (cs : List Char) : Option Tag :=
  (unescapeFrom 0 cs).map fun octets => ⟨octets.takeWhile (· ≠ 0)⟩

/-- The characters of a tag, with `head` already read. -/
def uri? (verbatim : Bool) (head : List Char) (c : Cursor) : Option (Tag × Cursor) :=
  let (word, c) := c.span (isUriChar verbatim)
  if head.isEmpty && word.isEmpty then none
  else (unescape? (head.drop 1 ++ word)).map fun tag => (tag, c)

/-- A handle: an exclamation mark, word characters and perhaps another exclamation mark. -/
def handle? (c : Cursor) : Option (List Char × Cursor) :=
  match c.rest with
  | '!' :: _ =>
    let (word, c) := c.skip.span isWordChar
    match c.rest with
    | '!' :: _ => some ('!' :: word ++ ['!'], c.skip)
    | _ => some ('!' :: word, c)
  | _ => none

def isFullHandle (handle : List Char) : Bool :=
  handle.length ≥ 2 && handle.getLast? == some '!'

/-- The handle and the rest of a tag, at its exclamation mark. -/
def read? (inFlow : Bool) (c : Cursor) : Option (String × Tag × Cursor) := do
  let (handle, suffix, c) ← (do
    if c.rest[1]? = some '<' then
      let (suffix, c) ← uri? true [] (c.skip 2)
      if c.rest.head? = some '>' then pure ("", suffix, c.skip) else none
    else
      let (handle, c) ← handle? c
      if isFullHandle handle then
        let (suffix, c) ← uri? false [] c
        pure (String.ofList handle, suffix, c)
      else
        let (suffix, c) ← uri? false handle c
        if suffix.octets.isEmpty then pure ("", mark, c) else pure ("!", suffix, c))
  if atWordEnd c.rest || (inFlow && c.rest.head? = some ',') then
    pure (handle, suffix, c)
  else none

inductive Directive where
  | version (major minor : Nat)
  | tag (handle : String) (expansion : Tag)
  deriving DecidableEq, Repr

/-- A number of at most nine digits. -/
def number? (c : Cursor) : Option (Nat × Cursor) :=
  let (digits, c) := c.span Char.isDigit
  if digits.isEmpty || digits.length > 9 then none
  else some (digits.foldl (fun n d => n * 10 + (d.toNat - 48)) 0, c)

/-- The directive at its percent sign, up to the end of its line. -/
def directive? (c : Cursor) : Option (Directive × Cursor) := do
  let (name, c) := c.skip.span isWordChar
  if name.isEmpty || !atWordEnd c.rest then none
  let c := c.skipBlanks
  let (directive, c) ← (do
    if name = "YAML".toList then
      let (major, c) ← number? c
      if c.rest.head? ≠ some '.' then none
      let (minor, c) ← number? c.skip
      pure (Directive.version major minor, c)
    else if name = "TAG".toList then
      let (handle, c) ← handle? c
      if !isFullHandle handle && handle ≠ ['!'] then none
      if !(c.rest.head?.any isBlank) then none
      let (expansion, c) ← uri? true [] c.skipBlanks
      if !atWordEnd c.rest then none
      pure (Directive.tag (String.ofList handle) expansion, c)
    else none)
  let c ← c.skipLineEnd?
  pure (directive, c)

end Tag
end FaultBench.Yaml
