import FaultBench.Text.Digits
import FaultBench.Text.Quoted
import FaultBench.Yaml.Meaning

/-! Reading values out of a document: mappings with named fields, sequences, numbers and text. What
does not fit first, in the order of the text, is what a reading fails with; a text that breaks off
or is malformed fails only behind all that was read before. -/
namespace FaultBench.Yaml

/-- A step from a node to one inside it. -/
inductive Step where
  | field (name : String)
  | item (index : Nat)
  /-- A field with an alias for its key. -/
  | unnamed
  deriving DecidableEq, Repr

/-- The way from the root to a node, the last step first. -/
abbrev Path := List Step

/-- Fields are separated by dots, and the index of an item stands between brackets. -/
def Path.render : Path → String
  | [] => ""
  | .item index :: path => Path.render path ++ "[" ++ Text.decimal index ++ "]"
  | .field name :: path => (if path.isEmpty then "" else Path.render path ++ ".") ++ name
  | .unnamed :: path => (if path.isEmpty then "" else Path.render path ++ ".") ++ "?"

inductive Found where
  | scalar (m : Meaning)
  | sequence
  | mapping
  /-- A node with a tag of the document's own. -/
  | variant
  /-- A variant without a value. -/
  | unitVariant
  deriving DecidableEq, Repr

inductive Mismatch where
  | type (found : Found) (wanted : String)
  | value (found : Found) (wanted : String)
  | unknownField (name : String) (known : List String)
  | duplicateField (name : String)
  | unknownVariant (name : String) (known : List String)
  deriving DecidableEq, Repr

def codeQuoted (s : String) : String := "`" ++ s ++ "`"

/-- An integer with a minus sign below zero. -/
def integerText (n : Int) : String :=
  if n < 0 then "-" ++ Text.decimal n.natAbs else Text.decimal n.natAbs

def signText (negative : Bool) : String := if negative then "-" else ""

def Meaning.describe : Meaning → String
  | .null => "unit value"
  | .boolean b => "boolean " ++ codeQuoted (if b then "true" else "false")
  | .integer n => "integer " ++ codeQuoted (integerText n)
  | .wideInteger n =>
    "integer " ++ codeQuoted (integerText n) ++ if n < 0 then " as i128" else " as u128"
  | .fraction negative b =>
    "floating point " ++ codeQuoted (signText negative ++ b.toText)
  | .infinite negative => "floating point " ++ codeQuoted (signText negative ++ "inf")
  | .notANumber => "floating point " ++ codeQuoted "NaN"
  | .text s => "string " ++ Text.quoted s

def Found.describe : Found → String
  | .scalar m => m.describe
  | .sequence => "sequence"
  | .mapping => "map"
  | .variant => "enum"
  | .unitVariant => "unit variant"

def alternatives : List String → String
  | [] => "there are no fields"
  | [a] => "expected " ++ codeQuoted a
  | [a, b] => "expected " ++ codeQuoted a ++ " or " ++ codeQuoted b
  | names => "expected one of " ++ ", ".intercalate (names.map codeQuoted)

def Mismatch.message : Mismatch → String
  | .type found wanted => "invalid type: " ++ found.describe ++ ", expected " ++ wanted
  | .value found wanted => "invalid value: " ++ found.describe ++ ", expected " ++ wanted
  | .unknownField name known => "unknown field " ++ codeQuoted name ++ ", " ++ alternatives known
  | .duplicateField name => "duplicate field " ++ codeQuoted name
  | .unknownVariant name known =>
    "unknown variant " ++ codeQuoted name ++ ", " ++ alternatives known

inductive Failure where
  /-- The text is no well-formed document, or not only one. -/
  | malformed
  | mismatch (path : Path) (m : Mismatch)
  deriving DecidableEq, Repr

def Failure.message : Failure → String
  | .malformed => "syntax"
  | .mismatch [] m => m.message
  | .mismatch path m => path.render ++ ": " ++ m.message

/-- Reads a node at a path of a document. -/
abbrev Decoder (α : Type) := Document → Path → Node → Except Failure α

def mismatch {α : Type} (path : Path) (m : Mismatch) : Except Failure α :=
  .error (.mismatch path m)

namespace Scalar

/-- An empty scalar without quotes is what stands for a node that is left out. -/
def isVoid (s : Scalar) : Bool := s.text.isEmpty && s.style = .plain

/-- What a reading under a tag of the standard gives, or the kind of scalar that it asks for. -/
def tagged? (s : Scalar) (tag : Tag) : Option (Except String Meaning) :=
  if tag = .standard "bool" then
    some (((Meaning.boolean? s.text).map Meaning.boolean).elim (.error "a boolean") .ok)
  else if tag = .standard "int" then
    some ((Meaning.integer? s.text.toList).elim (.error "an integer") .ok)
  else if tag = .standard "float" then
    some ((Meaning.fraction? s.text.toList).elim (.error "a float") .ok)
  else if tag = .standard "null" then
    some (if Meaning.isNull s.text then .ok .null else .error "null")
  else none

/-- The meaning of a scalar: its own text, unless it is plain or has a tag of the standard. The
kind of scalar that a tag asks for in vain is an error. -/
def meaning (s : Scalar) : Except String Meaning :=
  match s.tag.bind s.tagged? with
  | some result => result
  | none =>
    .ok (if s.style = .plain ∧ s.tag.all Tag.isLocal then Meaning.ofPlain s.text
      else .text s.text)

def mismatch (s : Scalar) (wanted : String) : Mismatch :=
  match s.meaning with
  | .ok m => .type (.scalar m) wanted
  | .error kind => .value (.scalar (.text s.text)) kind

/-- Whether the scalar may be read as an integer. -/
def mayCount (s : Scalar) : Bool :=
  s.style = .plain || (s.style = .literal && s.tag = some (.standard "int"))

end Scalar

def Node.tag? : Node → Option Tag
  | .scalar s => s.tag
  | .sequence tag _ _ => tag
  | .mapping tag _ _ => tag
  | _ => none

/-- Whether the tag of a node, one of the document's own, names a variant. -/
def Node.namesVariant (n : Node) : Bool := n.tag?.any fun t => t.isLocal && t.isText

/-- The failure of a reading that wants something else than the node. -/
def Node.refuse {α : Type} (path : Path) (wanted : String) : Node → Except Failure α
  | .scalar s => mismatch path (s.mismatch wanted)
  | .sequence _ _ _ => mismatch path (.type .sequence wanted)
  | .mapping _ _ _ => mismatch path (.type .mapping wanted)
  | _ => .error .malformed

namespace Decoder

variable {α σ : Type}

def text (wanted : String) : Decoder String := fun d path n =>
  match d.resolve n with
  | .scalar s => .ok s.text
  | n => n.refuse path wanted

/-- A number below `limit`, without minus sign. -/
def number (wanted : String) (limit : Nat) : Decoder Nat := fun d path n =>
  match d.resolve n with
  | .scalar s =>
    match if s.mayCount then Meaning.unsigned? UInt64.size s.text.toList else none with
    | some v => if v < limit then .ok v else mismatch path (.value (.scalar (.integer v)) wanted)
    | none => mismatch path (s.mismatch wanted)
  | n => n.refuse path wanted

def itemsFrom (read : Decoder α) (d : Document) (path : Path) :
    Nat → List Node → Except Failure (List α)
  | _, [] => .ok []
  | index, n :: rest => do
    let a ← read d (.item index :: path) n
    let as ← itemsFrom read d path (index + 1) rest
    return a :: as

/-- A sequence, which may be left out when it is empty. -/
def sequence (read : Decoder α) : Decoder (List α) := fun d path n =>
  match d.resolve n with
  | .sequence _ items closed => do
    let as ← itemsFrom read d path 0 items
    if closed then return as else .error .malformed
  | .scalar s => if s.isVoid then .ok [] else mismatch path (s.mismatch "a sequence")
  | n => n.refuse path "a sequence"

def stepTo : Node → Step
  | .scalar s => .field s.text
  | _ => .unnamed

/-- A field: its name, and how its value changes what was read so far. -/
structure Field (σ : Type) where
  name : String
  read : σ → Decoder σ

/-- A field whose value is stored. -/
def Field.storing (name : String) (read : Decoder α) (store : σ → α → σ) : Field σ :=
  ⟨name, fun s d path n => (read d path n).map (store s)⟩

/-- The fields of a mapping in their order. No field may come twice. -/
def fieldsFrom (fields : List (Field σ)) (d : Document) (path : Path) (seen : List String)
    (s : σ) : List (Node × Node) → Except Failure σ
  | [] => .ok s
  | (key, value) :: rest => do
    let name ← text "field identifier" d path key
    match fields.find? fun f => f.name = name with
    | none => mismatch path (.unknownField name (fields.map (·.name)))
    | some f =>
      if name ∈ seen then mismatch path (.duplicateField name)
      else
        let s ← f.read s d (stepTo key :: path) value
        fieldsFrom fields d path (name :: seen) s rest

/-- A mapping of named fields, each of which may be left out, as may all of it. -/
def mapping (wanted : String) (fields : List (Field σ)) (s : σ) : Decoder σ := fun d path n =>
  match d.resolve n with
  | .mapping _ entries closed => do
    let s ← fieldsFrom fields d path [] s entries
    if closed then return s else .error .malformed
  | .void => .ok s
  | .scalar t => if t.isVoid then .ok s else mismatch path (t.mismatch wanted)
  | n => n.refuse path wanted

/-- A variant: its name, and how its value is read. -/
structure Variant (α : Type) where
  name : String
  read : Decoder α

def variantNamed (variants : List (Variant α)) (path : Path) (name : String) :
    Except Failure (Variant α) :=
  match variants.find? fun v => v.name = name with
  | some v => .ok v
  | none => mismatch path (.unknownVariant name (variants.map (·.name)))

def notSingle : Mismatch := .value .mapping "map with a single key"

/-- The variant that the only key of a mapping names. -/
def variantOf (variants : List (Variant α)) (d : Document) (path : Path) (closed : Bool) :
    List (Node × Node) → Except Failure α
  | [] => if closed then mismatch path notSingle else .error .malformed
  | (key, value) :: rest => do
    let name ← text "variant identifier" d path key
    let v ← variantNamed variants path name
    let a ← v.read d (stepTo key :: path) value
    match rest with
    | (second, _) :: _ => if second.complete then mismatch path notSingle else .error .malformed
    | [] => if closed then return a else .error .malformed

/-- A mapping with one key, which names a variant. -/
def variant (wanted : String) (variants : List (Variant α)) : Decoder α := fun d path n =>
  let n := d.resolve n
  if n.namesVariant then mismatch path (.type .variant wanted)
  else
    match n with
    | .mapping _ entries closed => variantOf variants d path closed entries
    | .scalar s =>
      match s.meaning with
      | .ok (.text name) => do
        let _ ← variantNamed variants path name
        mismatch path (.type .unitVariant "newtype variant")
      | _ => mismatch path (s.mismatch wanted)
    | n => n.refuse path wanted

end Decoder
end FaultBench.Yaml
