import FaultBench.Text.Digits
import FaultBench.Yaml.Gap

/-! Reading scalars between quotes. Between single quotes a doubled quote stands for one; between
double quotes a backslash begins an escape. -/
namespace FaultBench.Yaml.Quoted

inductive Quote where
  | single
  | double
  deriving DecidableEq, Repr

def Quote.char : Quote → Char
  | .single => '\x27'
  | .double => '"'

/-- The escapes of one letter. -/
def escape? : Char → Option Char
  | '0' => some '\x00'
  | 'a' => some '\x07'
  | 'b' => some '\x08'
  | 't' => some '\t'
  | '\t' => some '\t'
  | 'n' => some '\n'
  | 'v' => some '\x0b'
  | 'f' => some '\x0c'
  | 'r' => some '\r'
  | 'e' => some '\x1b'
  | ' ' => some ' '
  | '"' => some '"'
  | '/' => some '/'
  | '\\' => some '\\'
  | 'N' => some '\u0085'
  | '_' => some '\u00a0'
  | 'L' => some '\u2028'
  | 'P' => some '\u2029'
  | _ => none

/-- The number of hexadecimal digits that follow an escape of this letter. -/
def codeWidth? : Char → Option Nat
  | 'x' => some 2
  | 'u' => some 4
  | 'U' => some 8
  | _ => none

/-- What is being read: ordinary text, or an escape with `left + 1` more digits. -/
inductive Mode where
  | text
  | code (left value : Nat)
  deriving DecidableEq, Repr

/-- Reads up to the closing quote, after the words in `text` and the white space in `gap`. -/
def readFrom (quote : Quote) (text : List Char) (gap : Gap) (mode : Mode) (place : Place) :
    List Char → Option (List Char × Cursor)
  | [] => none
  | '\r' :: '\n' :: rest =>
    match mode with
    | .code _ _ => none
    | .text => readFrom quote text (gap.addBreak '\n') .text (place.nextLine 2) rest
  | c :: rest =>
    match mode with
    | .code left value =>
      match Text.hexDigit? c with
      | none => none
      | some d =>
        if 0 < left then
          readFrom quote text gap (.code (left - 1) (value * 16 + d)) (place.next c) rest
        else if (value * 16 + d).isValidChar then
          readFrom quote (Char.ofNat (value * 16 + d) :: text) gap .text (place.next c) rest
        else none
    | .text =>
      if isBreak c then
        readFrom quote text (gap.addBreak (breakChar c)) .text (place.nextLine c.utf8Size)
          rest
      else if isBlank c then readFrom quote text (gap.addBlank c) .text (place.next c) rest
      else if place.column == 0 && atDocumentMark (c :: rest) then none
      else
        let text := gap.appendTo text
        if c == quote.char then
          match rest with
          | [] => some (text, ⟨[], place.next c⟩)
          | d :: rest' =>
            if quote = .single ∧ d = Quote.single.char then
              readFrom quote (d :: text) .empty .text (place.past [c, d]) rest'
            else some (text, ⟨d :: rest', place.next c⟩)
        else if quote = .double ∧ c = '\\' then
          match rest with
          | [] => none
          | '\r' :: '\n' :: rest' =>
            readFrom quote text (.breaks none []) .text ((place.next c).nextLine 2) rest'
          | d :: rest' =>
            if isBreak d then
              readFrom quote text (.breaks none []) .text
                ((place.next c).nextLine d.utf8Size) rest'
            else
              match escape? d, codeWidth? d with
              | some e, _ => readFrom quote (e :: text) .empty .text (place.past [c, d]) rest'
              | none, some width =>
                readFrom quote text .empty (.code (width - 1) 0) (place.past [c, d]) rest'
              | none, none => none
        else readFrom quote (c :: text) .empty .text (place.next c) rest

end FaultBench.Yaml.Quoted
