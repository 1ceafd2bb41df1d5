import FaultBench.Profile.Constants
import FaultBench.Proofs.Text.Digits
import FaultBench.Proofs.Text.HexInput
import Mathlib.Data.List.Basic

/-! The constants of a profile can be read back, so firmware built with other parameters has other
constants. -/
namespace FaultBench

namespace Profile

/-- The parameters of a profile that firmware is built with. -/
structure Parameters where
  outer : UInt32
  inner : UInt32
  size : UInt64
  source : BufferInit
  destination : BufferInit
  executions : UInt32
  baud : UInt32
  deriving DecidableEq, Repr

def parameters (p : Profile) : Parameters where
  outer := p.countedLoop.outer
  inner := p.countedLoop.inner
  size := p.bufferCopy.size
  source := p.bufferCopy.source
  destination := p.bufferCopy.destination
  executions := p.unrolled.executions
  baud := p.serial.baud

/-! ### Reading constants -/

/-- The value of a constant, and what stands behind its line. -/
def valueOf? (name type : String) (cs : List Char) : Option (List Char × List Char) := do
  let cs ← cs.dropPrefix? ("pub const " ++ name ++ ": " ++ type ++ " = ").toList
  let rest ← (cs.dropWhile (· ≠ ';')).dropPrefix? [';', '\n']
  return (cs.takeWhile (· ≠ ';'), rest)

/-- The byte of two hexadecimal digits. -/
def pair? (high low : Char) : Option UInt8 := do
  return UInt8.ofNat ((← Text.hexDigit? high) * 16 + (← Text.hexDigit? low))

/-- The bytes of a list, up to the brackets that close it. -/
def bytes? : List Char → Option (List UInt8)
  | [']', ')'] => some []
  | '0' :: 'x' :: high :: low :: ',' :: ' ' :: rest => do
    return (← pair? high low) :: (← bytes? rest)
  | ['0', 'x', high, low, ']', ')'] => do return [← pair? high low]
  | _ => none

def contents? (cs : List Char) : Option BufferInit := do
  let cs ← cs.dropPrefix? "fi_profiler_core::BufferInit::".toList
  match cs.dropPrefix? "Fill(".toList with
  | some ['0', 'x', high, low, ')'] => (pair? high low).map .fill
  | some _ => none
  | none => return .sequence (← bytes? (← cs.dropPrefix? "Sequence(&[".toList))

/-- The values of constants, and nothing behind them. -/
def valuesOf? : List (String × String) → List Char → Option (List (List Char))
  | [], cs => if cs = [] then some [] else none
  | (name, type) :: rest, cs => do
    let (value, cs) ← valueOf? name type cs
    return value :: (← valuesOf? rest cs)

def Parameters.ofValues? : List (List Char) → Option Parameters
  | [outer, inner, size, source, destination, executions, baud] => do
    return {
      outer := UInt32.ofNat (← Text.digits? 10 outer)
      inner := UInt32.ofNat (← Text.digits? 10 inner)
      size := UInt64.ofNat (← Text.digits? 10 size)
      source := ← contents? source
      destination := ← contents? destination
      executions := UInt32.ofNat (← Text.digits? 10 executions)
      baud := UInt32.ofNat (← Text.digits? 10 baud) }
  | _ => none

/-- The constants with their types, in their order. -/
def signature : List (String × String) :=
  [("LOOP_OUTER", "u32"), ("LOOP_INNER", "u32"), ("BUFFER_SIZE", "usize"),
    ("BUFFER_SOURCE", initType), ("BUFFER_DESTINATION", initType),
    ("UNROLLED_EXECUTIONS", "u32"), ("BAUD", "u32")]

/-- The parameters of generated constants. -/
def Parameters.ofConstants? (text : String) : Option Parameters := do
  let cs ← text.toList.dropPrefix?
    "// Generated from the profiling profile. Do not edit.\n".toList
  Parameters.ofValues? (← valuesOf? signature cs)

lemma dropPrefix?_append (front back : List Char) :
    (front ++ back).dropPrefix? front = some back :=
  List.dropPrefix?_eq_some_iff.mpr ⟨front, rfl, beq_self_eq_true front⟩

/-- A value without semicolon is read back from its line. -/
lemma valueOf?_constantLine (name type : String) {value : String} (h : ';' ∉ value.toList)
    (rest : List Char) : valueOf? name type ((constantLine name type value).toList ++ rest) =
      some (value.toList, rest) := by
  have hvalue : ∀ c ∈ value.toList, decide (c ≠ ';') = true := by
    intro c hc
    rw [decide_eq_true_eq]
    rintro rfl
    exact h hc
  have hend : ";\n".toList = [';', '\n'] := by decide
  have hline : (constantLine name type value).toList ++ rest =
      ("pub const " ++ name ++ ": " ++ type ++ " = ").toList ++
        (value.toList ++ [';', '\n'] ++ rest) := by
    unfold constantLine
    simp only [String.toList_append, List.append_assoc, hend]
  have htake : (value.toList ++ [';', '\n'] ++ rest).takeWhile (· ≠ ';') = value.toList := by
    rw [List.append_assoc, List.takeWhile_append_of_pos hvalue]
    exact List.append_nil _
  have hdrop : (value.toList ++ [';', '\n'] ++ rest).dropWhile (· ≠ ';') =
      [';', '\n'] ++ rest := by
    rw [List.append_assoc, List.dropWhile_append_of_pos hvalue]
    rfl
  rw [hline]
  simp only [valueOf?, dropPrefix?_append, Option.bind_eq_bind, Option.bind_some, htake, hdrop]
  rfl

/-- The name, the type and the value of a constant in turn. -/
abbrev Row := String × String × String

lemma valuesOf?_lines {rows : List Row} (h : ∀ r ∈ rows, ';' ∉ r.2.2.toList) :
    valuesOf? (rows.map fun r => (r.1, r.2.1))
      (rows.flatMap fun r => (constantLine r.1 r.2.1 r.2.2).toList) =
        some (rows.map fun r => r.2.2.toList) := by
  induction rows with
  | nil => rfl
  | cons r rows ih =>
    obtain ⟨hr, hrows⟩ := List.forall_mem_cons.mp h
    rw [List.map_cons, List.flatMap_cons, valuesOf?, valueOf?_constantLine _ _ hr]
    simp only [Option.bind_eq_bind, Option.bind_some, ih hrows]
    rfl

lemma pair?_hexPair (b : UInt8) :
    pair? (Nat.digitChar (b.toNat / 16)) (Nat.digitChar (b.toNat % 16)) = some b := by
  have hhigh : b.toNat / 16 < 16 := by
    have := b.toNat_lt
    omega
  have hlow : b.toNat % 16 < 16 := Nat.mod_lt _ (by decide)
  have hbyte : b.toNat / 16 * 16 + b.toNat % 16 = b.toNat := by omega
  rw [pair?, Text.hexDigit?_digitChar hhigh, Text.hexDigit?_digitChar hlow]
  simp only [Option.bind_eq_bind, Option.bind_some, hbyte]
  exact congrArg some UInt8.ofNat_toNat

lemma toList_hexLiteral (b : UInt8) : (Text.hexLiteral b).toList =
    ['0', 'x', Nat.digitChar (b.toNat / 16), Nat.digitChar (b.toNat % 16)] := by
  unfold Text.hexLiteral
  exact String.toList_ofList

lemma bytes?_byteList (bytes : List UInt8) :
    bytes? ((BufferInit.byteList bytes).toList ++ [']', ')']) = some bytes := by
  have hcomma : ", ".toList = [',', ' '] := by decide
  unfold BufferInit.byteList
  rw [String.toList_intercalate, hcomma]
  induction bytes with
  | nil => rfl
  | cons b bytes ih =>
    cases bytes with
    | nil =>
      simp only [List.map_cons, List.map_nil, List.intercalate_singleton, toList_hexLiteral,
        List.cons_append, List.nil_append, bytes?, pair?_hexPair]
      rfl
    | cons next bytes =>
      simp only [List.map_cons] at ih
      simp only [List.map_cons, List.intercalate_cons_cons, toList_hexLiteral b,
        List.cons_append, List.nil_append, bytes?, pair?_hexPair, ih]
      rfl

theorem contents?_constant (init : BufferInit) : contents? init.constant.toList = some init := by
  cases init with
  | fill b =>
    have hvariant : "fi_profiler_core::BufferInit::Fill(".toList =
        "fi_profiler_core::BufferInit::".toList ++ "Fill(".toList := by decide +kernel
    unfold contents? BufferInit.constant
    simp only [String.toList_append, hvariant, List.append_assoc, dropPrefix?_append,
      Option.bind_eq_bind, Option.bind_some, toList_hexLiteral]
    change (pair? _ _).map _ = _
    rw [pair?_hexPair]
    rfl
  | sequence bytes =>
    have hvariant : "fi_profiler_core::BufferInit::Sequence(&[".toList =
        "fi_profiler_core::BufferInit::".toList ++ "Sequence(&[".toList := by decide +kernel
    have hclosing : "])".toList = [']', ')'] := by decide
    have hother : ∀ rest : List Char,
        ("Sequence(&[".toList ++ rest).dropPrefix? "Fill(".toList = none := fun _ => rfl
    unfold contents? BufferInit.constant
    simp only [String.toList_append, hvariant, hclosing, List.append_assoc, dropPrefix?_append,
      Option.bind_eq_bind, Option.bind_some, hother, bytes?_byteList]
    rfl

/-! ### Values without semicolon -/

lemma not_mem_intercalate {c : Char} {separator : List Char} {parts : List (List Char)}
    (hseparator : c ∉ separator) (hparts : ∀ part ∈ parts, c ∉ part) :
    c ∉ separator.intercalate parts := by
  induction parts with
  | nil => exact List.not_mem_nil
  | cons part parts ih =>
    obtain ⟨hpart, hrest⟩ := List.forall_mem_cons.mp hparts
    cases parts with
    | nil => rwa [List.intercalate_singleton]
    | cons next parts =>
      rw [List.intercalate_cons_cons, List.mem_append, List.mem_append]
      rintro ((hmem | hmem) | hmem)
      · exact hpart hmem
      · exact hseparator hmem
      · exact ih hrest hmem

lemma not_mem_decimal (n : ℕ) : ';' ∉ (Text.decimal n).toList := by
  rw [Text.toList_decimal]
  intro hmem
  exact absurd (Text.isDigit_toDigits n ';' hmem) (by decide)

lemma not_mem_hexLiteral (b : UInt8) : ';' ∉ (Text.hexLiteral b).toList := by
  have hdigit : ∀ n < 16, ';' ≠ Nat.digitChar n := by decide
  have hhigh : b.toNat / 16 < 16 := by
    have := b.toNat_lt
    omega
  have hlow : b.toNat % 16 < 16 := Nat.mod_lt _ (by decide)
  rw [toList_hexLiteral]
  simp only [List.mem_cons, List.not_mem_nil, or_false, not_or]
  exact ⟨by decide, by decide, hdigit _ hhigh, hdigit _ hlow⟩

lemma not_mem_byteList (bytes : List UInt8) : ';' ∉ (BufferInit.byteList bytes).toList := by
  unfold BufferInit.byteList
  rw [String.toList_intercalate]
  apply not_mem_intercalate
  · decide
  · intro part hpart
    simp only [List.mem_map] at hpart
    obtain ⟨_, ⟨b, -, rfl⟩, rfl⟩ := hpart
    exact not_mem_hexLiteral b

lemma not_mem_constant (init : BufferInit) : ';' ∉ init.constant.toList := by
  unfold BufferInit.constant
  cases init with
  | fill b =>
    simp only [String.toList_append, List.mem_append, not_or]
    exact ⟨⟨by decide +kernel, not_mem_hexLiteral b⟩, by decide⟩
  | sequence bytes =>
    simp only [String.toList_append, List.mem_append, not_or]
    exact ⟨⟨by decide +kernel, not_mem_byteList bytes⟩, by decide⟩

/-! ### All constants -/

lemma digits?_decimal (n : ℕ) : Text.digits? 10 (Text.decimal n).toList = some n := by
  rw [Text.toList_decimal]
  exact Text.digits?_toDigits n

/-- The constants of a profile in their order. -/
def rows (p : Profile) : List Row :=
  [("LOOP_OUTER", "u32", Text.decimal p.countedLoop.outer.toNat),
    ("LOOP_INNER", "u32", Text.decimal p.countedLoop.inner.toNat),
    ("BUFFER_SIZE", "usize", Text.decimal p.bufferCopy.size.toNat),
    ("BUFFER_SOURCE", initType, p.bufferCopy.source.constant),
    ("BUFFER_DESTINATION", initType, p.bufferCopy.destination.constant),
    ("UNROLLED_EXECUTIONS", "u32", Text.decimal p.unrolled.executions.toNat),
    ("BAUD", "u32", Text.decimal p.serial.baud.toNat)]

lemma map_rows (p : Profile) : p.rows.map (fun r => (r.1, r.2.1)) = signature := rfl

lemma toList_constants (p : Profile) : p.constants.toList =
    "// Generated from the profiling profile. Do not edit.\n".toList ++
      p.rows.flatMap fun r => (constantLine r.1 r.2.1 r.2.2).toList := by
  unfold constants rows
  simp only [String.toList_append, List.append_assoc, List.flatMap_cons, List.flatMap_nil,
    List.append_nil]

lemma not_mem_rows (p : Profile) : ∀ r ∈ p.rows, ';' ∉ r.2.2.toList := by
  unfold rows
  simp only [List.forall_mem_cons, not_mem_decimal, not_mem_constant, not_false_eq_true, true_and]
  exact nofun

lemma ofValues?_rows (p : Profile) :
    Parameters.ofValues? (p.rows.map fun r => r.2.2.toList) = some p.parameters := by
  unfold rows Parameters.ofValues?
  simp only [List.map_cons, List.map_nil, digits?_decimal, contents?_constant]
  change some _ = _
  simp only [UInt32.ofNat_toNat, UInt64.ofNat_toNat]
  rfl

/-- The parameters are read back from the constants of every profile. -/
theorem ofConstants?_constants (p : Profile) :
    Parameters.ofConstants? p.constants = some p.parameters := by
  have hvalues := valuesOf?_lines p.not_mem_rows
  rw [map_rows] at hvalues
  unfold Parameters.ofConstants?
  rw [toList_constants, dropPrefix?_append, Option.bind_eq_bind, Option.bind_some, hvalues]
  exact p.ofValues?_rows

end Profile
end FaultBench
