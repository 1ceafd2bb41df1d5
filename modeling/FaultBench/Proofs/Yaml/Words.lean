import FaultBench.Yaml.Layout
import FaultBench.Yaml.Token
import Mathlib.Tactic.Common

/-! Words of letters and digits, and what may stand between them: they are read as they are, up to
a colon, a quote or the next line. -/
namespace FaultBench.Yaml

/-- Letters, digits and the low line, which mean nothing in a layout. -/
def isLetter (c : Char) : Bool := c.isAlphanum || c == '_'

/-- What may stand between quotes as it is. -/
def isQuotable (c : Char) : Bool := isLetter c || c == '.'

lemma isQuotable_of_isLetter {c : Char} (h : isLetter c = true) : isQuotable c = true := by
  rw [isQuotable, h, Bool.true_or]

/-- A character is none of those that are not in its class. -/
lemma beq_of_class {p : Char → Bool} {c d : Char} (hc : p c = true) (hd : p d = false) :
    (c == d) = false := by
  rw [beq_eq_false_iff_ne]
  rintro rfl
  rw [hc] at hd
  cases hd

lemma isBreak_of_isQuotable {c : Char} (h : isQuotable c = true) : isBreak c = false := by
  simp (disch := decide) only [isBreak, beq_of_class h, Bool.or_false]

lemma isBlank_of_isQuotable {c : Char} (h : isQuotable c = true) : isBlank c = false := by
  simp (disch := decide) only [isBlank, beq_of_class h, Bool.or_false]

namespace Place

@[simp] lemma past_nil (p : Place) : p.past [] = p := rfl

@[simp] lemma past_cons (p : Place) (c : Char) (word : List Char) :
    p.past (c :: word) = (p.next c).past word := rfl

@[simp] lemma line_past (p : Place) (word : List Char) : (p.past word).line = p.line := by
  induction word generalizing p with
  | nil => rfl
  | cons c word ih => exact ih (p.next c)

@[simp] lemma column_past (p : Place) (word : List Char) :
    (p.past word).column = p.column + word.length := by
  induction word generalizing p with
  | nil => rfl
  | cons c word ih =>
    rw [past_cons, ih, List.length_cons]
    exact Nat.add_right_comm _ _ _

lemma offset_past_le (p : Place) (word : List Char) :
    (p.past word).offset ≤ p.offset + 4 * word.length := by
  induction word generalizing p with
  | nil => exact Nat.le_refl _
  | cons c word ih =>
    have hsize : c.utf8Size ≤ 4 := c.utf8Size_le_four
    have := ih (p.next c)
    simp only [past_cons, next, List.length_cons] at this ⊢
    omega

end Place

lemma spaces_succ (n : ℕ) : Scalar.spaces (n + 1) = ' ' :: Scalar.spaces n := List.replicate_succ

/-- The place behind a line break and the blanks that follow it. -/
def Place.newLine (p : Place) (column : ℕ) : Place :=
  (p.nextLine 1).past (Scalar.spaces column)

@[simp] lemma Place.column_newLine (p : Place) (column : ℕ) :
    (p.newLine column).column = column := by
  simp [newLine, nextLine, Scalar.spaces]

@[simp] lemma Place.line_newLine (p : Place) (column : ℕ) :
    (p.newLine column).line = p.line + 1 := by
  simp [newLine, nextLine]

/-- The text is at its end, or at a character that is no white space and begins no comment. -/
def Solid (cs : List Char) : Prop :=
  ∀ c ∈ cs.head?, isBlank c = false ∧ isBreak c = false ∧ c ≠ '#' ∧ c ≠ '\ufeff'

lemma solid_nil : Solid [] := nofun

lemma solid_of_isLetter {c : Char} (h : isLetter c = true) (rest : List Char) :
    Solid (c :: rest) := by
  rintro d ⟨rfl⟩
  have hq := isQuotable_of_isLetter h
  refine ⟨isBlank_of_isQuotable hq, isBreak_of_isQuotable hq, ?_, ?_⟩
  · exact ne_of_beq_false (beq_of_class h (by decide))
  · exact ne_of_beq_false (beq_of_class h (by decide))

namespace Plain

variable (indent : Int) (text : List Char) (place : Place)

/-- A letter belongs to the word that is being read. -/
lemma readFrom_letter {c : Char} (h : isLetter c = true) (rest : List Char) :
    readFrom false indent text .empty place (c :: rest) =
      readFrom false indent (c :: text) .empty (place.next c) rest := by
  have hq := isQuotable_of_isLetter h
  have hstop : stopsAt false indent .empty place c rest = false := by
    simp [stopsAt, Gap.empty, Gap.isEmpty, beq_of_class h (show isLetter ':' = false by decide)]
  have hstray : strayColon false c rest = false := by cases rest <;> rfl
  rw [readFrom]
  · rw [isBreak_of_isQuotable hq, isBlank_of_isQuotable hq, hstop, hstray]
    rfl
  · rintro rest' rfl
    cases h

lemma readFrom_word {word : List Char} (h : ∀ c ∈ word, isLetter c = true) (rest : List Char) :
    readFrom false indent text .empty place (word ++ rest) =
      readFrom false indent (word.reverse ++ text) .empty (place.past word) rest := by
  induction word generalizing text place with
  | nil => rfl
  | cons c word ih =>
    obtain ⟨hc, hword⟩ := List.forall_mem_cons.mp h
    rw [List.cons_append, readFrom_letter indent text place hc, ih _ _ hword]
    simp

/-- A colon at the end of a word ends it. -/
lemma readFrom_colon {rest : List Char} (h : atWordEnd rest = true) :
    readFrom false indent text .empty place (':' :: rest) =
      some ⟨text, ⟨':' :: rest, place⟩, false⟩ := by
  rw [readFrom]
  · simp [stopsAt, h, isBreak, isBlank, Gap.broken, Gap.empty]
  · nofun

/-- White space on further lines is left out, up to the words on them. -/
lemma readFrom_spaces (first : Option Char) (more : List Char) (column : ℕ) (rest : List Char) :
    readFrom false indent text (.breaks first more) place (Scalar.spaces column ++ rest) =
      readFrom false indent text (.breaks first more) (place.past (Scalar.spaces column)) rest := by
  induction column generalizing place with
  | zero => rfl
  | succ column ih =>
    rw [spaces_succ, List.cons_append, readFrom]
    · simpa [isBreak, isBlank, Gap.addBlank] using ih (place.next ' ')
    · nofun

/-- A line that begins at a lesser column ends a scalar. -/
lemma readFrom_newLine {column : ℕ} {rest : List Char} (hsolid : Solid rest)
    (hcolumn : (column : Int) < indent) :
    readFrom false indent text .empty place ('\n' :: (Scalar.spaces column ++ rest)) =
      some ⟨text, ⟨rest, place.newLine column⟩, true⟩ := by
  have hline : readFrom false indent text .empty place ('\n' :: (Scalar.spaces column ++ rest)) =
      readFrom false indent text (.breaks (some '\n') []) (place.nextLine 1)
        (Scalar.spaces column ++ rest) := by
    rw [readFrom]
    · rfl
    · nofun
  rw [hline, readFrom_spaces]
  cases rest with
  | nil => rfl
  | cons c rest =>
    obtain ⟨hblank, hbreak, -, -⟩ := hsolid c rfl
    have hstop : stopsAt false indent (.breaks (some '\n') []) (place.newLine column) c rest =
        true := by
      simp [stopsAt, Gap.isEmpty, hcolumn]
    rw [readFrom]
    · rw [hbreak, hblank]
      exact if_pos hstop
    · rintro rest' rfl
      cases hbreak

variable {word : List Char} (hword : ∀ c ∈ word, isLetter c = true)
include hword

/-- A word that is followed by a colon. -/
lemma readFrom_key {rest : List Char} (h : atWordEnd rest = true) :
    readFrom false indent [] .empty place (word ++ ':' :: rest) =
      some ⟨word.reverse, ⟨':' :: rest, place.past word⟩, false⟩ := by
  rw [readFrom_word _ _ _ hword, readFrom_colon _ _ _ h, List.append_nil]

/-- A word that is the last of its line. -/
lemma readFrom_line {column : ℕ} {rest : List Char} (hsolid : Solid rest)
    (hcolumn : (column : Int) < indent) :
    readFrom false indent [] .empty place (word ++ '\n' :: (Scalar.spaces column ++ rest)) =
      some ⟨word.reverse, ⟨rest, (place.past word).newLine column⟩, true⟩ := by
  rw [readFrom_word _ _ _ hword, readFrom_newLine _ _ _ hsolid hcolumn, List.append_nil]

end Plain

namespace Quoted

/-- What stands between single quotes, on one line and behind its first column. -/
lemma readFrom_word {word : List Char} (h : ∀ c ∈ word, isQuotable c = true) {rest : List Char}
    (hrest : ∀ c ∈ rest.head?, c ≠ '\x27') (text : List Char) {place : Place}
    (hplace : 0 < place.column) :
    readFrom .single text .empty .text place (word ++ '\x27' :: rest) =
      some (word.reverse ++ text, ⟨rest, place.past (word ++ ['\x27'])⟩) := by
  induction word generalizing text place with
  | nil =>
    have hcolumn : (place.column == 0) = false := beq_false_of_ne (Nat.ne_of_gt hplace)
    rw [List.nil_append, readFrom]
    · simp only [hcolumn, Bool.false_and, Gap.appendTo, Gap.empty, Quote.char]
      cases rest with
      | nil => rfl
      | cons d rest =>
        have hd : d ≠ '\x27' := hrest d rfl
        simp [hd, isBreak, isBlank]
    · nofun
  | cons c word ih =>
    obtain ⟨hc, hword⟩ := List.forall_mem_cons.mp h
    have hcolumn : (place.column == 0) = false := beq_false_of_ne (Nat.ne_of_gt hplace)
    have hquote : (c == Quote.single.char) = false := beq_of_class hc (by decide)
    have hnext : 0 < (place.next c).column := Nat.succ_pos _
    rw [List.cons_append, readFrom]
    · simp only [isBreak_of_isQuotable hc, isBlank_of_isQuotable hc, hcolumn, hquote, Gap.appendTo,
        Gap.empty, Bool.false_and, Bool.false_eq_true, if_false, List.nil_append, reduceCtorEq,
        false_and]
      refine (ih hword (c :: text) hnext).trans ?_
      simp
    · rintro rest' rfl
      cases hc

end Quoted

namespace Scanner

lemma skipSpace_solid (inFlow keyAllowed : Bool) (place : Place) {rest : List Char}
    (h : Solid rest) :
    skipSpace inFlow keyAllowed false place rest = (⟨rest, place⟩, keyAllowed) := by
  cases rest with
  | nil => rfl
  | cons c rest =>
    obtain ⟨hblank, hbreak, hcomment, hmark⟩ := h c rfl
    obtain ⟨hspace, htab⟩ : (c == ' ') = false ∧ (c == '\t') = false := by
      simpa [isBlank] using hblank
    rw [skipSpace]
    · simp [hbreak, hcomment, hspace, htab, hmark]
    · rintro rest' rfl
      cases hbreak

lemma length_skipSpace_le (inFlow keyAllowed comment : Bool) (place : Place) (text : List Char) :
    (skipSpace inFlow keyAllowed comment place text).1.rest.length ≤ text.length := by
  fun_induction skipSpace inFlow keyAllowed comment place text <;> simp_all <;> omega

lemma skipSpace_space (inFlow keyAllowed : Bool) (place : Place) (rest : List Char) :
    skipSpace inFlow keyAllowed false place (' ' :: rest) =
      skipSpace inFlow keyAllowed false (place.next ' ') rest := by
  rw [skipSpace]
  · rfl
  · nofun

lemma skipSpace_newLine (keyAllowed : Bool) (place : Place) (column : ℕ) {rest : List Char}
    (h : Solid rest) :
    skipSpace false keyAllowed false place ('\n' :: (Scalar.spaces column ++ rest)) =
      (⟨rest, place.newLine column⟩, true) := by
  have hspaces (place : Place) : skipSpace false true false place (Scalar.spaces column ++ rest) =
      (⟨rest, place.past (Scalar.spaces column)⟩, true) := by
    induction column generalizing place with
    | zero => exact skipSpace_solid false true place h
    | succ column ih =>
      rw [spaces_succ, List.cons_append, skipSpace_space, ih, Place.past_cons]
  have hbreak : skipSpace false keyAllowed false place ('\n' :: (Scalar.spaces column ++ rest)) =
      skipSpace false true false (place.nextLine 1) (Scalar.spaces column ++ rest) := by
    rw [skipSpace]
    · cases keyAllowed <;> rfl
    · nofun
  rw [hbreak, hspaces]
  rfl

end Scanner
end FaultBench.Yaml
