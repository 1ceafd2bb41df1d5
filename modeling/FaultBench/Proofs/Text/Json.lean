import FaultBench.Proofs.Text.HexInput
import FaultBench.Text.Json
import Mathlib.Data.List.SplitBy

/-! The text of a JSON value is one line, and no other value has it. -/
namespace FaultBench.Text

lemma digitChar_ne_newline {n : ℕ} (h : n < 16) : Nat.digitChar n ≠ '\n' := by
  have hall : ∀ n < 16, Nat.digitChar n ≠ '\n' := by decide
  exact hall n h

lemma newline_not_mem_hexPair (b : UInt8) : '\n' ∉ hexPair b := by
  have hhigh : b.toNat / 16 < 16 := by
    have := b.toNat_lt
    omega
  have hlow : b.toNat % 16 < 16 := Nat.mod_lt _ (by decide)
  simp [hexPair, (digitChar_ne_newline hhigh).symm, (digitChar_ne_newline hlow).symm]

namespace Json

lemma newline_not_mem_escaped (c : Char) : '\n' ∉ escaped c := by
  by_cases hc : c = '\n'
  · subst hc
    decide
  · have hne : '\n' ≠ c := Ne.symm hc
    rw [escaped]
    repeat' split
    all_goals simp [hne, newline_not_mem_hexPair]

lemma newline_not_mem_quote (s : String) : '\n' ∉ quote s := by
  rw [quote, List.mem_append, List.mem_cons, List.mem_flatMap]
  rintro ((h | ⟨c, -, h⟩) | h)
  · cases h
  · exact newline_not_mem_escaped c h
  · simp at h

mutual
/-- No part of a value is written with a line break. -/
theorem newline_not_mem_print : (j : Json) → '\n' ∉ j.print
  | .boolean b => by cases b <;> decide
  | .number n => fun h => by
    have hdigit := Nat.isDigit_of_mem_toDigits (by decide) (by decide) h
    cases hdigit
  | .text s => newline_not_mem_quote s
  | .list items => by
    have hitems := newline_not_mem_printItems items
    simp [print, hitems]
  | .object members => by
    have hmembers := newline_not_mem_printMembers members
    simp [print, hmembers]

theorem newline_not_mem_printItems : (items : List Json) → '\n' ∉ printItems items
  | [] => List.not_mem_nil
  | [j] => newline_not_mem_print j
  | j :: k :: rest => by
    have hj := newline_not_mem_print j
    have hrest := newline_not_mem_printItems (k :: rest)
    simp [printItems, hj, hrest]

theorem newline_not_mem_printMember : (member : String × Json) → '\n' ∉ printMember member
  | (name, j) => by
    have hname := newline_not_mem_quote name
    have hj := newline_not_mem_print j
    simp [printMember, hname, hj]

theorem newline_not_mem_printMembers : (members : List (String × Json)) →
    '\n' ∉ printMembers members
  | [] => List.not_mem_nil
  | [m] => newline_not_mem_printMember m
  | m :: n :: rest => by
    have hm := newline_not_mem_printMember m
    have hrest := newline_not_mem_printMembers (n :: rest)
    simp [printMembers, hm, hrest]
end

/-! ### Pieces -/

/-- No character of a string gets lost between the pieces. -/
lemma flatten_quotePieces (s : String) : (quotePieces s).flatten = quote s := by
  have hruns (runs : List (List Char)) :
      (runs.map (·.flatMap escaped)).flatten = runs.flatten.flatMap escaped := by
    rw [← List.flatMap_def, ← List.flatMap_id, List.flatMap_assoc]
    rfl
  rw [quotePieces, List.flatten_append, List.flatten_cons, hruns, List.flatten_splitBy]
  rfl

mutual
/-- The pieces in which a value is written make up its text. -/
theorem flatten_pieces : (j : Json) → j.pieces.flatten = j.print
  | .boolean b => List.append_nil _
  | .number n => List.append_nil _
  | .text s => flatten_quotePieces s
  | .list items => by
    have hitems := flatten_piecesOfItems items
    simp [pieces, print, hitems]
  | .object members => by
    have hmembers := flatten_piecesOfMembers members
    simp [pieces, print, hmembers]

theorem flatten_piecesOfItems : (items : List Json) →
    (piecesOfItems items).flatten = printItems items
  | [] => rfl
  | [j] => flatten_pieces j
  | j :: k :: rest => by
    have hj := flatten_pieces j
    have hrest := flatten_piecesOfItems (k :: rest)
    simp [piecesOfItems, printItems, hj, hrest]

theorem flatten_piecesOfMember : (member : String × Json) →
    (piecesOfMember member).flatten = printMember member
  | (name, j) => by
    have hj := flatten_pieces j
    simp [piecesOfMember, printMember, flatten_quotePieces, hj]

theorem flatten_piecesOfMembers : (members : List (String × Json)) →
    (piecesOfMembers members).flatten = printMembers members
  | [] => rfl
  | [m] => flatten_piecesOfMember m
  | m :: n :: rest => by
    have hm := flatten_piecesOfMember m
    have hrest := flatten_piecesOfMembers (n :: rest)
    simp [piecesOfMembers, printMembers, hm, hrest]
end

/-! ### What stands behind a value -/

/-- A text that does not go on with a number. -/
def Stops (rest : List Char) : Prop := ∀ c ∈ rest.head?, c.isDigit = false

lemma stops_nil : Stops [] := by simp [Stops]

lemma stops_cons {c : Char} (h : c.isDigit = false) (rest : List Char) : Stops (c :: rest) := by
  simpa [Stops] using h

lemma takeWhile_toDigits (n : ℕ) {rest : List Char} (h : Stops rest) :
    (Nat.toDigits 10 n ++ rest).takeWhile Char.isDigit = Nat.toDigits 10 n := by
  have hdigits : ∀ c ∈ Nat.toDigits 10 n, c.isDigit = true := fun c hc =>
    Nat.isDigit_of_mem_toDigits (by decide) (by decide) hc
  have hrest : rest.takeWhile Char.isDigit = [] := by
    cases rest with
    | nil => rfl
    | cons c rest => simp [h c rfl]
  rw [List.takeWhile_append_of_pos hdigits, hrest, List.append_nil]

lemma toDigits_append_inj {n m : ℕ} {a b : List Char} (ha : Stops a) (hb : Stops b)
    (h : Nat.toDigits 10 n ++ a = Nat.toDigits 10 m ++ b) : n = m ∧ a = b := by
  have hdigits : Nat.toDigits 10 n = Nat.toDigits 10 m := by
    rw [← takeWhile_toDigits n ha, h, takeWhile_toDigits m hb]
  have hvalue (n : ℕ) : Nat.ofDigitChars 10 (Nat.toDigits 10 n) 0 = n :=
    Nat.ofDigitChars_toDigits (by decide) (by decide)
  rw [hdigits] at h
  refine ⟨?_, List.append_cancel_left h⟩
  rw [← hvalue n, hdigits, hvalue]

/-! ### Strings -/

/-- The first character of an escaped text, and the text behind it. -/
def unescaped : List Char → Option (Char × List Char)
  | '\\' :: 'u' :: '0' :: '0' :: high :: low :: rest => do
    return (Char.ofNat ((← hexDigit? high) * 16 + (← hexDigit? low)), rest)
  | '\\' :: 'n' :: rest => some ('\n', rest)
  | '\\' :: 'r' :: rest => some ('\r', rest)
  | '\\' :: 't' :: rest => some ('\t', rest)
  | '\\' :: 'b' :: rest => some ('\x08', rest)
  | '\\' :: 'f' :: rest => some ('\x0c', rest)
  | '\\' :: c :: rest => some (c, rest)
  | c :: rest => some (c, rest)
  | [] => none

lemma unescaped_of_ne {c : Char} (h : c ≠ '\\') (rest : List Char) :
    unescaped (c :: rest) = some (c, rest) := by
  rw [unescaped.eq_def]
  split <;> simp_all

lemma unescaped_hexPair {c : Char} (h : c.toNat < 0x20) (rest : List Char) :
    unescaped (['\\', 'u', '0', '0'] ++ hexPair (UInt8.ofNat c.toNat) ++ rest) =
      some (c, rest) := by
  have hbyte : (UInt8.ofNat c.toNat).toNat = c.toNat := by
    rw [UInt8.toNat_ofNat']
    omega
  have hhigh : hexDigit? (Nat.digitChar (c.toNat / 16)) = some (c.toNat / 16) :=
    hexDigit?_digitChar (by omega)
  have hlow : hexDigit? (Nat.digitChar (c.toNat % 16)) = some (c.toNat % 16) :=
    hexDigit?_digitChar (by omega)
  have hvalue : c.toNat / 16 * 16 + c.toNat % 16 = c.toNat := by omega
  simp only [hexPair, hbyte, List.cons_append, List.nil_append, unescaped, hhigh, hlow]
  simp [hvalue]

lemma unescaped_escaped (c : Char) (rest : List Char) :
    unescaped (escaped c ++ rest) = some (c, rest) := by
  rw [escaped]
  split
  · next h =>
    rw [Bool.or_eq_true, beq_iff_eq, beq_iff_eq] at h
    obtain rfl | rfl := h <;> rfl
  · next hplain =>
    have hslash : c ≠ '\\' := by
      rintro rfl
      simp at hplain
    split
    · next h => rw [beq_iff_eq.mp h]; rfl
    · split
      · next h => rw [beq_iff_eq.mp h]; rfl
      · split
        · next h => rw [beq_iff_eq.mp h]; rfl
        · split
          · next h => rw [beq_iff_eq.mp h]; rfl
          · split
            · next h => rw [beq_iff_eq.mp h]; rfl
            · split
              · next h => exact unescaped_hexPair h rest
              · exact unescaped_of_ne hslash rest

lemma head?_escaped (c : Char) : ∃ d, (escaped c).head? = some d ∧ d ≠ '"' := by
  rw [escaped]
  split
  · exact ⟨_, rfl, by decide⟩
  · next hplain =>
    have hquote : c ≠ '"' := by
      rintro rfl
      simp at hplain
    repeat' split
    all_goals exact ⟨_, rfl, by first | decide | exact hquote⟩

/-- The end of a string is where its first quote is that no backslash stands before. -/
lemma escaped_append_inj {cs ds a b : List Char}
    (h : cs.flatMap escaped ++ '"' :: a = ds.flatMap escaped ++ '"' :: b) : cs = ds ∧ a = b := by
  have hne (c : Char) (rest more : List Char) : '"' :: rest ≠ escaped c ++ more := by
    intro heq
    obtain ⟨d, hd, hquote⟩ := head?_escaped c
    have hhead := congrArg List.head? heq
    rw [List.head?_append, hd] at hhead
    exact hquote (Option.some.inj hhead).symm
  induction cs generalizing ds with
  | nil =>
    cases ds with
    | nil => exact ⟨rfl, (List.cons.inj h).2⟩
    | cons d ds =>
      rw [List.flatMap_cons, List.append_assoc] at h
      exact absurd h (hne d a _)
  | cons c cs ih =>
    rw [List.flatMap_cons, List.append_assoc] at h
    cases ds with
    | nil => exact absurd h.symm (hne c b _)
    | cons d ds =>
      rw [List.flatMap_cons, List.append_assoc] at h
      have hread := congrArg unescaped h
      rw [unescaped_escaped, unescaped_escaped] at hread
      obtain ⟨rfl, hrest⟩ := Prod.mk.inj (Option.some.inj hread)
      obtain ⟨rfl, hab⟩ := ih hrest
      exact ⟨rfl, hab⟩

lemma quote_append_inj {s t : String} {a b : List Char} (h : quote s ++ a = quote t ++ b) :
    s = t ∧ a = b := by
  simp only [quote, List.cons_append, List.append_assoc, List.nil_append, List.cons.injEq,
    true_and] at h
  obtain ⟨hchars, hab⟩ := escaped_append_inj h
  exact ⟨String.toList_inj.mp hchars, hab⟩

/-! ### Values -/

/-- The kind of value that a text beginning with a character can be. -/
def opens (c : Char) : ℕ :=
  if c.isDigit then 1
  else if c = '"' then 2
  else if c = '[' then 3
  else if c = '\x7b' then 4
  else if c = 't' ∨ c = 'f' then 0
  else 5

def kind : Json → ℕ
  | .boolean _ => 0
  | .number _ => 1
  | .text _ => 2
  | .list _ => 3
  | .object _ => 4

/-- The first character tells the kind of a value. -/
lemma print_eq_cons (j : Json) : ∃ c rest, j.print = c :: rest ∧ opens c = j.kind := by
  cases j with
  | boolean b => cases b <;> exact ⟨_, _, rfl, by decide⟩
  | number n =>
    cases hdigits : Nat.toDigits 10 n with
    | nil => exact absurd hdigits Nat.toDigits_ne_nil
    | cons c rest =>
      have hc : c.isDigit = true :=
        Nat.isDigit_of_mem_toDigits (by decide) (by decide) (hdigits ▸ List.mem_cons_self)
      exact ⟨c, rest, hdigits, if_pos hc⟩
  | text s => exact ⟨_, _, rfl, rfl⟩
  | list items => exact ⟨_, _, rfl, rfl⟩
  | object members => exact ⟨_, _, rfl, rfl⟩

lemma kind_eq_of_print {j k : Json} {a b : List Char} (h : j.print ++ a = k.print ++ b) :
    j.kind = k.kind := by
  obtain ⟨c, s, hj, hc⟩ := j.print_eq_cons
  obtain ⟨d, t, hk, hd⟩ := k.print_eq_cons
  rw [hj, hk] at h
  rw [← hc, ← hd, (List.cons.inj h).1]

/-- No value begins where a list ends. -/
lemma print_append_ne (j : Json) {a b : List Char} : j.print ++ a ≠ ']' :: b := by
  obtain ⟨c, rest, hj, hc⟩ := j.print_eq_cons
  have hend : opens ']' = 5 := rfl
  rw [hj]
  intro h
  rw [(List.cons.inj h).1, hend] at hc
  cases j <;> cases hc

lemma printMember_append_ne (m : String × Json) {a b : List Char} :
    printMember m ++ a ≠ '\x7d' :: b := by
  obtain ⟨name, j⟩ := m
  simp [printMember, quote]

/-- The items behind another one, each behind its comma. -/
def printTail : List Json → List Char
  | [] => []
  | j :: rest => ',' :: printItems (j :: rest)

lemma printItems_cons (j : Json) (rest : List Json) :
    printItems (j :: rest) = j.print ++ printTail rest := by
  cases rest with
  | nil => simp [printItems, printTail]
  | cons k rest => rfl

def printMembersTail : List (String × Json) → List Char
  | [] => []
  | m :: rest => ',' :: printMembers (m :: rest)

lemma printMembers_cons (m : String × Json) (rest : List (String × Json)) :
    printMembers (m :: rest) = printMember m ++ printMembersTail rest := by
  cases rest with
  | nil => simp [printMembers, printMembersTail]
  | cons n rest => rfl

lemma stops_printTail (items : List Json) (a : List Char) : Stops (printTail items ++ ']' :: a) := by
  cases items <;> exact stops_cons rfl _

lemma stops_printMembersTail (members : List (String × Json)) (a : List Char) :
    Stops (printMembersTail members ++ '\x7d' :: a) := by
  cases members <;> exact stops_cons rfl _

lemma printTail_of_printItems {items others : List Json} {a b : List Char}
    (h : printItems items ++ ']' :: a = printItems others ++ ']' :: b) :
    printTail items ++ ']' :: a = printTail others ++ ']' :: b := by
  cases items with
  | nil =>
    cases others with
    | nil => exact h
    | cons k others =>
      rw [printItems_cons, List.append_assoc] at h
      exact absurd h.symm k.print_append_ne
  | cons j items =>
    cases others with
    | nil =>
      rw [printItems_cons, List.append_assoc] at h
      exact absurd h j.print_append_ne
    | cons k others => exact congrArg (',' :: ·) h

lemma printMembersTail_of_printMembers {members others : List (String × Json)} {a b : List Char}
    (h : printMembers members ++ '\x7d' :: a = printMembers others ++ '\x7d' :: b) :
    printMembersTail members ++ '\x7d' :: a = printMembersTail others ++ '\x7d' :: b := by
  cases members with
  | nil =>
    cases others with
    | nil => exact h
    | cons n others =>
      rw [printMembers_cons, List.append_assoc] at h
      exact absurd h.symm (printMember_append_ne n)
  | cons m members =>
    cases others with
    | nil =>
      rw [printMembers_cons, List.append_assoc] at h
      exact absurd h (printMember_append_ne m)
    | cons n others => exact congrArg (',' :: ·) h

mutual
/-- Which value a text begins with and where it ends follows from the text, unless a number might
go on. -/
theorem print_append_inj : (j k : Json) → {a b : List Char} → Stops a → Stops b →
    j.print ++ a = k.print ++ b → j = k ∧ a = b
  | .boolean x, k, a, b, _, _, h => by
    have hkind := kind_eq_of_print h
    cases k with
    | boolean y =>
      cases x <;> cases y <;> simp [print] at h ⊢
      · exact h
      · exact h
    | _ => cases hkind
  | .number n, k, a, b, ha, hb, h => by
    have hkind := kind_eq_of_print h
    cases k with
    | number m =>
      obtain ⟨rfl, hab⟩ := toDigits_append_inj ha hb h
      exact ⟨rfl, hab⟩
    | _ => cases hkind
  | .text s, k, a, b, _, _, h => by
    have hkind := kind_eq_of_print h
    cases k with
    | text t =>
      obtain ⟨rfl, hab⟩ := quote_append_inj h
      exact ⟨rfl, hab⟩
    | _ => cases hkind
  | .list items, k, a, b, _, _, h => by
    have hkind := kind_eq_of_print h
    cases k with
    | list others =>
      simp only [print, List.cons_append, List.append_assoc, List.nil_append, List.cons.injEq,
        true_and] at h
      obtain ⟨rfl, hab⟩ := printTail_append_inj items others (printTail_of_printItems h)
      exact ⟨rfl, hab⟩
    | _ => cases hkind
  | .object members, k, a, b, _, _, h => by
    have hkind := kind_eq_of_print h
    cases k with
    | object others =>
      simp only [print, List.cons_append, List.append_assoc, List.nil_append, List.cons.injEq,
        true_and] at h
      obtain ⟨rfl, hab⟩ :=
        printMembersTail_append_inj members others (printMembersTail_of_printMembers h)
      exact ⟨rfl, hab⟩
    | _ => cases hkind

theorem printTail_append_inj : (items others : List Json) → {a b : List Char} →
    printTail items ++ ']' :: a = printTail others ++ ']' :: b → items = others ∧ a = b
  | [], [], a, b, h => ⟨rfl, (List.cons.inj h).2⟩
  | [], k :: others, a, b, h => by cases h
  | j :: items, [], a, b, h => by cases h
  | j :: items, k :: others, a, b, h => by
    have htail : printItems (j :: items) ++ ']' :: a = printItems (k :: others) ++ ']' :: b :=
      (List.cons.inj h).2
    rw [printItems_cons, printItems_cons, List.append_assoc, List.append_assoc] at htail
    obtain ⟨rfl, hrest⟩ :=
      print_append_inj j k (stops_printTail items a) (stops_printTail others b) htail
    obtain ⟨rfl, hab⟩ := printTail_append_inj items others hrest
    exact ⟨rfl, hab⟩

theorem printMembersTail_append_inj : (members others : List (String × Json)) → {a b : List Char} →
    printMembersTail members ++ '\x7d' :: a = printMembersTail others ++ '\x7d' :: b →
      members = others ∧ a = b
  | [], [], a, b, h => ⟨rfl, (List.cons.inj h).2⟩
  | [], n :: others, a, b, h => by cases h
  | m :: members, [], a, b, h => by cases h
  | (name, j) :: members, (other, k) :: others, a, b, h => by
    have htail : printMembers ((name, j) :: members) ++ '\x7d' :: a =
        printMembers ((other, k) :: others) ++ '\x7d' :: b := (List.cons.inj h).2
    simp only [printMembers_cons, printMember, List.append_assoc, List.cons_append] at htail
    obtain ⟨rfl, hvalue⟩ := quote_append_inj htail
    obtain ⟨rfl, hrest⟩ := print_append_inj j k (stops_printMembersTail members a)
      (stops_printMembersTail others b) (List.cons.inj hvalue).2
    obtain ⟨rfl, hab⟩ := printMembersTail_append_inj members others hrest
    exact ⟨rfl, hab⟩
end

/-- Values with the same text are the same, the order of their members included. -/
theorem print_injective {j k : Json} (h : j.print = k.print) : j = k := by
  have happend : j.print ++ [] = k.print ++ [] := by rw [h]
  exact (print_append_inj j k stops_nil stops_nil happend).1

end Json
end FaultBench.Text
