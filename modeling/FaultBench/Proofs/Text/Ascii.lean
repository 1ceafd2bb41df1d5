import FaultBench.Proofs.Text.Json

/-! JSON values without any characters beyond ASCII: their text has none either, and so takes one
byte a character. -/
namespace FaultBench.Text

def Ascii (text : List Char) : Prop := ∀ c ∈ text, c.toNat < 128

-- Not by trying all characters there are.
instance (text : List Char) : Decidable (Ascii text) :=
  List.decidableBAll (fun c : Char => c.toNat < 128) text

@[simp] lemma ascii_nil : Ascii [] := nofun

@[simp] lemma ascii_cons {c : Char} {text : List Char} :
    Ascii (c :: text) ↔ c.toNat < 128 ∧ Ascii text := List.forall_mem_cons

@[simp] lemma ascii_append {a b : List Char} : Ascii (a ++ b) ↔ Ascii a ∧ Ascii b :=
  List.forall_mem_append

@[simp] lemma ascii_hexPair (b : UInt8) : Ascii (hexPair b) := by
  have hdigit : ∀ n < 16, (Nat.digitChar n).toNat < 128 := by decide
  have hhigh : b.toNat / 16 < 16 := by
    have := b.toNat_lt
    omega
  have hlow : b.toNat % 16 < 16 := Nat.mod_lt _ (by decide)
  simp [hexPair, hdigit _ hhigh, hdigit _ hlow]

@[simp] lemma ascii_toDigits (n : ℕ) : Ascii (Nat.toDigits 10 n) := by
  intro c hc
  have hdigit : c.isDigit = true := Nat.isDigit_of_mem_toDigits (by decide) (by decide) hc
  rw [Char.isDigit, Bool.and_eq_true, decide_eq_true_eq, decide_eq_true_eq] at hdigit
  have hle : c.toNat ≤ 57 := hdigit.2
  omega

@[simp] lemma ascii_hexLiteral (b : UInt8) : Ascii (hexLiteral b).toList := by
  simp [hexLiteral]

@[simp] lemma ascii_hex (bytes : List UInt8) : Ascii (hex bytes).toList := by
  intro c hc
  rw [hex, String.toList_ofList, List.mem_flatMap] at hc
  obtain ⟨b, -, hc⟩ := hc
  exact ascii_hexPair b c hc

namespace Json

lemma ascii_escaped {c : Char} (h : c.toNat < 128) : Ascii (escaped c) := by
  rw [escaped]
  repeat' split
  all_goals simp [h]

lemma ascii_quote {s : String} (h : Ascii s.toList) : Ascii (quote s) := by
  have hchars : Ascii (s.toList.flatMap escaped) := by
    intro c hc
    obtain ⟨d, hd, hc⟩ := List.mem_flatMap.mp hc
    exact ascii_escaped (h d hd) c hc
  simp [quote, hchars]

mutual
/-- The strings of a value, the names of members included. -/
def strings : Json → List String
  | .boolean _ | .number _ => []
  | .text s => [s]
  | .list items => stringsOfItems items
  | .object members => stringsOfMembers members

def stringsOfItems : List Json → List String
  | [] => []
  | j :: rest => j.strings ++ stringsOfItems rest

def stringsOfMember : String × Json → List String
  | (name, j) => name :: j.strings

def stringsOfMembers : List (String × Json) → List String
  | [] => []
  | m :: rest => stringsOfMember m ++ stringsOfMembers rest
end

/-- No string of a value has a character beyond ASCII. -/
def AsciiStrings (j : Json) : Prop := ∀ s ∈ j.strings, Ascii s.toList

@[simp] lemma asciiStrings_boolean (b : Bool) : (boolean b).AsciiStrings := nofun

@[simp] lemma asciiStrings_number (n : ℕ) : (number n).AsciiStrings := nofun

@[simp] lemma asciiStrings_text {s : String} : (text s).AsciiStrings ↔ Ascii s.toList := by
  simp [AsciiStrings, strings]

@[simp] lemma asciiStrings_list {items : List Json} :
    (list items).AsciiStrings ↔ ∀ j ∈ items, j.AsciiStrings := by
  rw [AsciiStrings, strings]
  induction items with
  | nil => simp [stringsOfItems]
  | cons j items ih => rw [stringsOfItems, List.forall_mem_append, ih, List.forall_mem_cons,
      AsciiStrings]

@[simp] lemma asciiStrings_object {members : List (String × Json)} :
    (object members).AsciiStrings ↔ ∀ m ∈ members, Ascii m.1.toList ∧ m.2.AsciiStrings := by
  rw [AsciiStrings, strings]
  induction members with
  | nil => simp [stringsOfMembers]
  | cons m members ih => rw [stringsOfMembers, List.forall_mem_append, ih, List.forall_mem_cons,
      stringsOfMember, List.forall_mem_cons, AsciiStrings]

mutual
/-- What is not in a string of a value adds nothing beyond ASCII to its text. -/
theorem ascii_print : (j : Json) → j.AsciiStrings → Ascii j.print
  | .boolean b, _ => by cases b <;> simp [print]
  | .number n, _ => ascii_toDigits n
  | .text s, h => ascii_quote (asciiStrings_text.mp h)
  | .list items, h => by
    have hitems := ascii_printItems items (asciiStrings_list.mp h)
    simp [print, hitems]
  | .object members, h => by
    have hmembers := ascii_printMembers members (asciiStrings_object.mp h)
    simp [print, hmembers]

theorem ascii_printItems : (items : List Json) → (∀ j ∈ items, j.AsciiStrings) →
    Ascii (printItems items)
  | [], _ => ascii_nil
  | [j], h => ascii_print j (h j List.mem_cons_self)
  | j :: k :: rest, h => by
    have hj := ascii_print j (h j List.mem_cons_self)
    have hrest := ascii_printItems (k :: rest) fun i hi => h i (List.mem_cons_of_mem _ hi)
    simp [printItems, hj, hrest]

theorem ascii_printMember : (member : String × Json) → Ascii member.1.toList →
    member.2.AsciiStrings → Ascii (printMember member)
  | (name, j), hname, h => by
    have hj := ascii_print j h
    simp [printMember, ascii_quote hname, hj]

theorem ascii_printMembers : (members : List (String × Json)) →
    (∀ m ∈ members, Ascii m.1.toList ∧ m.2.AsciiStrings) → Ascii (printMembers members)
  | [], _ => ascii_nil
  | [m], h => ascii_printMember m (h m List.mem_cons_self).1 (h m List.mem_cons_self).2
  | m :: n :: rest, h => by
    have hm := ascii_printMember m (h m List.mem_cons_self).1 (h m List.mem_cons_self).2
    have hrest := ascii_printMembers (n :: rest) fun i hi => h i (List.mem_cons_of_mem _ hi)
    simp [printMembers, hm, hrest]
end

end Json
end FaultBench.Text
