import FaultBench.Text.HexInput
import Mathlib.Tactic.Common

/-! Bytes written as plain digits are read as these bytes. -/
namespace FaultBench.Text

lemma hexDigit?_digitChar {n : ℕ} (h : n < 16) : hexDigit? (Nat.digitChar n) = some n := by
  have hall : ∀ n < 16, hexDigit? (Nat.digitChar n) = some n := by decide
  exact hall n h

/-- Text that is nothing but digits. -/
def AllDigits (cs : List Char) : Prop := ∀ c ∈ cs, ∃ d, hexDigit? c = some d

lemma toNat_of_hexDigit? {c : Char} {d : ℕ} (h : hexDigit? c = some d) :
    48 ≤ c.toNat ∧ c.toNat ≤ 57 ∨ 97 ≤ c.toNat ∧ c.toNat ≤ 102 ∨ 65 ≤ c.toNat ∧ c.toNat ≤ 70 := by
  have hle (a b : Char) : a ≤ b ↔ a.toNat ≤ b.toNat := Iff.rfl
  simp only [hexDigit?, hle] at h
  split at h
  · next hdigit => exact .inl hdigit
  · split at h
    · next hlower => exact .inr (.inl hlower)
    · split at h
      · next hupper => exact .inr (.inr hupper)
      · cases h

lemma isSeparator_of_hexDigit? {c : Char} {d : ℕ} (h : hexDigit? c = some d) :
    isSeparator c = false := by
  have hc := toNat_of_hexDigit? h
  have hblank : isBlank c = false := by
    simp [isBlank, blankRanges]
    omega
  have hcolon : c ≠ ':' := by
    rintro rfl
    exact absurd hc (by decide)
  have hcomma : c ≠ ',' := by
    rintro rfl
    exact absurd hc (by decide)
  simp [isSeparator, hblank, hcolon, hcomma]

lemma ne_mark_of_hexDigit? {c : Char} {d : ℕ} (h : hexDigit? c = some d) : c ≠ 'x' ∧ c ≠ 'X' := by
  constructor
  · rintro rfl
    cases h
  · rintro rfl
    cases h

/-- No digit separates words or belongs to the mark of a base. -/
lemma hexDigitsFrom_of_allDigits (start : Bool) {cs : List Char} (h : AllDigits cs) :
    hexDigitsFrom start cs = cs := by
  induction cs generalizing start with
  | nil => rfl
  | cons c rest ih =>
    obtain ⟨⟨d, hd⟩, hrest⟩ := List.forall_mem_cons.mp h
    cases rest with
    | nil => rw [hexDigitsFrom, isSeparator_of_hexDigit? hd, if_neg Bool.false_ne_true]
    | cons e rest =>
      obtain ⟨⟨f, hf⟩, -⟩ := List.forall_mem_cons.mp hrest
      obtain ⟨hlower, hupper⟩ := ne_mark_of_hexDigit? hf
      have hmark : (start && c == '0' && (e == 'x' || e == 'X')) = false := by
        simp [hlower, hupper]
      rw [hexDigitsFrom, isSeparator_of_hexDigit? hd, hmark, ih false hrest]
      rfl

/-- The values of the two digits of a byte. -/
def halves (b : UInt8) : List ℕ := [b.toNat / 16, b.toNat % 16]

lemma hexDigit?_hexPair (b : UInt8) : (hexPair b).map hexDigit? = (halves b).map some := by
  have hhigh : b.toNat / 16 < 16 := by
    have := b.toNat_lt
    omega
  have hlow : b.toNat % 16 < 16 := Nat.mod_lt _ (by decide)
  simp [hexPair, halves, hexDigit?_digitChar hhigh, hexDigit?_digitChar hlow]

lemma digitValues_of_map {cs : List Char} {values : List ℕ}
    (h : cs.map hexDigit? = values.map some) : digitValues cs = .ok values := by
  induction cs generalizing values with
  | nil =>
    cases values with
    | nil => rfl
    | cons v values => cases h
  | cons c cs ih =>
    cases values with
    | nil => cases h
    | cons v values =>
      obtain ⟨hc, hrest⟩ := List.cons.inj h
      rw [digitValues, hc, ih hrest]
      rfl

lemma allDigits_of_map {cs : List Char} {values : List ℕ}
    (h : cs.map hexDigit? = values.map some) : AllDigits cs := by
  intro c hc
  have hmem : hexDigit? c ∈ values.map some := h ▸ List.mem_map_of_mem hc
  obtain ⟨d, -, hd⟩ := List.mem_map.mp hmem
  exact ⟨d, hd.symm⟩

lemma hexBytes_halves (bytes : List UInt8) : hexBytes (bytes.flatMap halves) = bytes := by
  induction bytes with
  | nil => rfl
  | cons b bytes ih =>
    have hb : b.toNat / 16 * 16 + b.toNat % 16 = b.toNat := by omega
    change UInt8.ofNat (b.toNat / 16 * 16 + b.toNat % 16) :: hexBytes (bytes.flatMap halves) = _
    rw [hb, ih, UInt8.ofNat_toNat]

lemma length_halves (bytes : List UInt8) : (bytes.flatMap halves).length = 2 * bytes.length := by
  induction bytes with
  | nil => rfl
  | cons b bytes ih =>
    rw [List.flatMap_cons, List.length_append, ih, List.length_cons, halves]
    simp only [List.length_cons, List.length_nil]
    omega

theorem readHex_hex (bytes : List UInt8) : readHex (hex bytes) = .ok bytes := by
  have hmap : (bytes.flatMap hexPair).map hexDigit? = (bytes.flatMap halves).map some := by
    rw [List.map_flatMap, List.map_flatMap]
    exact congrArg (List.flatMap · bytes) (funext hexDigit?_hexPair)
  have heven : (bytes.flatMap halves).length % 2 = 0 := by
    rw [length_halves]
    omega
  rw [readHex, hex, String.toList_ofList, hexDigitsFrom_of_allDigits true (allDigits_of_map hmap),
    digitValues_of_map hmap]
  simp only [heven, if_true, hexBytes_halves]

lemma hexLiteral_eq (b : UInt8) : hexLiteral b = "0x" ++ hex [b] :=
  String.toList_inj.mp (by simp [hexLiteral, hex])

end FaultBench.Text
