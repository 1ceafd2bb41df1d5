import FaultBench.Text.Digits
import Mathlib.Tactic.Common

/-! Numbers read back from their decimal digits. -/
namespace FaultBench.Text

lemma hexDigit?_of_isDigit {c : Char} (h : c.isDigit = true) :
    hexDigit? c = some (c.toNat - 48) ∧ c.toNat - 48 < 10 := by
  obtain ⟨hlow, hhigh⟩ := Char.isDigit_iff_toNat.mp h
  have hrange : '0' ≤ c ∧ c ≤ '9' := ⟨hlow, hhigh⟩
  have : c.toNat ≤ 57 := hhigh
  exact ⟨if_pos hrange, by omega⟩

/-- Decimal digits are read from the first to the last. -/
lemma foldlM_digits {cs : List Char} (h : ∀ c ∈ cs, c.isDigit = true) (n : ℕ) :
    cs.foldlM (fun n c => (hexDigit? c).bind fun d => if d < 10 then some (n * 10 + d) else none)
      n = some (Nat.ofDigitChars 10 cs n) := by
  induction cs generalizing n with
  | nil => rfl
  | cons c cs ih =>
    obtain ⟨hc, hcs⟩ := List.forall_mem_cons.mp h
    obtain ⟨hdigit, hlt⟩ := hexDigit?_of_isDigit hc
    have hstep : (hexDigit? c).bind (fun d => if d < 10 then some (n * 10 + d) else none) =
        some (10 * n + (c.toNat - 48)) := by
      rw [hdigit, Option.bind_some, if_pos hlt, Nat.mul_comm]
    rw [List.foldlM_cons, hstep, Nat.ofDigitChars_cons]
    exact ih hcs _

lemma isDigit_toDigits (n : ℕ) : ∀ c ∈ Nat.toDigits 10 n, c.isDigit = true :=
  fun _ hc => Nat.isDigit_of_mem_toDigits (by decide) (by decide) hc

theorem digits?_toDigits (n : ℕ) : digits? 10 (Nat.toDigits 10 n) = some n := by
  have hsome : (Nat.toDigits 10 n).isEmpty = false :=
    Bool.eq_false_iff.mpr fun h => Nat.toDigits_ne_nil (List.isEmpty_iff.mp h)
  rw [digits?, hsome]
  exact (foldlM_digits (isDigit_toDigits n) 0).trans (congrArg some Nat.ofDigitChars_ten_toDigits)

/-- Only zero begins with the digit zero. -/
lemma head?_toDigits {n : ℕ} (h : 0 < n) : (Nat.toDigits 10 n).head? ≠ some '0' := by
  induction n using Nat.strongRecOn with
  | ind n ih =>
    obtain hlt | hle := Nat.lt_or_ge n 10
    · have hdigit : ∀ d < 10, 0 < d → d.digitChar ≠ '0' := by decide
      rw [Nat.toDigits_of_lt_base hlt]
      exact fun hhead => hdigit n hlt h (Option.some.inj hhead)
    · have hfirst := ih (n / 10) (by omega) (by omega)
      rw [Nat.toDigits_of_base_le (by decide) hle, List.head?_append]
      cases hhead : (Nat.toDigits 10 (n / 10)).head? with
      | none => exact absurd (List.head?_eq_none_iff.mp hhead) Nat.toDigits_ne_nil
      | some c => rwa [hhead] at hfirst

end FaultBench.Text
