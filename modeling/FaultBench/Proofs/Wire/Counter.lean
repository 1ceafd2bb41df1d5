import FaultBench.Wire.Counter
import Mathlib.Tactic.Common

/-! The four bytes of a counter determine it, and it determines them. -/
namespace FaultBench.Wire.Counter

lemma getLsbD_byte (v : BitVec 32) (k : ℕ) {i : ℕ} (hi : i < 32) :
    ((((v >>> k).setWidth 8).setWidth 32) <<< k).getLsbD i =
      (decide (k ≤ i ∧ i < k + 8) && v.getLsbD i) := by
  simp only [BitVec.getLsbD_shiftLeft, BitVec.getLsbD_setWidth, BitVec.getLsbD_ushiftRight, hi,
    decide_true, Bool.true_and]
  by_cases hk : k ≤ i
  · have heq : k + (i - k) = i := by omega
    by_cases hbyte : i < k + 8
    · simp [hk, hbyte, heq, show ¬ i < k by omega, show i - k < 32 by omega,
        show i - k < 8 by omega]
    · simp [hbyte, show ¬ i - k < 8 by omega]
  · simp [hk, show i < k by omega]

/-- The bytes of a counter are the counter. -/
theorem decode?_encode (value : UInt32) : decode? (encode value) = some value := by
  obtain ⟨v⟩ := value
  refine congrArg some (UInt32.eq_of_toBitVec_eq (BitVec.eq_of_getLsbD_eq fun i hi => ?_))
  change ((v.setWidth 8).setWidth 32 ||| ((v >>> 8).setWidth 8).setWidth 32 <<< 8 |||
    ((v >>> 16).setWidth 8).setWidth 32 <<< 16 |||
    ((v >>> 24).setWidth 8).setWidth 32 <<< 24).getLsbD i = v.getLsbD i
  rw [BitVec.getLsbD_or, BitVec.getLsbD_or, BitVec.getLsbD_or, getLsbD_byte v 8 hi,
    getLsbD_byte v 16 hi, getLsbD_byte v 24 hi]
  simp only [BitVec.getLsbD_setWidth, hi, decide_true, Bool.true_and]
  have hplace : i < 8 ∨ (8 ≤ i ∧ i < 8 + 8) ∨ (16 ≤ i ∧ i < 16 + 8) ∨ (24 ≤ i ∧ i < 24 + 8) := by
    omega
  rcases hplace with h | h | h | h <;> cases v.getLsbD i <;> simp [h]

/-- A byte put in one place of a word is read from this place, and nothing of it from another. -/
lemma setWidth_place (b : BitVec 8) {j k : ℕ} (hk : k + 8 ≤ 32)
    (h : j = k ∨ j + 8 ≤ k ∨ k + 8 ≤ j) :
    ((b.setWidth 32 <<< k) >>> j).setWidth 8 = if j = k then b else 0 := by
  refine BitVec.eq_of_getLsbD_eq fun i hi => ?_
  simp only [BitVec.getLsbD_setWidth, BitVec.getLsbD_ushiftRight, BitVec.getLsbD_shiftLeft, hi,
    decide_true, Bool.true_and]
  obtain rfl | hbelow | habove := h
  · simp [show j + i < 32 by omega, show i < 32 by omega]
  · simp [show j + i < k by omega, show j ≠ k by omega]
  · simp [show j ≠ k by omega, BitVec.getLsbD_of_ge b (j + i - k) (by omega)]

lemma setWidth_word (a b c d : BitVec 8) {j : ℕ} (hj : j = 0 ∨ j = 8 ∨ j = 16 ∨ j = 24) :
    ((a.setWidth 32 ||| b.setWidth 32 <<< 8 ||| c.setWidth 32 <<< 16 ||| d.setWidth 32 <<< 24)
        >>> j).setWidth 8 =
      ((if j = 0 then a else 0) ||| (if j = 8 then b else 0) ||| (if j = 16 then c else 0) |||
        (if j = 24 then d else 0)) := by
  have ha := setWidth_place a (j := j) (k := 0) (by omega) (by omega)
  rw [BitVec.shiftLeft_zero] at ha
  simp only [BitVec.ushiftRight_or_distrib, BitVec.setWidth_or, ha]
  rw [setWidth_place b (by omega) (by omega), setWidth_place c (by omega) (by omega),
    setWidth_place d (by omega) (by omega)]

/-- No other bytes stand for the counter that is read. -/
theorem encode_of_decode? {payload : List UInt8} {value : UInt32}
    (h : decode? payload = some value) : encode value = payload := by
  match payload, h with
  | [a, b, c, d], h =>
    obtain rfl := Option.some.inj h
    have hword {j : ℕ} := setWidth_word a.toBitVec b.toBitVec c.toBitVec d.toBitVec (j := j)
    simp only [encode, List.cons.injEq, and_true]
    refine ⟨?_, ?_, ?_, ?_⟩ <;> apply UInt8.eq_of_toBitVec_eq
    · simp
    · simpa using hword (j := 8)
    · simpa using hword (j := 16)
    · simpa using hword (j := 24)

lemma isSome_decode? {payload : List UInt8} (h : payload.length = width) :
    (decode? payload).isSome := by
  match payload, h with
  | [_, _, _, _], _ => rfl

end FaultBench.Wire.Counter
