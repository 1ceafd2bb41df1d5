import FaultBench.Wire.Stuffing
import Mathlib.Tactic.Common

/-! Stuffed blocks read back as the data they were made of, and hold a zero at their end alone. -/
namespace FaultBench.Wire.Stuffing

lemma code_ne_zero {n : ℕ} (h : n ≤ fullRun) : UInt8.ofNat (n + 1) ≠ 0 := by
  intro hz
  have hn : (UInt8.ofNat (n + 1)).toNat = 0 := by rw [hz]; rfl
  simp [fullRun] at hn h
  omega

lemma toNat_code {n : ℕ} (h : n ≤ fullRun) : (UInt8.ofNat (n + 1)).toNat = n + 1 := by
  simp [fullRun] at h ⊢
  omega

lemma code_eq_full_iff {n : ℕ} (h : n ≤ fullRun) : UInt8.ofNat (n + 1) = 255 ↔ n = fullRun := by
  rw [← UInt8.toNat_inj, toNat_code h]
  simp [fullRun]

/-- The bytes that a code announces are read as they stand. -/
lemma unstuffFrom_run (gap : Bool) (run rest : List UInt8) :
    unstuffFrom gap run.length (run ++ rest) = (unstuffFrom gap 0 rest).map (run ++ ·) := by
  induction run with
  | nil => simp
  | cons b run ih => simp [unstuffFrom, ih, Function.comp_def]

/-- One run with its code. A zero follows its bytes unless the run is full. -/
lemma unstuffFrom_block (gap : Bool) (run rest : List UInt8) (h : run.length ≤ fullRun) :
    unstuffFrom gap 0 (block run ++ rest) =
      (unstuffFrom (decide (run.length ≠ fullRun)) 0 rest).map
        fun data => (if gap then [0] else []) ++ run ++ data := by
  have hfull : decide (UInt8.ofNat (run.length + 1) ≠ 255) = decide (run.length ≠ fullRun) := by
    simp only [ne_eq, code_eq_full_iff h]
  simp only [block, List.cons_append, unstuffFrom, if_neg (code_ne_zero h), hfull, toNat_code h,
    Nat.add_sub_cancel, unstuffFrom_run, Option.map_map]
  cases gap <;> simp [Function.comp_def]

lemma unstuffFrom_end (gap : Bool) : unstuffFrom gap 0 [0] = some [] := by simp [unstuffFrom]

/-- The unfinished run is generalised, since a run grows byte by byte before its code is known. -/
theorem unstuffFrom_stuffFrom (gap : Bool) (run data : List UInt8) (h : run.length < fullRun) :
    unstuffFrom gap 0 (stuffFrom run data) =
      some ((if gap then [0] else []) ++ run ++ data) := by
  induction data generalizing gap run with
  | nil => simp [stuffFrom, unstuffFrom_block gap run [0] (Nat.le_of_lt h), unstuffFrom_end]
  | cons b rest ih =>
    rw [stuffFrom]
    split
    · next hb =>
      rw [unstuffFrom_block gap run _ (Nat.le_of_lt h), ih _ [] (by simp [fullRun])]
      simp [hb, Nat.ne_of_lt h]
    · split
      · next _ hrun =>
        rw [unstuffFrom_block gap (run ++ [b]) _ (by simp [hrun])]
        cases rest with
        | nil => simp [unstuffFrom_end, hrun]
        | cons c rest =>
          simp only [List.isEmpty_cons, Bool.false_eq_true, if_false]
          rw [ih _ [] (by simp [fullRun])]
          simp [hrun]
      · next _ hrun =>
        rw [ih gap (run ++ [b]) (by simp; omega)]
        simp

theorem unstuff_stuff (data : List UInt8) : unstuff (stuff data) = some data := by
  have h := unstuffFrom_stuffFrom false [] data (by simp [fullRun])
  simpa [unstuff, stuff] using h

lemma zero_not_mem_block {run : List UInt8} (h : run.length ≤ fullRun) (hz : 0 ∉ run) :
    0 ∉ block run := by
  simp only [block, List.mem_cons, not_or]
  exact ⟨(code_ne_zero h).symm, hz⟩

/-- A block is a body without zeros and a zero. -/
theorem stuffFrom_terminated (run data : List UInt8) (h : run.length < fullRun) (hz : 0 ∉ run) :
    ∃ body, stuffFrom run data = body ++ [0] ∧ 0 ∉ body := by
  induction data generalizing run with
  | nil => exact ⟨block run, rfl, zero_not_mem_block (Nat.le_of_lt h) hz⟩
  | cons b rest ih =>
    rw [stuffFrom]
    split
    · obtain ⟨body, hbody, hfree⟩ := ih [] (by simp [fullRun]) (by simp)
      refine ⟨block run ++ body, by simp [hbody], ?_⟩
      simp [zero_not_mem_block (Nat.le_of_lt h) hz, hfree]
    · next hb =>
      have hz' : 0 ∉ run ++ [b] := by simp [hz, Ne.symm hb]
      split
      · next hrun =>
        have hblock : 0 ∉ block (run ++ [b]) := zero_not_mem_block (by simp [hrun]) hz'
        cases rest with
        | nil => exact ⟨block (run ++ [b]), by simp, hblock⟩
        | cons c rest =>
          obtain ⟨body, hbody, hfree⟩ := ih [] (by simp [fullRun]) (by simp)
          refine ⟨block (run ++ [b]) ++ body, by simp [hbody], ?_⟩
          simp [hblock, hfree]
      · exact ih (run ++ [b]) (by simp; omega) hz'

theorem stuff_terminated (data : List UInt8) : ∃ body, stuff data = body ++ [0] ∧ 0 ∉ body :=
  stuffFrom_terminated [] data (by simp [fullRun]) (by simp)

end FaultBench.Wire.Stuffing
