import FaultBench.Proofs.Board.BringUp
import FaultBench.Proofs.Profile.Validation

/-! The divisor that a board gets from a valid profile. Validation keeps the rate zero away and no
other, but the register of the divisor has sixteen bits and the line samples every bit sixteen
times, so most rates that are valid are out of its reach on one side or the other. -/
namespace FaultBench

namespace Board

/-- The register holds the divisor as it is, and the line has time for its samples. -/
def Usable (divisor : ℕ) : Prop := 16 ≤ divisor ∧ divisor ≤ 65535

instance (divisor : ℕ) : Decidable (Usable divisor) := inferInstanceAs (Decidable (_ ∧ _))

variable {baud : UInt32}

/-- A divisor that does not fit its register. -/
lemma divisor_overflows_iff (hbaud : baud ≠ 0) :
    65535 < (divisor baud).toNat ↔ baud.toNat < 113 := by
  have hpos := toNat_pos hbaud
  rw [toNat_divisor, ← Nat.succ_le_iff, Nat.le_div_iff_mul_le hpos]
  omega

/-- The least and the greatest rate with a usable divisor. -/
lemma usable_divisor_iff (hbaud : baud ≠ 0) :
    Usable (divisor baud).toNat ↔ 113 ≤ baud.toNat ∧ baud.toNat ≤ 475664 := by
  have hfits := (divisor_overflows_iff hbaud).not
  rw [not_lt, not_lt] at hfits
  rw [Usable, hfits, toNat_divisor, Nat.le_div_iff_mul_le (toNat_pos hbaud)]
  omega

lemma divisor_eq_zero_iff (hbaud : baud ≠ 0) :
    (divisor baud).toNat = 0 ↔ 14745600 < baud.toNat := by
  have hpos := toNat_pos hbaud
  rw [toNat_divisor, Nat.div_eq_zero_iff_lt hpos]
  omega

end Board

namespace Profile

variable {p : Profile}

lemma validate_of_rules (h : ∀ r ∈ p.rules, r.1 = true) : p.validate = .ok () := by
  have hnone : (p.rules.find? fun r => !r.1) = none := by simpa using h
  rw [validate, hnone]

lemma baud_of_validate (h : p.validate = .ok ()) : p.serial.baud ≠ 0 := by
  have hrules := rule_of_validate h
  simp only [rules, List.forall_mem_cons, decide_eq_true_eq] at hrules
  exact hrules.2.2.2.2.2.2.2.2.2.1

/-- Every other rate than zero is as valid as the one that a valid profile has. -/
lemma validate_baud (h : p.validate = .ok ()) {baud : UInt32} (hbaud : baud ≠ 0) :
    { p with serial := { baud } }.validate = .ok () := by
  have hrules := rule_of_validate h
  apply validate_of_rules
  simp only [rules, List.forall_mem_cons, decide_eq_true_eq] at hrules ⊢
  obtain ⟨hschema, hloop, hcount, hsize, hsource, hdestination, hlimit, hdiffer, hsteps, -⟩ :=
    hrules
  exact ⟨hschema, hloop, hcount, hsize, hsource, hdestination, hlimit, hdiffer, hsteps, hbaud,
    by simp⟩

end Profile

namespace Firmware
open Board

/-- At the lowest rate that is valid the divisor takes more than its register has, and at the highest
it is zero. -/
theorem divisor_out_of_register :
    let clocked : Registers := Registers.cleared.store .clockControl 0x20000 |>.store .clockConfig 4
    let slowest : Profile := { serial := { baud := 1 } }
    let fastest : Profile := { serial := { baud := 0xFFFFFFFF } }
    slowest.validate = .ok () ∧ fastest.validate = .ok () ∧
      (∃ m', bringUp slowest.serial.baud clocked = .ready m' ∧
        (m'.read .serialDivisor).toNat = 7372800) ∧
      ∃ m', bringUp fastest.serial.baud clocked = .ready m' ∧
        (m'.read .serialDivisor).toNat = 0 := by
  intro clocked slowest fastest
  have hclocked : Clocked clocked := ⟨by decide +kernel, by decide +kernel⟩
  have hdefault : ({} : Profile).validate = .ok () := by decide +kernel
  have hbrought (baud : UInt32) (hbaud : baud ≠ 0) : ∃ m', bringUp baud clocked = .ready m' ∧
      (m'.read .serialDivisor).toNat = (divisor baud).toNat := by
    obtain ⟨m', hready, hrun⟩ := hclocked.bringUp_eq hbaud
    exact ⟨m', hready, congrArg _ (read_divisor hrun)⟩
  exact ⟨Profile.validate_baud hdefault (by decide), Profile.validate_baud hdefault (by decide),
    hbrought 1 (by decide), hbrought 0xFFFFFFFF (by decide)⟩

/-- Of all rates that are valid those from 113 to 475664 get a usable divisor; below them it does
not fit its register, and far above them it is zero. -/
theorem divisor_usable_iff {p : Profile} (hp : p.validate = .ok ()) {m : Registers}
    (hm : Clocked m) :
    ∃ m', bringUp p.serial.baud m = .ready m' ∧
      let divisor := (m'.read .serialDivisor).toNat
      (Usable divisor ↔ 113 ≤ p.serial.baud.toNat ∧ p.serial.baud.toNat ≤ 475664) ∧
      (65535 < divisor ↔ p.serial.baud.toNat < 113) ∧
      (divisor = 0 ↔ 14745600 < p.serial.baud.toNat) ∧
      ∀ baud ≠ 0, { p with serial := { baud } }.validate = .ok () := by
  have hbaud := Profile.baud_of_validate hp
  obtain ⟨m', hready, hrun⟩ := hm.bringUp_eq hbaud
  refine ⟨m', hready, ?_⟩
  rw [read_divisor hrun]
  exact ⟨usable_divisor_iff hbaud, divisor_overflows_iff hbaud, divisor_eq_zero_iff hbaud,
    fun _ hother => Profile.validate_baud hp hother⟩

/-- The usual rate on a board whose registers are as after a reset, the clock apart. -/
theorem divisor_usable_iff_usual :
    let clocked : Registers := Registers.cleared.store .clockControl 0x20000 |>.store .clockConfig 4
    ({} : Profile).validate = .ok () ∧ Clocked clocked ∧
      ∃ m', bringUp 38400 clocked = .ready m' ∧ Usable (m'.read .serialDivisor).toNat := by
  intro clocked
  have hvalid : ({} : Profile).validate = .ok () := by decide +kernel
  have hclocked : Clocked clocked := ⟨by decide +kernel, by decide +kernel⟩
  obtain ⟨m', hready, husable, -⟩ := divisor_usable_iff hvalid hclocked
  exact ⟨hvalid, hclocked, m', hready, husable.mpr (by decide)⟩

end Firmware
end FaultBench
