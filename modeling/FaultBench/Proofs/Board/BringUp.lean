import FaultBench.Board.BringUp
import FaultBench.Proofs.Board.Effects
import Mathlib.Algebra.Order.Group.Abs
import Mathlib.Algebra.Order.Group.Int

/-! Bringing up the board ends once the external clock answers, and sets the fields that are listed
here and no other bit. The trigger is driven low before its pin can become an output. -/
namespace FaultBench.Board
open FaultBench.Board.Action

/-! ### Fields -/

/-- Consecutive bits of a register. -/
structure Field where
  register : Register
  low : ℕ
  width : ℕ
  deriving DecidableEq, Repr

namespace Field

def Covers (f : Field) (r : Register) (i : ℕ) : Prop :=
  r = f.register ∧ f.low ≤ i ∧ i < f.low + f.width

instance (f : Field) (r : Register) (i : ℕ) : Decidable (f.Covers r i) :=
  inferInstanceAs (Decidable (_ ∧ _ ∧ _))

def read (f : Field) (m : Registers) : ℕ := (m.read f.register).toNat / 2 ^ f.low % 2 ^ f.width

/-- The field of a pin where each pin has two bits. -/
def ofPin (r : Register) (pin : ℕ) : Field := ⟨r, 2 * pin, 2⟩

/-- The alternate function of a pin of port A, from the eighth pin on. -/
def alternate (pin : ℕ) : Field := ⟨.gpioAAlternate, 4 * (pin - 8), 4⟩

lemma testBit_read (f : Field) (m : Registers) (j : ℕ) :
    (f.read m).testBit j = (decide (j < f.width) && m.bitAt f.register (f.low + j)) := by
  rw [read, Nat.testBit_mod_two_pow, Nat.testBit_div_two_pow, Nat.add_comm j]
  rfl

lemma read_eq {f : Field} {m : Registers} {n : ℕ} (hn : n < 2 ^ f.width)
    (h : ∀ j < f.width, m.bitAt f.register (f.low + j) = n.testBit j) : f.read m = n := by
  apply Nat.eq_of_testBit_eq
  intro j
  rw [testBit_read]
  by_cases hj : j < f.width
  · rw [decide_eq_true hj, Bool.true_and, h j hj]
  · rw [decide_eq_false hj, Bool.false_and]
    have hfits : n < 2 ^ j :=
      hn.trans_le (Nat.pow_le_pow_right Nat.zero_lt_two (not_lt.mp hj))
    exact (Nat.testBit_lt_two_pow hfits).symm

end Field

/-- The fields that are set, each with what it holds in the end. -/
def settings : List (Field × ℕ) :=
  [ -- The external clock is on, without an oscillator of its own, and drives the system.
    (⟨.clockControl, 16, 1⟩, 1), (⟨.clockControl, 18, 1⟩, 1), (⟨.clockConfig, 0, 2⟩, 0b01),
    -- The two ports and the serial line are clocked.
    (⟨.ahbEnable, 0, 1⟩, 1), (⟨.ahbEnable, 2, 1⟩, 1), (⟨.apbEnable, 4, 1⟩, 1),
    -- The trigger is an output, pulled down and fast.
    (.ofPin .gpioAMode 12, 0b01), (.ofPin .gpioAPull 12, 0b10), (.ofPin .gpioASpeed 12, 0b10),
    -- Two pins belong to the serial line, and the one that receives is pulled up.
    (.ofPin .gpioAMode 9, 0b10), (.ofPin .gpioAMode 10, 0b10), (.ofPin .gpioAPull 10, 0b01),
    (.alternate 9, 7), (.alternate 10, 7),
    -- The indicators are outputs.
    (.ofPin .gpioCMode 13, 0b01), (.ofPin .gpioCMode 14, 0b01),
    -- The serial line is on, and both sends and receives.
    (⟨.serialControl, 0, 32⟩, 2 ^ 2 + 2 ^ 3 + 2 ^ 13)]

/-- Registers that are stored as a whole and hold no fields. -/
def unlisted : List Register := [.gpioASetReset, .gpioCSetReset, .serialDivisor]

/-- All that happens to the registers at a rate other than zero. -/
def setup (baud : UInt32) : List Action := pinSetup ++ serialSetup baud

/-! ### What the actions make of the bits -/

/-- The rate is of no matter except for the divisor. -/
lemma effects_setup (baud : UInt32) {r : Register} (h : r ≠ .serialDivisor) (i : ℕ) :
    effects (setup baud) r i = effects (setup 1) r i := by
  rw [setup, setup, effects_append, effects_append]
  simp only [serialSetup, effects, effect, if_neg h]

lemma effects_settings : ∀ s ∈ settings, s.1.register ≠ .serialDivisor ∧ s.2 < 2 ^ s.1.width ∧
    ∀ j < s.1.width, s.1.low + j < 32 ∧
      effects (setup 1) s.1.register (s.1.low + j) = some (s.2.testBit j) := by
  decide +kernel

lemma effects_others : ∀ r ∈ Register.all, ∀ i < 32, r ∉ unlisted →
    (∀ s ∈ settings, ¬ s.1.Covers r i) → effects (setup 1) r i = none := by
  decide +kernel

variable {m m' : Registers} {baud : UInt32}

lemma read_settings (h : runAll (setup baud) m = some m') :
    ∀ s ∈ settings, s.1.read m' = s.2 := by
  intro s hs
  obtain ⟨hregister, hvalue, hbits⟩ := effects_settings s hs
  refine Field.read_eq hvalue fun j hj => ?_
  obtain ⟨hlow, heffect⟩ := hbits j hj
  rw [bitAt_runAll h _ hlow, effects_setup baud hregister, heffect, Option.getD_some]

lemma bitAt_others (h : runAll (setup baud) m = some m') {r : Register} {i : ℕ} (hi : i < 32)
    (hr : r ∉ unlisted) (hs : ∀ s ∈ settings, ¬ s.1.Covers r i) : m'.bitAt r i = m.bitAt r i := by
  have hdivisor : r ≠ .serialDivisor := by
    rintro rfl
    exact hr (by decide)
  rw [bitAt_runAll h r hi, effects_setup baud hdivisor,
    effects_others r r.mem_all i hi hr hs, Option.getD_none]

/-! ### The clock -/

/-- The external clock answers and drives the system. -/
structure Clocked (m : Registers) : Prop where
  ready : m.bitAt .clockControl 17 = true
  selected : Field.read ⟨.clockConfig, 2, 2⟩ m = 0b01

lemma and_eq_of_bits {value mask bits : UInt32}
    (h : ∀ i < 32, (value.toBitVec.getLsbD i && mask.toBitVec.getLsbD i) = bits.toBitVec.getLsbD i) :
    value &&& mask = bits := by
  rw [← UInt32.toBitVec_inj, UInt32.toBitVec_and]
  apply BitVec.eq_of_getLsbD_eq
  intro i hi
  rw [BitVec.getLsbD_and, h i hi]

lemma Clocked.read_ready (h : Clocked m) : m.read .clockControl &&& bit 17 = bit 17 := by
  apply and_eq_of_bits
  intro i hi
  by_cases h17 : i = 17
  · subst h17
    have hbit : (m.read .clockControl).toBitVec.getLsbD 17 = true := h.ready
    rw [hbit, Bool.true_and]
  · have hmask : ∀ i < 32, i ≠ 17 → (bit 17).toBitVec.getLsbD i = false := by decide
    rw [hmask i hi h17, Bool.and_false]

lemma Clocked.read_selected (h : Clocked m) : m.read .clockConfig &&& 0xC = 0x4 := by
  have hfield (j : ℕ) := Field.testBit_read ⟨.clockConfig, 2, 2⟩ m j
  rw [h.selected] at hfield
  have h2 : (m.read .clockConfig).toBitVec.getLsbD 2 = true := (hfield 0).symm
  have h3 : (m.read .clockConfig).toBitVec.getLsbD 3 = false := (hfield 1).symm
  apply and_eq_of_bits
  intro i hi
  by_cases hi2 : i = 2
  · rw [hi2, h2]
    rfl
  · by_cases hi3 : i = 3
    · rw [hi3, h3]
      rfl
    · have hmasks : ∀ i < 32, i ≠ 2 → i ≠ 3 → (0xC : UInt32).toBitVec.getLsbD i = false ∧
          (0x4 : UInt32).toBitVec.getLsbD i = false := by decide
      rw [(hmasks i hi hi2 hi3).1, (hmasks i hi hi2 hi3).2, Bool.and_false]

/-- Both polls are for bits that nothing before them touches. -/
lemma Clocked.exists_runAll (h : Clocked m) (baud : UInt32) :
    ∃ m', runAll (setup baud) m = some m' := by
  let enable : List Action :=
    [.modify .clockControl 0 (bit 18), .modify .clockControl 0 (bit 16)]
  let switch : List Action := [.modify .clockConfig 3 1]
  let behind : List Action := [.modify .ahbEnable 0 0x5, .modify .apbEnable 0 (bit 4)] ++
    triggerSetup ++ serialPinSetup ++ indicatorSetup ++ serialSetup baud
  have hsetup : setup baud = enable ++ .await .clockControl (bit 17) (bit 17) ::
      (switch ++ .await .clockConfig 0xC 0x4 :: behind) := rfl
  have henable : enable.any Action.polls = false := rfl
  have hswitch : switch.any Action.polls = false := rfl
  have hbehind : behind.any Action.polls = false := rfl
  obtain ⟨n, hn⟩ := Action.exists_runAll henable m
  obtain ⟨k, hk⟩ := Action.exists_runAll hswitch n
  obtain ⟨m', hm⟩ := Action.exists_runAll hbehind k
  have hready : n.read .clockControl &&& bit 17 = bit 17 :=
    (read_and_of_untouched hn (by decide +kernel)).trans h.read_ready
  have hselected : k.read .clockConfig &&& 0xC = 0x4 := by
    rw [read_and_of_untouched hk (by decide +kernel), read_and_of_untouched hn (by decide +kernel)]
    exact h.read_selected
  refine ⟨m', ?_⟩
  rw [hsetup, runAll_append, hn, Option.bind_some, runAll_await hready, runAll_append, hk,
    Option.bind_some, runAll_await hselected, hm]

/-- Bringing up ends and carries out all actions. -/
lemma Clocked.bringUp_eq (h : Clocked m) (hbaud : baud ≠ 0) :
    ∃ m', bringUp baud m = .ready m' ∧ runAll (setup baud) m = some m' := by
  obtain ⟨m', hm⟩ := h.exists_runAll baud
  have hrun := hm
  rw [setup, runAll_append] at hrun
  obtain ⟨n, hpins, hserial⟩ := Option.bind_eq_some_iff.mp hrun
  refine ⟨m', ?_, hm⟩
  simp only [bringUp, hpins, if_neg hbaud, hserial]

/-! ### The rate of the serial line -/

/-- The sum under the quotient is within a word. -/
lemma clockRate_add_lt (baud : UInt32) : clockRate.toNat + (baud / 2).toNat < 2 ^ 32 := by
  have hbaud : baud.toNat < 2 ^ 32 := baud.toNat_lt
  have hrate : clockRate.toNat = 7372800 := rfl
  have htwo : (2 : UInt32).toNat = 2 := rfl
  rw [UInt32.toNat_div, hrate, htwo]
  omega

lemma toNat_divisor (baud : UInt32) :
    (divisor baud).toNat = (7372800 + baud.toNat / 2) / baud.toNat := by
  rw [divisor, UInt32.toNat_div, UInt32.toNat_add, Nat.mod_eq_of_lt (clockRate_add_lt baud)]
  rfl

lemma toNat_pos (hbaud : baud ≠ 0) : 0 < baud.toNat := by
  rw [Nat.pos_iff_ne_zero, ne_eq, ← UInt32.toNat_zero, UInt32.toNat_inj]
  exact hbaud

/-- The divisor times the rate is as near to the clock rate as it can be. -/
lemma divisor_nearest (hbaud : baud ≠ 0) :
    |2 * (((divisor baud).toNat : ℤ) * baud.toNat - 7372800)| ≤ baud.toNat := by
  have hdiv := Nat.div_add_mod (7372800 + baud.toNat / 2) baud.toNat
  have hmod := Nat.mod_lt (7372800 + baud.toNat / 2) (toNat_pos hbaud)
  rw [← toNat_divisor, Nat.mul_comm] at hdiv
  rw [← Int.natCast_mul, abs_le]
  constructor <;> omega

/-! ### The trigger -/

lemma stores_trigger {value : UInt32} (h : (.gpioASetReset, value) ∈ stores (setup baud) m) :
    value = 0x10000000 := by
  obtain ⟨a, ha, n, hstored⟩ := exists_of_mem_stores h
  have htarget := target?_of_stored hstored
  have hpins : ∀ a ∈ pinSetup, a.target? = some .gpioASetReset →
      a = .store .gpioASetReset 0x10000000 := by decide
  have hserial : ∀ a ∈ serialSetup baud, a.target? ≠ some .gpioASetReset := by
    simp [serialSetup, target?]
  obtain ha | ha := List.mem_append.mp ha
  · rw [hpins a ha htarget] at hstored
    cases hstored
    rfl
  · exact absurd htarget (hserial a ha)

/-- What comes before the trigger is driven low leaves the modes of the pins alone. -/
lemma stores_setup (h : runAll (setup baud) m = some m') :
    ∃ before after : List (Register × UInt32),
      stores (setup baud) m = before ++ (.gpioASetReset, 0x10000000) :: after ∧
      ∀ s ∈ before, s.1 ≠ .gpioAMode := by
  have hsetup : setup baud = clockSetup ++ (triggerSetup ++ serialPinSetup ++ indicatorSetup ++
      serialSetup baud) := by simp only [setup, pinSetup, List.append_assoc]
  rw [hsetup, runAll_append] at h
  obtain ⟨n, hclock, -⟩ := Option.bind_eq_some_iff.mp h
  refine ⟨stores clockSetup m, (stores (triggerSetup ++ serialPinSetup ++ indicatorSetup ++
    serialSetup baud) n).tail, ?_, fun s hs hmode => ?_⟩
  · rw [hsetup, stores_append hclock]
    rfl
  · obtain ⟨a, ha, k, hstored⟩ := exists_of_mem_stores hs
    have htargets : ∀ a ∈ clockSetup, a.target? ≠ some .gpioAMode := by decide
    exact htargets a ha ((target?_of_stored hstored).trans (congrArg some hmode))

/-- What bringing up makes of the registers. -/
structure BroughtUp (baud : UInt32) (m m' : Registers) : Prop where
  set : ∀ s ∈ settings, s.1.read m' = s.2
  unchanged {r : Register} {i : ℕ} (hi : i < 32) (hr : r ∉ unlisted)
    (hs : ∀ s ∈ settings, ¬ s.1.Covers r i) : m'.bitAt r i = m.bitAt r i
  /-- These are all the stores, in their order. -/
  stored : m' = (stores (setup baud) m).foldl (fun m s => m.store s.1 s.2) m
  /-- The trigger is driven low, by bit 28 alone, before any mode of its port is stored. -/
  lowFirst : ∃ before after : List (Register × UInt32),
    stores (setup baud) m = before ++ (.gpioASetReset, 0x10000000) :: after ∧
    ∀ s ∈ before, s.1 ≠ .gpioAMode
  neverHigh {value : UInt32} (h : (.gpioASetReset, value) ∈ stores (setup baud) m) :
    value.toBitVec.getLsbD 12 = false
  divisor : (m'.read .serialDivisor).toNat = (7372800 + baud.toNat / 2) / baud.toNat
  inWord : clockRate.toNat + (baud / 2).toNat < 2 ^ 32
  nearest : |2 * (((m'.read .serialDivisor).toNat : ℤ) * baud.toNat - 7372800)| ≤ baud.toNat

lemma read_divisor (h : runAll (setup baud) m = some m') :
    m'.read .serialDivisor = divisor baud := by
  rw [setup, runAll_append] at h
  obtain ⟨n, -, hserial⟩ := Option.bind_eq_some_iff.mp h
  cases hserial
  rfl

/-- With a clock that answers bringing up ends, sets its fields and leaves every other bit as it
was. -/
theorem bringUp_sets_fields (h : Clocked m) (hbaud : baud ≠ 0) :
    ∃ m', bringUp baud m = .ready m' ∧ BroughtUp baud m m' := by
  obtain ⟨m', hready, hrun⟩ := h.bringUp_eq hbaud
  refine ⟨m', hready, read_settings hrun, bitAt_others hrun, runAll_eq_stores hrun,
    stores_setup hrun, fun hstored => ?_, ?_, clockRate_add_lt baud, ?_⟩
  · rw [stores_trigger hstored]
    rfl
  · rw [read_divisor hrun, toNat_divisor]
  · rw [read_divisor hrun]
    exact divisor_nearest hbaud

/-- Registers full of ones, as far as the clock allows. A pin between two that are set up keeps its
mode. -/
theorem bringUp_sets_fields_ones :
    let m : Registers := ⟨fun r => if r = .clockConfig then 0xFFFFFFF7 else 0xFFFFFFFF⟩
    Clocked m ∧ (38400 : UInt32) ≠ 0 ∧ ∃ m', bringUp 38400 m = .ready m' ∧
      (Field.ofPin .gpioAMode 12).read m' = 0b01 ∧ (Field.ofPin .gpioAMode 10).read m' = 0b10 ∧
      m'.bitAt .gpioAMode 22 = true ∧ (m'.read .serialDivisor).toNat = 192 := by
  intro m
  have hclock : Clocked m := ⟨by decide +kernel, by decide +kernel⟩
  have hbaud : (38400 : UInt32) ≠ 0 := by decide
  obtain ⟨m', hready, hup⟩ := bringUp_sets_fields hclock hbaud
  refine ⟨hclock, hbaud, m', hready, hup.set (.ofPin .gpioAMode 12, 0b01) (by decide),
    hup.set (.ofPin .gpioAMode 10, 0b10) (by decide), ?_, hup.divisor⟩
  have hkept := hup.unchanged (r := .gpioAMode) (i := 22) (by decide) (by decide) (by decide)
  exact hkept.trans (by decide +kernel)

end FaultBench.Board
