import FaultBench.Board.Register
import Mathlib.Data.Nat.Bitwise
import Mathlib.Tactic.Common

/-! What a sequence of actions makes of each bit of the registers. An action leaves a bit alone or
gives it a value, whatever it was before, so a run is described bit by bit by the last action that
touches it; and a poll ends if nothing before it touches the bits that it waits for. -/
namespace FaultBench.Board

/-- A bit of a register, counted from the lowest. -/
def Registers.bitAt (m : Registers) (r : Register) (i : ℕ) : Bool := (m.read r).toBitVec.getLsbD i

namespace Action

/-- What an action makes of a bit, if it touches it. -/
def effect : Action → Register → ℕ → Option Bool
  | .store r value, s, i => if s = r then some (value.toBitVec.getLsbD i) else none
  | .modify r clear set, s, i =>
    if s = r then
      if set.toBitVec.getLsbD i then some true
      else if clear.toBitVec.getLsbD i then some false
      else none
    else none
  | .await _ _ _, _, _ => none

/-- What a sequence of actions makes of a bit: the last one that touches it decides. -/
def effects : List Action → Register → ℕ → Option Bool
  | [], _, _ => none
  | a :: later, r, i => (effects later r i).or (a.effect r i)

def polls : Action → Bool
  | .await _ _ _ => true
  | _ => false

/-- The register that an action stores to. -/
def target? : Action → Option Register
  | .store r _ => some r
  | .modify r _ _ => some r
  | .await _ _ _ => none

/-- The stores of a run in their order. A modification stores the register as a whole. -/
def stores : List Action → Registers → List (Register × UInt32)
  | [], _ => []
  | a :: rest, m => (a.stored? m).toList ++ ((a.run m).map (stores rest)).getD []

variable {a : Action} {actions later : List Action} {m m' : Registers} {r : Register} {i : ℕ}

/-! ### One action -/

lemma run_eq_some_iff : a.run m = some m' ↔
    a.ends m = true ∧ m' = (a.stored? m).toList.foldl (fun m s => m.store s.1 s.2) m := by
  rw [run]
  cases a.stored? m <;> cases a.ends m <;> simp [eq_comm]

lemma bitAt_store (r s : Register) (value : UInt32) (i : ℕ) :
    (m.store r value).bitAt s i = if s = r then value.toBitVec.getLsbD i else m.bitAt s i := by
  by_cases h : s = r
  · rw [if_pos h, h, Registers.bitAt, Registers.read_store_self]
  · rw [if_neg h, Registers.bitAt, Registers.read_store_of_ne m value h, Registers.bitAt]

lemma getLsbD_modified (value clear set : UInt32) (hi : i < 32) :
    (value &&& ~~~ clear ||| set).toBitVec.getLsbD i =
      (set.toBitVec.getLsbD i ||
        (!clear.toBitVec.getLsbD i && value.toBitVec.getLsbD i)) := by
  rw [UInt32.toBitVec_or, UInt32.toBitVec_and, UInt32.toBitVec_not, BitVec.getLsbD_or,
    BitVec.getLsbD_and, BitVec.getLsbD_not, decide_eq_true hi, Bool.true_and, Bool.or_comm,
    Bool.and_comm]

theorem bitAt_run (h : a.run m = some m') (r : Register) (hi : i < 32) :
    m'.bitAt r i = (a.effect r i).getD (m.bitAt r i) := by
  obtain ⟨-, rfl⟩ := run_eq_some_iff.mp h
  cases a with
  | store s value =>
    simp only [stored?, Option.toList_some, List.foldl_cons, List.foldl_nil, bitAt_store, effect]
    split <;> rfl
  | modify s clear set =>
    simp only [stored?, Option.toList_some, List.foldl_cons, List.foldl_nil, bitAt_store, effect]
    by_cases hr : r = s
    · subst hr
      rw [if_pos rfl, if_pos rfl, getLsbD_modified _ _ _ hi]
      cases set.toBitVec.getLsbD i <;> cases clear.toBitVec.getLsbD i <;>
        simp [Registers.bitAt]
    · rw [if_neg hr, if_neg hr]
      rfl
  | await s mask value => rfl

/-! ### Runs -/

lemma runAll_append (actions later : List Action) (m : Registers) :
    runAll (actions ++ later) m = (runAll actions m).bind (runAll later) := by
  induction actions generalizing m with
  | nil => rfl
  | cons a actions ih =>
    rw [List.cons_append, runAll, runAll]
    cases a.run m with
    | none => rfl
    | some m => exact ih m

lemma effects_append (actions later : List Action) (r : Register) (i : ℕ) :
    effects (actions ++ later) r i = (effects later r i).or (effects actions r i) := by
  induction actions with
  | nil => rw [List.nil_append, effects, Option.or_none]
  | cons a actions ih => rw [List.cons_append, effects, effects, ih, Option.or_assoc]

/-- After a run a bit is what the last action that touches it made of it. -/
theorem bitAt_runAll (h : runAll actions m = some m') (r : Register) (hi : i < 32) :
    m'.bitAt r i = (effects actions r i).getD (m.bitAt r i) := by
  induction actions generalizing m with
  | nil =>
    cases h
    rfl
  | cons a actions ih =>
    obtain ⟨n, hrun, hrest⟩ := Option.bind_eq_some_iff.mp h
    rw [ih hrest, bitAt_run hrun r hi, effects]
    cases effects actions r i <;> rfl

/-- A poll changes nothing, and ends if its bits are as it waits for them. -/
lemma runAll_await {mask value : UInt32} (h : m.read r &&& mask = value) (later : List Action) :
    runAll (.await r mask value :: later) m = runAll later m := by
  have hends : (await r mask value).ends m = true := decide_eq_true h
  rw [runAll, run, hends]
  rfl

/-- Only a poll can fail to end. -/
lemma exists_runAll (h : actions.any polls = false) (m : Registers) :
    ∃ m', runAll actions m = some m' := by
  induction actions generalizing m with
  | nil => exact ⟨m, rfl⟩
  | cons a actions ih =>
    rw [List.any_cons, Bool.or_eq_false_iff] at h
    have hends : a.ends m = true := by
      cases a with
      | await r mask value => cases h.1
      | _ => rfl
    have hrun : a.run m = some _ := run_eq_some_iff.mpr ⟨hends, rfl⟩
    obtain ⟨m', hm⟩ := ih h.2 _
    exact ⟨m', by rw [runAll, hrun, Option.bind_some, hm]⟩

/-- Bits that a run does not touch are still there for a poll. -/
lemma read_and_of_untouched (h : runAll actions m = some m') {mask : UInt32}
    (hmask : ∀ i < 32, mask.toBitVec.getLsbD i = true → effects actions r i = none) :
    m'.read r &&& mask = m.read r &&& mask := by
  rw [← UInt32.toBitVec_inj, UInt32.toBitVec_and, UInt32.toBitVec_and]
  apply BitVec.eq_of_getLsbD_eq
  intro i hi
  rw [BitVec.getLsbD_and, BitVec.getLsbD_and]
  cases hbit : mask.toBitVec.getLsbD i with
  | false => rw [Bool.and_false, Bool.and_false]
  | true =>
    have hsame := bitAt_runAll h r hi
    rw [hmask i hi hbit] at hsame
    rw [Bool.and_true, Bool.and_true]
    exact hsame

/-- The stores of a run, carried out one after the other, come to the same registers. -/
theorem runAll_eq_stores (h : runAll actions m = some m') :
    m' = (stores actions m).foldl (fun m s => m.store s.1 s.2) m := by
  induction actions generalizing m with
  | nil =>
    cases h
    rfl
  | cons a actions ih =>
    obtain ⟨n, hrun, hrest⟩ := Option.bind_eq_some_iff.mp h
    rw [stores, hrun, List.foldl_append, ← (run_eq_some_iff.mp hrun).2]
    exact ih hrest

lemma stores_append (h : runAll actions m = some m') (later : List Action) :
    stores (actions ++ later) m = stores actions m ++ stores later m' := by
  induction actions generalizing m with
  | nil =>
    cases h
    rfl
  | cons a actions ih =>
    obtain ⟨n, hrun, hrest⟩ := Option.bind_eq_some_iff.mp h
    rw [List.cons_append, stores, stores, hrun, List.append_assoc]
    exact congrArg _ (ih hrest)

lemma target?_of_stored {s : Register × UInt32} (h : a.stored? m = some s) :
    a.target? = some s.1 := by
  cases a <;> cases h <;> rfl

/-- A store of a run is made by one of its actions. -/
lemma exists_of_mem_stores {actions : List Action} {s : Register × UInt32}
    (h : s ∈ stores actions m) : ∃ a ∈ actions, ∃ n, a.stored? n = some s := by
  induction actions generalizing m with
  | nil => cases h
  | cons a actions ih =>
    rw [stores, List.mem_append, Option.mem_toList] at h
    obtain hhere | hlater := h
    · exact ⟨a, List.mem_cons_self, m, hhere⟩
    · cases hrun : a.run m with
      | none =>
        rw [hrun] at hlater
        cases hlater
      | some n =>
        rw [hrun] at hlater
        obtain ⟨b, hb, hstored⟩ := ih hlater
        exact ⟨b, List.mem_cons_of_mem a hb, hstored⟩

end Action
end FaultBench.Board
