import FaultBench.Proofs.Host.Listening

/-! Reads that fail for a time, and pauses of the line, have no part in what is heard but for the
time that they take: they are left out of what the reads bring, and move the times at which other
reads are begun. -/
namespace FaultBench.Host
open Wire

/-- What the reads of some items bring, each with the time at which it is begun; `begun` is the
time of one that goes on. A read that fails for a time brings nothing. -/
def brought (byteTime clock : ℕ) (begun : Option ℕ) :
    List Arrival → List (ℕ × Except LinkError UInt8)
  | [] => []
  | .stall time :: rest => brought byteTime (clock + time) none rest
  | .pause time :: rest => brought byteTime (clock + time) (some (begun.getD clock)) rest
  | .byte b :: rest =>
    (begun.getD clock, .ok b) :: brought byteTime (clock + byteTime) none rest
  | .hangUp :: rest => (begun.getD clock, .error .closed) :: brought byteTime clock none rest
  | .failure e :: rest =>
    (begun.getD clock, .error (.readFailed e)) :: brought byteTime clock none rest

/-- No read is begun before the first one. -/
lemma le_of_mem_brought {byteTime clock : ℕ} {begun : Option ℕ} {items : List Arrival}
    (h : begun.getD clock ≤ clock) :
    ∀ x ∈ brought byteTime clock begun items, begun.getD clock ≤ x.1 := by
  induction items generalizing clock begun with
  | nil => nofun
  | cons item items ih =>
    -- Behind a read that has ended the next one is begun later.
    have hlater (time : ℕ) : ∀ x ∈ brought byteTime (clock + time) none items,
        begun.getD clock ≤ x.1 := by
      intro x hx
      have hlater : clock + time ≤ x.1 :=
        ih (show none.getD (clock + time) ≤ clock + time from Nat.le_refl _) x hx
      omega
    cases item with
    | stall time => exact hlater time
    | pause time =>
      exact ih (show (some (begun.getD clock)).getD (clock + time) ≤ clock + time from
        Nat.le_add_right_of_le h)
    | byte b => exact List.forall_mem_cons.mpr ⟨Nat.le_refl _, hlater byteTime⟩
    | hangUp => exact List.forall_mem_cons.mpr ⟨Nat.le_refl _, hlater 0⟩
    | failure e => exact List.forall_mem_cons.mpr ⟨Nat.le_refl _, hlater 0⟩

/-- Listening to what reads bring: its result, what is pending behind it, and what is left. -/
def hearing (wanted : Packet → Bool) (deadline : ℕ) (a : Assembler) :
    List (ℕ × Except LinkError UInt8) →
      Except LinkError (Option Packet) × Assembler × List (ℕ × Except LinkError UInt8)
  | [] => (.ok none, a, [])
  | (begun, found) :: rest =>
    if deadline ≤ begun then (.ok none, a, (begun, found) :: rest)
    else
      match found with
      | .error e => (.error e, a, rest)
      | .ok b =>
        match a.push b with
        | (some (.ok p), a) =>
          if wanted p then (.ok (some p), a, rest) else hearing wanted deadline a rest
        | (_, a) => hearing wanted deadline a rest

lemma hearing_of_late {wanted : Packet → Bool} {deadline : ℕ} {a : Assembler}
    {items : List (ℕ × Except LinkError UInt8)} (h : ∀ x ∈ items, deadline ≤ x.1) :
    hearing wanted deadline a items = (.ok none, a, items) := by
  cases items with
  | nil => rfl
  | cons x items =>
    obtain ⟨begun, found⟩ := x
    simp only [hearing, if_pos (h (begun, found) List.mem_cons_self)]

section Byte

variable {wanted : Packet → Bool} {deadline begun : ℕ} {a : Assembler} {b : UInt8}
  {items : List (ℕ × Except LinkError UInt8)}

lemma hearing_byte_of_some (hbegun : ¬ deadline ≤ begun) {p : Packet} {a' : Assembler}
    (hpush : a.push b = (some (.ok p), a')) (hw : wanted p) :
    hearing wanted deadline a ((begun, .ok b) :: items) = (.ok (some p), a', items) := by
  simp only [hearing, hbegun, if_false, hpush, hw, if_true]

lemma hearing_byte_of_none (hbegun : ¬ deadline ≤ begun)
    (h : ∀ p, (a.push b).1 = some (.ok p) → wanted p = false) :
    hearing wanted deadline a ((begun, .ok b) :: items) =
      hearing wanted deadline (a.push b).2 items := by
  simp only [hearing, hbegun, if_false]
  rcases hpush : a.push b with ⟨_ | _ | p, a'⟩
  · rfl
  · rfl
  · simp only [h p (by rw [hpush]), Bool.false_eq_true, if_false]

end Byte

namespace Link

/-- What is still to come on a link between two calls. -/
def coming (l : Link) : List (ℕ × Except LinkError UInt8) :=
  brought l.serial.byteTime l.serial.clock none l.serial.incoming

/-- What listening comes to follows from what the reads bring and when they are begun. -/
theorem listen_eq_hearing (wanted : Packet → Bool) (deadline : ℕ) (begun : Option ℕ) (s : Serial)
    (a : Assembler) (items : List Arrival) (hbegun : ∀ t ∈ begun, t < deadline ∧ t ≤ s.clock) :
    let r := listen wanted deadline begun.isSome s a items
    (r.result, r.link.assembler, r.link.coming) =
      hearing wanted deadline a (brought s.byteTime s.clock begun items) := by
  induction items generalizing begun s a with
  | nil => rfl
  | cons x items ih =>
    cases hopen : !begun.isSome && decide (deadline ≤ s.clock) with
    | true =>
      obtain rfl : begun = none := by cases begun <;> simp at hopen ⊢
      have hlate : deadline ≤ s.clock := by simpa using hopen
      simp only [listen, hopen, if_true]
      refine (hearing_of_late fun y hy => ?_).symm
      have hbegun : none.getD s.clock ≤ s.clock := Nat.le_refl _
      exact Nat.le_trans hlate (le_of_mem_brought hbegun y hy)
    | false =>
      have hlt : ¬ deadline ≤ begun.getD s.clock := by
        cases begun <;> simp at hopen hbegun ⊢ <;> omega
      cases x with
      | stall time =>
        simp only [listen, hopen, Bool.false_eq_true, if_false]
        exact ih none { s with clock := s.clock + time } a fun _ h => by cases h
      | pause time =>
        simp only [listen, hopen, Bool.false_eq_true, if_false]
        refine ih (some (begun.getD s.clock)) { s with clock := s.clock + time } a ?_
        intro t ht
        cases begun <;> simp at hopen hbegun ht ⊢ <;> omega
      | hangUp =>
        simp only [listen, hopen, Bool.false_eq_true, if_false, brought, hearing, hlt]
        rfl
      | failure e =>
        simp only [listen, hopen, Bool.false_eq_true, if_false, brought, hearing, hlt]
        rfl
      | byte b =>
        have hlater := ih none { s with clock := s.clock + s.byteTime } (a.push b).2
          fun _ h => by cases h
        rw [brought]
        dsimp only
        by_cases hb : ∃ p, (a.push b).1 = some (.ok p) ∧ wanted p
        · obtain ⟨p, hp, hw⟩ := hb
          have hpush : a.push b = (some (.ok p), (a.push b).2) := Prod.ext hp rfl
          obtain ⟨hresult, hlink⟩ := listen_byte_of_some wanted items hopen hpush hw
          rw [hresult, hlink, hearing_byte_of_some hlt hpush hw, push_eq_some hpush]
          rfl
        · have hunwanted : ∀ p, (a.push b).1 = some (.ok p) → wanted p = false := by simpa using hb
          obtain ⟨hresult, hlink⟩ := listen_byte_of_none wanted items hopen hunwanted
          rw [hresult, hlink, hearing_byte_of_none hlt hunwanted]
          exact hlater

/-- The same bytes of a frame are pending, and the same is still to come. -/
structure Alike (l l' : Link) : Prop where
  pending : l.assembler = l'.assembler
  coming : l.coming = l'.coming

/-- A read that fails for a time is its time. -/
lemma alike_stall (s : Serial) (a : Assembler) (time : ℕ) (items : List Arrival) :
    Alike ⟨{ s with incoming := .stall time :: items }, a⟩
      ⟨{ s with clock := s.clock + time, incoming := items }, a⟩ :=
  ⟨rfl, rfl⟩

/-- Two links that are alike hear the same up to the same time, and are alike then. -/
theorem Alike.hears {l l' : Link} (h : l.Alike l') (wanted : Packet → Bool) (deadline : ℕ) :
    let r := listen wanted deadline false l.serial l.assembler l.serial.incoming
    let r' := listen wanted deadline false l'.serial l'.assembler l'.serial.incoming
    r.result = r'.result ∧ r.link.Alike r'.link := by
  have hl := listen_eq_hearing wanted deadline none l.serial l.assembler l.serial.incoming nofun
  have hl' := listen_eq_hearing wanted deadline none l'.serial l'.assembler l'.serial.incoming nofun
  have hsame : hearing wanted deadline l.assembler l.coming =
      hearing wanted deadline l'.assembler l'.coming := by rw [h.pending, h.coming]
  obtain ⟨hresult, hrest⟩ := Prod.mk.inj (hl.trans (hsame.trans hl'.symm))
  obtain ⟨hpending, hcoming⟩ := Prod.mk.inj hrest
  exact ⟨hresult, hpending, hcoming⟩

end Link
end FaultBench.Host
