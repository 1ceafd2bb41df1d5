import FaultBench.Host.Link
import FaultBench.Proofs.Wire.Stream

/-! Listening on a line that stays open: time decides whether a packet is heard, and the bytes alone
decide which. -/
namespace FaultBench.Host
open Wire

/-- The bytes that arrive. -/
def bytesOf (items : List Arrival) : List UInt8 :=
  items.filterMap fun
    | .byte b => some b
    | _ => none

/-- Reads may come late or fail for a time, but none finds the line closed or broken. -/
def Lossless (items : List Arrival) : Prop :=
  ∀ x ∈ items, x ≠ .hangUp ∧ ∀ e, x ≠ .failure e

lemma lossless_nil : Lossless [] := by simp [Lossless]

@[simp] lemma lossless_cons (x : Arrival) (items : List Arrival) :
    Lossless (x :: items) ↔ (x ≠ .hangUp ∧ ∀ e, x ≠ .failure e) ∧ Lossless items :=
  List.forall_mem_cons

@[simp] lemma lossless_append (a b : List Arrival) :
    Lossless (a ++ b) ↔ Lossless a ∧ Lossless b :=
  List.forall_mem_append

@[simp] lemma bytesOf_append (a b : List Arrival) : bytesOf (a ++ b) = bytesOf a ++ bytesOf b :=
  List.filterMap_append

lemma lossless_map_byte (bytes : List UInt8) : Lossless (bytes.map .byte) := by
  intro x hx
  obtain ⟨b, -, rfl⟩ := List.mem_map.mp hx
  simp

/-- The times at which packets are complete, on a clock that stands at `clock` before the first
arrival. -/
def packetTimes (byteTime clock : ℕ) (a : Assembler) : List Arrival → List ℕ
  | [] => []
  | .byte b :: rest =>
    match a.push b with
    | (some (.ok _), a) => (clock + byteTime) :: packetTimes byteTime (clock + byteTime) a rest
    | (_, a) => packetTimes byteTime (clock + byteTime) a rest
  | .stall time :: rest => packetTimes byteTime (clock + time) a rest
  | .pause time :: rest => packetTimes byteTime (clock + time) a rest
  | .hangUp :: rest => packetTimes byteTime clock a rest
  | .failure _ :: rest => packetTimes byteTime clock a rest

lemma packetTimes_of_packet (byteTime clock : ℕ) {a a' : Assembler} {b : UInt8} {p : Packet}
    (h : a.push b = (some (.ok p), a')) (items : List Arrival) :
    packetTimes byteTime clock a (.byte b :: items) =
      (clock + byteTime) :: packetTimes byteTime (clock + byteTime) a' items := by
  rw [packetTimes, h]

lemma packetTimes_of_no_packet (byteTime clock : ℕ) {a : Assembler} {b : UInt8}
    (h : ¬ ∃ p, (a.push b).1 = some (.ok p)) (items : List Arrival) :
    packetTimes byteTime clock a (.byte b :: items) =
      packetTimes byteTime (clock + byteTime) (a.push b).2 items := by
  rw [packetTimes]
  rcases hpush : a.push b with ⟨_ | _ | p, a'⟩
  · rfl
  · rfl
  · exact absurd ⟨p, by rw [hpush]⟩ h

lemma le_of_packetTimes {byteTime clock t : ℕ} {a : Assembler} {items : List Arrival} {ts : List ℕ}
    (h : packetTimes byteTime clock a items = t :: ts) : clock ≤ t := by
  induction items generalizing clock a with
  | nil => cases h
  | cons x items ih =>
    cases x with
    | byte b =>
      rw [packetTimes] at h
      split at h
      · cases h
        omega
      · have := ih h
        omega
    | stall time => have := ih h; omega
    | pause time => have := ih h; omega
    | hangUp => exact ih h
    | failure _ => exact ih h

/-- A packet among the bytes has its time. -/
lemma packetTimes_of_next (byteTime clock : ℕ) {a : Assembler} {items : List Arrival} {p : Packet}
    {more : List UInt8} (h : a.next (bytesOf items) = some (p, more)) :
    ∃ t ts, packetTimes byteTime clock a items = t :: ts := by
  induction items generalizing clock a with
  | nil => cases h
  | cons x items ih =>
    cases x with
    | byte b =>
      by_cases hb : ∃ q, (a.push b).1 = some (.ok q)
      · obtain ⟨q, hq⟩ := hb
        exact ⟨_, _, packetTimes_of_packet byteTime clock (Prod.ext hq rfl) items⟩
      · rw [packetTimes_of_no_packet byteTime clock hb]
        exact ih _ ((Assembler.next_of_no_packet hb _).symm.trans h)
    | stall time => exact ih _ h
    | pause time => exact ih _ h
    | hangUp => exact ih _ h
    | failure _ => exact ih _ h

/-- Each packet is complete within its limit, counted from the one before. -/
def OnTime (start : ℕ) : List ℕ → List ℕ → Prop
  | t :: ts, limit :: limits => t < start + limit ∧ OnTime t ts limits
  | _, _ => True

instance OnTime.decidable (start : ℕ) (times limits : List ℕ) :
    Decidable (OnTime start times limits) :=
  match times, limits with
  | t :: ts, limit :: limits =>
    have := OnTime.decidable t ts limits
    inferInstanceAs (Decidable (t < start + limit ∧ OnTime t ts limits))
  | [], _ => .isTrue (by simp [OnTime])
  | _ :: _, [] => .isTrue (by simp [OnTime])

namespace Link

variable (wanted : Packet → Bool) {deadline : ℕ} {reading : Bool} {s : Serial} {a : Assembler}
  (items : List Arrival)

/-- An assembler that gave out a packet holds nothing. -/
lemma push_eq_some {b : UInt8} {p : Packet} {a' : Assembler} (h : a.push b = (some (.ok p), a')) :
    a' = {} := by
  rw [Assembler.push] at h
  split at h
  · exact (Prod.mk.inj h).2.symm
  · cases h

/-- A byte that completes no packet that is wanted leaves it to the later ones what is heard. -/
lemma listen_byte_of_none (hopen : (!reading && decide (deadline ≤ s.clock)) = false) {b : UInt8}
    (hb : ∀ p, (a.push b).1 = some (.ok p) → wanted p = false) :
    let later := listen wanted deadline false { s with clock := s.clock + s.byteTime }
      (a.push b).2 items
    (listen wanted deadline reading s a (.byte b :: items)).result = later.result ∧
      (listen wanted deadline reading s a (.byte b :: items)).link = later.link := by
  rcases hpush : a.push b with ⟨answer, a'⟩
  simp only [hpush] at hb
  simp only [listen, hopen, Bool.false_eq_true, if_false, hpush]
  rcases answer with _ | e | p
  · exact ⟨rfl, rfl⟩
  · cases e <;> exact ⟨rfl, rfl⟩
  · simp only [hb p rfl, Bool.false_eq_true, if_false]
    exact ⟨rfl, rfl⟩

lemma listen_byte_of_some (hopen : (!reading && decide (deadline ≤ s.clock)) = false) {b : UInt8}
    {p : Packet} {a' : Assembler} (hb : a.push b = (some (.ok p), a')) (hw : wanted p) :
    (listen wanted deadline reading s a (.byte b :: items)).result = .ok (some p) ∧
      (listen wanted deadline reading s a (.byte b :: items)).link =
        ⟨{ s with clock := s.clock + s.byteTime, incoming := items }, {}⟩ := by
  cases push_eq_some hb
  simp only [listen, hopen, Bool.false_eq_true, if_false, hb, hw, if_true]
  exact ⟨rfl, rfl⟩

variable {wanted items} (reading)

/-- A packet that is wanted and complete before the deadline is heard, at its time. -/
theorem listen_on_time {p : Packet} {more : List UInt8} {t : ℕ} {ts : List ℕ}
    (hl : Lossless items) (hp : a.next (bytesOf items) = some (p, more)) (hw : wanted p)
    (ht : packetTimes s.byteTime s.clock a items = t :: ts) (hd : t < deadline) :
    ∃ rest, (listen wanted deadline reading s a items).result = .ok (some p) ∧
      (listen wanted deadline reading s a items).link =
        ⟨{ s with clock := t, incoming := rest }, {}⟩ ∧
      bytesOf rest = more ∧ Lossless rest ∧ packetTimes s.byteTime t {} rest = ts := by
  induction items generalizing reading s a with
  | nil => cases hp
  | cons x items ih =>
    obtain ⟨hx, hrest⟩ := (lossless_cons x items).mp hl
    have hopen : (!reading && decide (deadline ≤ s.clock)) = false := by
      have := le_of_packetTimes ht
      simp
      omega
    cases x with
    | hangUp => exact absurd rfl hx.1
    | failure e => exact absurd rfl (hx.2 e)
    | stall time =>
      simp only [listen, hopen, Bool.false_eq_true, if_false]
      exact ih _ hrest hp ht
    | pause time =>
      simp only [listen, hopen, Bool.false_eq_true, if_false]
      exact ih _ hrest hp ht
    | byte b =>
      change a.next (b :: bytesOf items) = _ at hp
      by_cases hb : ∃ q, (a.push b).1 = some (.ok q)
      · obtain ⟨q, hq⟩ := hb
        have hpush : a.push b = (some (.ok q), (a.push b).2) := Prod.ext hq rfl
        rw [Assembler.next_of_packet hpush] at hp
        rw [packetTimes_of_packet _ _ hpush, push_eq_some hpush] at ht
        cases hp
        cases ht
        obtain ⟨hresult, hlink⟩ := listen_byte_of_some wanted items hopen hpush hw
        exact ⟨items, hresult, hlink, rfl, hrest, rfl⟩
      · rw [Assembler.next_of_no_packet hb] at hp
        rw [packetTimes_of_no_packet _ _ hb] at ht
        obtain ⟨hresult, hlink⟩ := listen_byte_of_none wanted items hopen
          fun q hq => absurd ⟨q, hq⟩ hb
        rw [hresult, hlink]
        exact ih _ hrest hp ht

/-- On a line that stays open listening takes items off the front and never fails. -/
theorem listen_lossless (wanted : Packet → Bool) (deadline : ℕ) (s : Serial) (a : Assembler)
    (hl : Lossless items) :
    ∃ front rest clock assembler heard, items = front ++ rest ∧
      (listen wanted deadline reading s a items).result = .ok heard ∧
      (listen wanted deadline reading s a items).link =
        ⟨{ s with clock, incoming := rest }, assembler⟩ := by
  induction items generalizing reading s a with
  | nil => exact ⟨[], [], _, a, none, rfl, rfl, rfl⟩
  | cons x items ih =>
    obtain ⟨hx, hrest⟩ := (lossless_cons x items).mp hl
    cases hopen : !reading && decide (deadline ≤ s.clock) with
    | true =>
      simp only [listen, hopen, if_true]
      exact ⟨[], x :: items, s.clock, a, none, rfl, rfl, rfl⟩
    | false =>
      have htail (r : Bool) (clock : ℕ) (a' : Assembler) :
          ∃ front rest clock' assembler heard, x :: items = front ++ rest ∧
            (listen wanted deadline r { s with clock } a' items).result = .ok heard ∧
            (listen wanted deadline r { s with clock } a' items).link =
              ⟨{ s with clock := clock', incoming := rest }, assembler⟩ := by
        obtain ⟨front, rest, clock', assembler, heard, rfl, hlisten⟩ :=
          ih r { s with clock } a' hrest
        exact ⟨x :: front, rest, clock', assembler, heard, rfl, hlisten⟩
      cases x with
      | hangUp => exact absurd rfl hx.1
      | failure e => exact absurd rfl (hx.2 e)
      | stall time =>
        simp only [listen, hopen, Bool.false_eq_true, if_false]
        exact htail false _ a
      | pause time =>
        simp only [listen, hopen, Bool.false_eq_true, if_false]
        exact htail true _ a
      | byte b =>
        by_cases hb : ∃ p, (a.push b).1 = some (.ok p) ∧ wanted p
        · obtain ⟨p, hp, hw⟩ := hb
          obtain ⟨hresult, hlink⟩ := listen_byte_of_some wanted items hopen
            (Prod.ext hp rfl : a.push b = (some (.ok p), (a.push b).2)) hw
          exact ⟨[.byte b], items, _, {}, some p, rfl, hresult, hlink⟩
        · obtain ⟨hresult, hlink⟩ := listen_byte_of_none wanted items hopen
            (b := b) (a := a) (by simpa using hb)
          rw [hresult, hlink]
          exact htail false _ _

/-- A packet that is heard is the first one among the bytes, however long it took, and nothing of
the bytes behind it is held back. -/
theorem next_of_listen (hl : Lossless items) {p : Packet}
    (h : (listen (fun _ => true) deadline reading s a items).result = .ok (some p)) :
    a.next (bytesOf items) = some (p,
        bytesOf (listen (fun _ => true) deadline reading s a items).link.serial.incoming) ∧
      (listen (fun _ => true) deadline reading s a items).link.assembler = {} := by
  induction items generalizing reading s a with
  | nil => cases h
  | cons x items ih =>
    obtain ⟨hx, hrest⟩ := (lossless_cons x items).mp hl
    cases hopen : !reading && decide (deadline ≤ s.clock) with
    | true =>
      simp only [listen, hopen, if_true] at h
      cases h
    | false =>
      cases x with
      | hangUp => exact absurd rfl hx.1
      | failure e => exact absurd rfl (hx.2 e)
      | stall time =>
        simp only [listen, hopen, Bool.false_eq_true, if_false] at h ⊢
        exact ih _ hrest h
      | pause time =>
        simp only [listen, hopen, Bool.false_eq_true, if_false] at h ⊢
        exact ih _ hrest h
      | byte b =>
        change a.next (b :: bytesOf items) = _ ∧ _
        by_cases hb : ∃ q, (a.push b).1 = some (.ok q)
        · obtain ⟨q, hq⟩ := hb
          have hpush : a.push b = (some (.ok q), (a.push b).2) := Prod.ext hq rfl
          obtain ⟨hresult, hlink⟩ := listen_byte_of_some (fun _ => true) items hopen hpush rfl
          rw [hresult] at h
          cases h
          rw [hlink, Assembler.next_of_packet hpush]
          exact ⟨rfl, rfl⟩
        · obtain ⟨hresult, hlink⟩ := listen_byte_of_none (fun _ => true) items hopen
            (b := b) (a := a) (by simpa using hb)
          rw [hresult] at h
          rw [hlink, Assembler.next_of_no_packet hb]
          exact ih _ hrest h

end Link
end FaultBench.Host
