import FaultBench.Proofs.Host.Listening
import FaultBench.Proofs.Wire.Splitting
import Mathlib.Algebra.GroupWithZero.Nat

/-! An account of listening on a line that may do anything: which items it takes, when it begins its
reads, how much time goes by, and which packets come of the bytes. -/
namespace FaultBench.Host
open Wire

namespace Arrival

/-- The time that goes by until it is there. -/
def time (byteTime : ℕ) : Arrival → ℕ
  | .byte _ => byteTime
  | .stall time => time
  | .pause time => time
  | .hangUp => 0
  | .failure _ => 0

/-- A pause is part of the read that goes on behind it. -/
def isPause : Arrival → Bool
  | .pause _ => true
  | _ => false

end Arrival

def duration (byteTime : ℕ) (items : List Arrival) : ℕ := (items.map (·.time byteTime)).sum

@[simp] lemma duration_nil (byteTime : ℕ) : duration byteTime [] = 0 := rfl

@[simp] lemma duration_cons (byteTime : ℕ) (x : Arrival) (items : List Arrival) :
    duration byteTime (x :: items) = x.time byteTime + duration byteTime items :=
  List.sum_cons

/-- The times at which the reads of some items are begun; `reading` tells whether the first goes on
from before. -/
def begunTimes (byteTime clock : ℕ) (reading : Bool) : List Arrival → List ℕ
  | [] => []
  | x :: rest =>
    (if reading then [] else [clock]) ++
      begunTimes byteTime (clock + x.time byteTime) x.isPause rest

/-- Reads that wait and find nothing, as all do behind the last item. -/
def silence (count : ℕ) : List Arrival := List.replicate count (.stall Serial.patience)

lemma silence_succ (count : ℕ) :
    silence (count + 1) = .stall Serial.patience :: silence count := List.replicate_succ

/-- Of reads that find nothing, the first may have been begun before. -/
lemma begunTimes_silence_succ (byteTime clock count : ℕ) :
    begunTimes byteTime clock true (silence (count + 1)) =
      begunTimes byteTime (clock + Serial.patience) false (silence count) := by
  rw [silence_succ]
  rfl

lemma duration_silence (byteTime count : ℕ) :
    duration byteTime (silence count) = count * Serial.patience := by
  simp [duration, silence, Arrival.time]

lemma begunTimes_silence_lt {byteTime clock deadline count : ℕ}
    (h : ∀ i < count, clock + i * Serial.patience < deadline) :
    ∀ t ∈ begunTimes byteTime clock false (silence count), t < deadline := by
  induction count generalizing clock with
  | zero => simp [silence, begunTimes]
  | succ count ih =>
    have hrest : ∀ i < count, clock + Serial.patience + i * Serial.patience < deadline := by
      intro i hi
      have := h (i + 1) (by omega)
      rw [Nat.add_one_mul] at this
      omega
    intro t ht
    obtain rfl | ht := List.mem_cons.mp ht
    · simpa using h 0 (by omega)
    · exact ih hrest t ht

/-- The number of reads of a silent line up to a deadline. -/
def vainReads (deadline clock : ℕ) : ℕ :=
  (deadline - clock + (Serial.patience - 1)) / Serial.patience

lemma silentUntil_eq (byteTime deadline clock : ℕ) :
    Serial.silentUntil deadline clock =
      clock + duration byteTime (silence (vainReads deadline clock)) := by
  rw [duration_silence]
  rfl

lemma begunTimes_vainReads_lt (byteTime deadline clock : ℕ) :
    ∀ t ∈ begunTimes byteTime clock false (silence (vainReads deadline clock)), t < deadline := by
  apply begunTimes_silence_lt
  intro i hi
  simp only [vainReads, Serial.patience] at hi ⊢
  omega

/-- The packet that was heard, if one was. -/
def heardOf : Except LinkError (Option Packet) → List Packet
  | .ok (some p) => [p]
  | _ => []

/-- Listening took the items `front` off the line, and after them, if none was left, began a number
of reads that found nothing. It ends at the terminator of the packet that it was to hear. -/
structure Took (wanted : Packet → Bool) (deadline : ℕ) (reading : Bool) (s : Serial)
    (a : Assembler) (r : Reached (Option Packet)) (front rest : List Arrival) (silent : ℕ) :
    Prop where
  link : r.link = ⟨{ s with
    clock := s.clock + duration s.byteTime (front ++ silence silent)
    incoming := rest }, (a.pushAll (bytesOf front)).2⟩
  exhausted : silent = 0 ∨ rest = [] ∧ r.result = .ok none
  begun : ∀ t ∈ begunTimes s.byteTime s.clock reading (front ++ silence silent), t < deadline
  packets : ∃ passed, (∀ p ∈ passed, wanted p = false) ∧
    a.packets (bytesOf front) = passed ++ heardOf r.result ∧
    ∀ p, r.result = .ok (some p) → wanted p ∧
      ∃ before, front = before ++ [.byte 0] ∧ a.packets (bytesOf before) = passed
  late : r.result = .ok none → deadline ≤ r.link.serial.clock
  -- What is left of the line when listening gives up is not there before the deadline.
  unbegun : r.result = .ok none → ∀ x ∈ rest.head?,
    ∃ t ∈ begunTimes s.byteTime s.clock reading (front ++ [x]), deadline ≤ t

namespace Took

variable {wanted : Packet → Bool} {deadline : ℕ} {reading : Bool} {s : Serial} {a : Assembler}
  {r r' : Reached (Option Packet)} {front rest : List Arrival} {silent : ℕ}

/-- One more item in front, with which listening does not end. -/
lemma cons {x : Arrival} (hopen : reading = true ∨ s.clock < deadline)
    (hx : ∀ p ∈ a.packets (bytesOf [x]), wanted p = false)
    (h : Took wanted deadline x.isPause { s with clock := s.clock + x.time s.byteTime }
      (a.pushAll (bytesOf [x])).2 r front rest silent)
    (hresult : r'.result = r.result) (hlink : r'.link = r.link) :
    Took wanted deadline reading s a r' (x :: front) rest silent := by
  obtain ⟨hl, hexhausted, hbegun, ⟨passed, hpassed, hpackets, hheard⟩, hlate, hunbegun⟩ := h
  have hbytes (items : List Arrival) : bytesOf (x :: items) = bytesOf [x] ++ bytesOf items :=
    bytesOf_append [x] items
  rw [← hresult] at hexhausted hpackets hheard hlate hunbegun
  rw [← hlink] at hl hlate
  constructor
  · rw [hl, hbytes front, Assembler.pushAll_append, List.cons_append, duration_cons, Nat.add_assoc]
  · exact hexhausted
  · intro t ht
    rw [List.cons_append, begunTimes, List.mem_append] at ht
    obtain ht | ht := ht
    · cases reading
      · rw [List.mem_singleton.mp ht]
        exact hopen.resolve_left Bool.false_ne_true
      · cases ht
    · exact hbegun t ht
  · refine ⟨a.packets (bytesOf [x]) ++ passed, ?_, ?_, ?_⟩
    · intro p hp
      exact (List.mem_append.mp hp).elim (hx p) (hpassed p)
    · rw [hbytes front, Assembler.packets_append, hpackets, List.append_assoc]
    · intro p hp
      obtain ⟨hw, before, rfl, hbefore⟩ := hheard p hp
      refine ⟨hw, x :: before, rfl, ?_⟩
      rw [hbytes before, Assembler.packets_append, hbefore]
  · exact hlate
  · intro hnone y hy
    obtain ⟨t, ht, hdeadline⟩ := hunbegun hnone y hy
    exact ⟨t, List.mem_append_right _ ht, hdeadline⟩

/-- Listening that ends before it takes anything. -/
lemma stopped {items : List Arrival} (hlate : deadline ≤ s.clock) :
    Took wanted deadline false s a (Link.heard (.ok none) s a items) [] items 0 := by
  refine ⟨rfl, .inl rfl, ?_, ⟨[], by simp, rfl, nofun⟩, fun _ => hlate, fun _ x _ => ?_⟩
  · simp [silence, begunTimes]
  · exact ⟨s.clock, by simp [begunTimes], hlate⟩

/-- Listening that ends with its first item. -/
lemma only {x : Arrival} (hopen : reading = true ∨ s.clock < deadline)
    (hlink : r.link = ⟨{ s with clock := s.clock + x.time s.byteTime, incoming := rest },
      (a.pushAll (bytesOf [x])).2⟩)
    (hpackets : a.packets (bytesOf [x]) = heardOf r.result)
    (hheard : ∀ p, r.result = .ok (some p) → wanted p ∧ x = .byte 0)
    (hended : r.result ≠ .ok none) : Took wanted deadline reading s a r [x] rest 0 := by
  refine ⟨hlink, .inl rfl, ?_, ⟨[], by simp, hpackets, ?_⟩, fun hnone => absurd hnone hended,
    fun hnone => absurd hnone hended⟩
  · intro t ht
    rw [silence, List.replicate_zero, List.append_nil, begunTimes, begunTimes,
      List.append_nil] at ht
    cases reading
    · rw [List.mem_singleton.mp ht]
      exact hopen.resolve_left Bool.false_ne_true
    · cases ht
  · intro p hp
    obtain ⟨hw, rfl⟩ := hheard p hp
    exact ⟨hw, [], rfl, rfl⟩

end Took

namespace Link

variable (wanted : Packet → Bool) (deadline : ℕ) (reading : Bool) (s : Serial) (a : Assembler)

/-- Behind the last item every read takes its time and finds nothing. -/
lemma took_silence : ∃ silent, Took wanted deadline reading s a
    (listen wanted deadline reading s a []) [] [] silent := by
  -- A read that goes on at the end of the items is the first of the vain ones.
  cases reading with
  | false =>
    simp only [listen, Bool.false_eq_true, if_false]
    refine ⟨vainReads deadline s.clock, ?_, .inr ⟨rfl, rfl⟩,
      begunTimes_vainReads_lt _ deadline s.clock, ⟨[], by simp, rfl, fun _ h => by cases h⟩,
      fun _ => ?_, fun _ _ h => by cases h⟩
    · rw [List.nil_append, ← silentUntil_eq]
      rfl
    · exact Serial.le_silentUntil deadline s.clock
  | true =>
    simp only [listen, if_true]
    refine ⟨vainReads deadline (s.clock + Serial.patience) + 1, ?_, .inr ⟨rfl, rfl⟩, ?_,
      ⟨[], by simp, rfl, fun _ h => by cases h⟩, fun _ => ?_, fun _ _ h => by cases h⟩
    · rw [List.nil_append, silence_succ, duration_cons, ← Nat.add_assoc, Arrival.time,
        ← silentUntil_eq]
      rfl
    · rw [List.nil_append, begunTimes_silence_succ]
      exact begunTimes_vainReads_lt _ deadline (s.clock + Serial.patience)
    · exact Serial.le_silentUntil deadline (s.clock + Serial.patience)

/-- Listening ends with the byte that completes a packet that is wanted. -/
lemma took_byte (items : List Arrival) {b : UInt8} {p : Packet}
    (hopen : (!reading && decide (deadline ≤ s.clock)) = false)
    (hbegins : reading = true ∨ s.clock < deadline) (hp : (a.push b).1 = some (.ok p))
    (hw : wanted p) : Took wanted deadline reading s a
      (listen wanted deadline reading s a (.byte b :: items)) [.byte b] items 0 := by
  have hpush : a.push b = (some (.ok p), (a.push b).2) := Prod.ext hp rfl
  obtain ⟨hresult, hlink⟩ := listen_byte_of_some wanted items hopen hpush hw
  refine .only hbegins ?_ ?_ ?_ ?_
  · rw [hlink, ← push_eq_some hpush]
    rfl
  · rw [hresult]
    change a.packets [b] = [p]
    rw [Assembler.packets_singleton, hp]
    rfl
  · intro q hq
    rw [hresult] at hq
    cases hq
    exact ⟨hw, congrArg Arrival.byte (Assembler.eq_zero_of_push hp)⟩
  · simp [hresult]

/-- Listening takes the front of the items, and behind their end time in which nothing comes. -/
theorem listen_took (items : List Arrival) :
    ∃ front rest silent, items = front ++ rest ∧
      Took wanted deadline reading s a (listen wanted deadline reading s a items) front rest
        silent := by
  induction items generalizing reading s a with
  | nil =>
    obtain ⟨silent, h⟩ := took_silence wanted deadline reading s a
    exact ⟨[], [], silent, rfl, h⟩
  | cons x items ih =>
    cases hopen : !reading && decide (deadline ≤ s.clock) with
    | true =>
      obtain ⟨rfl, hlate⟩ : reading = false ∧ deadline ≤ s.clock := by simpa using hopen
      simp only [listen, hopen, if_true]
      exact ⟨[], x :: items, 0, rfl, .stopped hlate⟩
    | false =>
      have hbegins : reading = true ∨ s.clock < deadline := by
        cases reading <;> simp at hopen ⊢
        omega
      have htail (hx : ∀ p ∈ a.packets (bytesOf [x]), wanted p = false) (r : Reached _)
          (hr : r.result = (listen wanted deadline x.isPause
              { s with clock := s.clock + x.time s.byteTime } (a.pushAll (bytesOf [x])).2
              items).result ∧ r.link = (listen wanted deadline x.isPause
              { s with clock := s.clock + x.time s.byteTime } (a.pushAll (bytesOf [x])).2
              items).link) :
          ∃ front rest silent, x :: items = front ++ rest ∧
            Took wanted deadline reading s a r front rest silent := by
        obtain ⟨front, rest, silent, rfl, h⟩ := ih x.isPause
          { s with clock := s.clock + x.time s.byteTime } (a.pushAll (bytesOf [x])).2
        exact ⟨x :: front, rest, silent, rfl, h.cons hbegins hx hr.1 hr.2⟩
      cases x with
      | hangUp =>
        simp only [listen, hopen, Bool.false_eq_true, if_false]
        exact ⟨[.hangUp], items, 0, rfl,
          .only hbegins rfl rfl (fun _ h => by cases h) fun h => by cases h⟩
      | failure e =>
        simp only [listen, hopen, Bool.false_eq_true, if_false]
        exact ⟨[.failure e], items, 0, rfl,
          .only hbegins rfl rfl (fun _ h => by cases h) fun h => by cases h⟩
      | stall time =>
        simp only [listen, hopen, Bool.false_eq_true, if_false]
        exact htail (by simp [bytesOf]) _ ⟨rfl, rfl⟩
      | pause time =>
        simp only [listen, hopen, Bool.false_eq_true, if_false]
        exact htail (by simp [bytesOf]) _ ⟨rfl, rfl⟩
      | byte b =>
        by_cases hb : ∃ p, (a.push b).1 = some (.ok p) ∧ wanted p
        · obtain ⟨p, hp, hw⟩ := hb
          exact ⟨[.byte b], items, 0, rfl,
            took_byte wanted deadline reading s a items hopen hbegins hp hw⟩
        · push Not at hb
          have hunwanted : ∀ p, (a.push b).1 = some (.ok p) → wanted p = false := by simpa using hb
          refine htail (fun p hp => hunwanted p ?_) _
            (listen_byte_of_none wanted items hopen hunwanted)
          exact Assembler.mem_packets_singleton.mp hp

end Link

end FaultBench.Host
