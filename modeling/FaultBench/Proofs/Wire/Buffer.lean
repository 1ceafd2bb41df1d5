import FaultBench.Proofs.Wire.Reception

/-! The bounded receiver in a buffer of fixed size, where a place outside the buffer is a failure.
It never fails, and answers as the receiver that has its bytes in a list. So receivers with and
without a bound differ on frames that are too long, and on no others. -/
namespace FaultBench.Wire

inductive Stage where
  | filling
  | overflowed
  | terminated
  | overran
  deriving DecidableEq, Repr

/-- A buffer whose first `length` bytes are in use. -/
structure Buffered (capacity : ℕ) where
  buffer : Vector UInt8 capacity := .replicate capacity 0
  length : ℕ := 0
  stage : Stage := .filling

namespace Buffered

variable {capacity : ℕ}

def clear (r : Buffered capacity) : Buffered capacity := { r with length := 0, stage := .filling }

/-- Stores a byte behind the others. -/
def store (r : Buffered capacity) (b : UInt8) : Option (Buffered capacity) :=
  if h : r.length < capacity then
    some { r with buffer := r.buffer.set r.length b h, length := r.length + 1 }
  else none

/-- The bytes in use. -/
def held (r : Buffered capacity) : Option (List UInt8) :=
  if r.length ≤ capacity then some (r.buffer.toList.take r.length) else none

/-- Takes a byte of a frame that has not ended, and answers whether it ends it now. -/
def accept (r : Buffered capacity) (b : UInt8) : Option (Bool × Buffered capacity) :=
  if r.stage = .overflowed then
    some (if b = 0 then (true, { r with stage := .overran }) else (false, r))
  else if b = 0 then (r.store 0).map fun r => (true, { r with stage := .terminated })
  else if r.length + 1 < capacity then (r.store b).map fun r => (false, r)
  else some (false, { r with stage := .overflowed })

/-- Behind a frame the next byte clears the buffer first. -/
def push (r : Buffered capacity) (b : UInt8) : Option (Bool × Buffered capacity) :=
  if r.stage = .terminated ∨ r.stage = .overran then r.clear.accept b else r.accept b

/-- Decodes the bytes in use where they are, which leaves in the buffer whatever `spoil` says. -/
def take (spoil : ℕ → Vector UInt8 capacity → Vector UInt8 capacity) (r : Buffered capacity) :
    Option (Except FrameError Packet × Buffered capacity) :=
  match r.stage with
  | .overran => some (.error (.overflow capacity), r)
  | .terminated =>
    r.held.map fun bytes =>
      (Packet.decode bytes, { r with buffer := spoil r.length r.buffer, length := 0 })
  | _ => some (.error .unterminated, r)

variable (spoil : ℕ → Vector UInt8 capacity → Vector UInt8 capacity)

def call (r : Buffered capacity) : Call → Option (Answer × Buffered capacity)
  | .push b => (r.push b).map fun x => (.pushed x.1, x.2)
  | .take => (r.take spoil).map fun x => (.taken x.1, x.2)
  | .clear => some (.cleared, r.clear)

/-- The answers to all calls, if none of them fails. -/
def answers (r : Buffered capacity) : List Call → Option (List Answer)
  | [] => some []
  | c :: calls =>
    (r.call spoil c).bind fun x => (x.2.answers calls).map (x.1 :: ·)

/-- What a receiver holds that followed a stream up to a position. -/
def At (r : Buffered capacity) : Position → Prop
  | .within body =>
    if body.length < capacity then r.stage = .filling ∧ r.held = some body
    else r.stage = .overflowed
  | .ended body taken =>
    if body.length < capacity then
      r.stage = .terminated ∧ r.held = some (if taken then [] else body ++ [0])
    else r.stage = .overran

variable {r : Buffered capacity} {p : Position} {bytes : List UInt8}

lemma length_of_held (h : r.held = some bytes) : r.length = bytes.length := by
  rw [held] at h
  split at h
  · next hle =>
    rw [← Option.some.inj h, List.length_take, Vector.length_toList]
    omega
  · cases h

/-- A place is left for one more byte. -/
lemma store_held (h : r.held = some bytes) (hroom : bytes.length < capacity) (b : UInt8) :
    ∃ r', r.store b = some r' ∧ r'.stage = r.stage ∧ r'.held = some (bytes ++ [b]) := by
  have hlength := length_of_held h
  have hplace : r.length < capacity := by omega
  have hbytes : r.buffer.toList.take r.length = bytes := by
    rw [held, if_pos (Nat.le_of_lt hplace)] at h
    exact Option.some.inj h
  refine ⟨_, dif_pos hplace, rfl, ?_⟩
  have hstored : (r.buffer.set r.length b hplace).toList.take (r.length + 1) = bytes ++ [b] := by
    rw [Vector.toList_set, List.take_add_one, List.take_set_of_le (Nat.le_refl _), hbytes]
    simp [hplace]
  simp only [held, hstored, if_pos (Nat.succ_le_of_lt hplace)]

@[simp] lemma held_clear (r : Buffered capacity) : r.clear.held = some [] := by
  simp [held, clear]

lemma accept_within {body : List UInt8} (h : r.At (.within body)) (b : UInt8) :
    ∃ r', r.accept b = some (decide (b = 0), r') ∧
      r'.At (Position.next (.within body) (.push b)) := by
  rw [At] at h
  split at h
  · next hheld =>
    obtain ⟨hstage, hbytes⟩ := h
    have hlength := length_of_held hbytes
    by_cases hb : b = 0
    · subst hb
      obtain ⟨r', hstore, -, hstored⟩ := store_held hbytes hheld 0
      refine ⟨{ r' with stage := .terminated }, by simp [accept, hstage, hstore], ?_⟩
      rw [Position.next, if_pos rfl, At, Position.body, if_pos hheld]
      exact ⟨rfl, hstored⟩
    · by_cases hroom : body.length + 1 < capacity
      · obtain ⟨r', hstore, hstage', hstored⟩ := store_held hbytes hheld b
        refine ⟨r', by simp [accept, hstage, hb, hlength, hroom, hstore], ?_⟩
        rw [Position.next, if_neg hb, At, Position.body, if_pos (by simpa using hroom)]
        exact ⟨hstage'.trans hstage, hstored⟩
      · refine ⟨{ r with stage := .overflowed }, by simp [accept, hstage, hb, hlength, hroom], ?_⟩
        rw [Position.next, if_neg hb, At, Position.body, if_neg (by simpa using hroom)]
  · next hlong =>
    by_cases hb : b = 0
    · subst hb
      refine ⟨{ r with stage := .overran }, by simp [accept, h], ?_⟩
      rw [Position.next, if_pos rfl, At, Position.body, if_neg hlong]
    · have hlonger : ¬ (body ++ [b]).length < capacity := by
        rw [List.length_append]
        omega
      refine ⟨r, by simp [accept, h, hb], ?_⟩
      rw [Position.next, if_neg hb, At, Position.body, if_neg hlonger]
      exact h

lemma at_clear (hcapacity : 0 < capacity) (r : Buffered capacity) : r.clear.At (.within []) := by
  have hempty : ([] : List UInt8).length < capacity := hcapacity
  rw [At, if_pos hempty]
  exact ⟨rfl, r.held_clear⟩

theorem push_at (hcapacity : 0 < capacity) (h : r.At p) (b : UInt8) :
    ∃ r', r.push b = some (decide (b = 0), r') ∧ r'.At (p.next (.push b)) := by
  cases p with
  | within body =>
    have hopen : ¬ (r.stage = .terminated ∨ r.stage = .overran) := by
      rw [At] at h
      split at h <;> simp [h]
    rw [push, if_neg hopen]
    exact accept_within h b
  | ended body taken =>
    have hended : r.stage = .terminated ∨ r.stage = .overran := by
      rw [At] at h
      split at h
      · exact .inl h.1
      · exact .inr h
    rw [push, if_pos hended]
    exact accept_within (at_clear hcapacity r) b

theorem take_at (hcapacity : 0 < capacity) (h : r.At p) :
    ∃ r', r.take spoil = some (p.taken capacity, r') ∧ r'.At (p.next .take) := by
  cases p with
  | within body =>
    refine ⟨r, ?_, h⟩
    rw [At] at h
    split at h <;> simp [take, h, Position.taken]
  | ended body taken =>
    rw [At] at h
    split at h
    · next hheld =>
      obtain ⟨hstage, hbytes⟩ := h
      have hfits : ¬ capacity - 1 < body.length := by omega
      refine ⟨{ r with buffer := spoil r.length r.buffer, length := 0 }, ?_, ?_⟩
      · cases taken <;> simp [take, hstage, hbytes, Position.taken, hfits, Packet.decode]
      · rw [Position.next, At, if_pos hheld]
        exact ⟨hstage, by simp [held]⟩
    · next hlong =>
      have hover : capacity - 1 < body.length := by omega
      refine ⟨r, by simp [take, h, Position.taken, hover], ?_⟩
      rw [Position.next, At, if_neg hlong]
      exact h

/-- No call needs a place outside the buffer. -/
theorem call_at (hcapacity : 0 < capacity) (h : r.At p) (c : Call) :
    ∃ r', r.call spoil c = some (p.answer capacity c, r') ∧ r'.At (p.next c) := by
  cases c with
  | push b =>
    obtain ⟨r', hpush, hnext⟩ := push_at hcapacity h b
    exact ⟨r', by rw [call, hpush]; rfl, hnext⟩
  | take =>
    obtain ⟨r', htake, hnext⟩ := take_at spoil hcapacity h
    exact ⟨r', by rw [call, htake]; rfl, hnext⟩
  | clear => exact ⟨r.clear, rfl, at_clear hcapacity r⟩

theorem answers_at (hcapacity : 0 < capacity) (h : r.At p) (calls : List Call) :
    r.answers spoil calls = some (p.answers capacity calls) := by
  induction calls generalizing r p with
  | nil => rfl
  | cons c calls ih =>
    obtain ⟨r', hcall, hnext⟩ := call_at spoil hcapacity h c
    rw [answers, hcall, Option.bind_some, ih hnext]
    rfl

end Buffered

/-- Under calls in any order a bounded receiver never needs a place outside its buffer, whatever
decoding leaves there, and answers as the bytes since the last terminator or clearing say. It reads
a frame as the assembler does that had the same bytes, if the frame fits the buffer with its
terminator, and reports an overflow if it does not, whatever frames came before. -/
theorem receiver_refines_assembler {capacity : ℕ} (hcapacity : 2 ≤ capacity)
    (spoil : ℕ → Vector UInt8 capacity → Vector UInt8 capacity) (calls : List Call) :
    Buffered.answers spoil {} calls = some ((Receiver.fresh : Receiver capacity).answers calls) ∧
      (Receiver.fresh : Receiver capacity).answers calls =
        (Position.within []).answers capacity calls ∧
      ∃ reading, ((calls.foldl Assembler.follow {}).push 0).1 = some reading ∧
        (((Receiver.fresh : Receiver capacity).after calls).push 0).take.1 =
          if (calls.foldl Assembler.follow {}).pending.length + 1 ≤ capacity then reading
          else .error (.overflow capacity) := by
  have hpos : 0 < capacity := by omega
  have hstart : (Position.within []).receiver = (Receiver.fresh : Receiver capacity) :=
    Receiver.within_nil hpos
  have hanswers := Position.answers_receiver hpos (.within []) calls
  have hafter := Position.after_receiver hpos (.within []) calls
  have hassembler : calls.foldl Assembler.follow {} = _ :=
    Assembler.after_assembler (.within []) calls
  rw [hstart] at hanswers hafter
  refine ⟨?_, hanswers, ?_⟩
  · have hnew : ({} : Buffered capacity).At (.within []) := Buffered.at_clear hpos {}
    rw [Buffered.answers_at spoil hpos hnew, hanswers]
  · generalize (Position.within []).after calls = p at hafter hassembler
    rw [hassembler, hafter, Position.push_receiver hpos, Position.take_receiver hpos,
      Assembler.push_zero]
    refine ⟨_, rfl, ?_⟩
    simp only [Position.taken_terminated hpos, Position.assembler, List.length_reverse,
      List.reverse_reverse]

/-- A frame that is too long, asked for twice, in front of a start, and a frame that is too long and
cleared before its end. -/
theorem receiver_refines_assembler_overflow :
    let calls := ([0x66,1,2,3,0].map .push ++ [.take, .take] ++ [0x73,0].map .push ++
      [.take, .take] ++ [0x66,1,2,3].map .push ++ [.clear, .push 0, .take] : List Call)
    2 ≤ 4 ∧ (Receiver.fresh : Receiver 4).answers calls =
      [.pushed false, .pushed false, .pushed false, .pushed false, .pushed true,
        .taken (.error (.overflow 4)), .taken (.error (.overflow 4)), .pushed false, .pushed true,
        .taken (.ok (.bare 0x73)), .taken (.error .unterminated), .pushed false, .pushed false,
        .pushed false, .pushed false, .cleared, .pushed true, .taken (.error .empty)] := by
  intro calls
  have hroom : 2 ≤ 4 := by decide
  obtain ⟨-, hanswers, -⟩ := receiver_refines_assembler hroom (fun _ => id) calls
  exact ⟨hroom, hanswers.trans (by decide +kernel)⟩

end FaultBench.Wire
