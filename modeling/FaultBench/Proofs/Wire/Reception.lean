import FaultBench.Proofs.Wire.Frame

/-! A bounded receiver under calls in any order. Its answers follow from the bytes of the current
frame alone or, right behind a terminator, from the frame that it ended; what an assembler without
a bound holds follows from the same bytes. -/
namespace FaultBench.Wire

/-- The calls of a receiver. -/
inductive Call where
  | push (b : UInt8)
  | take
  | clear
  deriving DecidableEq, Repr

inductive Answer where
  /-- Whether the byte ended a frame. -/
  | pushed (ended : Bool)
  | taken (result : Except FrameError Packet)
  | cleared
  deriving DecidableEq

/-- How far a stream of frames is, counted from the last terminator or clearing. -/
inductive Position where
  /-- Behind these bytes, none of them zero. -/
  | within (body : List UInt8)
  /-- Right behind the terminator of a frame, which was taken since or was not. -/
  | ended (body : List UInt8) (taken : Bool)
  deriving DecidableEq, Repr

namespace Position

/-- The bytes of the frame that has not ended. -/
def body : Position → List UInt8
  | within body => body
  | ended _ _ => []

/-- What is to be had when a frame is taken: an overflow as often as it is asked for, a frame that
fits the buffer together with its terminator only once. -/
def taken (capacity : ℕ) : Position → Except FrameError Packet
  | within _ => .error .unterminated
  | ended body again =>
    if capacity - 1 < body.length then .error (.overflow capacity)
    else if again then .error .unterminated
    else Packet.decode (body ++ [0])

def answer (capacity : ℕ) (p : Position) : Call → Answer
  | .push b => .pushed (b = 0)
  | .take => .taken (p.taken capacity)
  | .clear => .cleared

def next (p : Position) : Call → Position
  | .push b => if b = 0 then .ended p.body false else .within (p.body ++ [b])
  | .take =>
    match p with
    | within body => within body
    | ended body _ => ended body true
  | .clear => within []

def answers (capacity : ℕ) (p : Position) : List Call → List Answer
  | [] => []
  | c :: calls => p.answer capacity c :: (p.next c).answers capacity calls

end Position

namespace Receiver

variable {capacity : ℕ}

def call (r : Receiver capacity) : Call → Answer × Receiver capacity
  | .push b => (.pushed (r.step b).1, (r.step b).2)
  | .take => (.taken r.take.1, r.take.2)
  | .clear => (.cleared, fresh)

def answers (r : Receiver capacity) : List Call → List Answer
  | [] => []
  | c :: calls => (r.call c).1 :: (r.call c).2.answers calls

def after (r : Receiver capacity) (calls : List Call) : Receiver capacity :=
  calls.foldl (fun r c => (r.call c).2) r

end Receiver

namespace Position

variable {capacity : ℕ}

/-- A receiver that followed the stream. -/
def receiver : Position → Receiver capacity
  | within body => .within body
  | ended body false => .ended body
  | ended body true => (Receiver.ended body).take.2

/-- An assembler that followed the stream. -/
def assembler (p : Position) : Assembler := ⟨p.body.reverse⟩

lemma push_receiver (h : 0 < capacity) (p : Position) (b : UInt8) :
    (p.receiver : Receiver capacity).push b = (p.next (.push b)).receiver := by
  have hwithin (body : List UInt8) : (Receiver.within body : Receiver capacity).push b =
      (next (within body) (.push b)).receiver := by
    by_cases hb : b = 0
    · subst hb
      exact Receiver.push_within_zero body
    · rw [Receiver.push_within body hb, next, if_neg hb]
      rfl
  have hfresh := hwithin []
  rw [Receiver.within_nil h] at hfresh
  cases p with
  | within body => exact hwithin body
  | ended body taken =>
    cases taken with
    | false => rw [receiver, Receiver.push_ended, hfresh]; rfl
    | true =>
      have hstart : ((Receiver.ended body).take.2 : Receiver capacity).AtStart := by
        rw [Receiver.take_ended]
        split <;> exact .inr rfl
      rw [receiver, Receiver.push_of_atStart hstart, hfresh]
      rfl

lemma take_receiver (h : 0 < capacity) (p : Position) :
    (p.receiver : Receiver capacity).take = (p.taken capacity, (p.next .take).receiver) := by
  cases p with
  | within body =>
    by_cases hheld : body.length < capacity <;>
      simp [receiver, Receiver.within, hheld, Receiver.take, taken, next]
  | ended body again =>
    have hlong : capacity - 1 < body.length ↔ ¬ body.length < capacity := by omega
    simp only [taken, hlong, next]
    cases again with
    | false =>
      simp only [receiver, Receiver.take_ended]
      split <;> simp [*]
    | true =>
      simp only [receiver, Receiver.take_ended]
      split <;> simp [Receiver.take, Packet.decode, *]

/-- A terminator ends a frame that fits the buffer or does not. -/
lemma taken_terminated (h : 0 < capacity) (p : Position) :
    (p.next (.push 0)).taken capacity =
      if p.body.length + 1 ≤ capacity then Packet.decode (p.body ++ [0])
      else .error (.overflow capacity) := by
  rw [next, if_pos rfl, taken, if_neg Bool.false_ne_true]
  by_cases hfits : p.body.length + 1 ≤ capacity
  · have hshort : ¬ capacity - 1 < p.body.length := by omega
    rw [if_neg hshort, if_pos hfits]
  · have hlong : capacity - 1 < p.body.length := by omega
    rw [if_pos hlong, if_neg hfits]

/-- Each call is answered from the position alone, and moves the receiver along with it. -/
theorem call_receiver (h : 0 < capacity) (p : Position) (c : Call) :
    (p.receiver : Receiver capacity).call c = (p.answer capacity c, (p.next c).receiver) := by
  cases c with
  | push b =>
    have hended : (p.receiver.push b : Receiver capacity).atBoundary = decide (b = 0) := by
      rw [push_receiver h, next]
      split <;> simp [receiver, *]
    rw [Receiver.call, Receiver.step, hended, push_receiver h]
    rfl
  | take =>
    rw [Receiver.call, take_receiver h]
    rfl
  | clear =>
    rw [Receiver.call, ← Receiver.within_nil h]
    rfl

theorem answers_receiver (h : 0 < capacity) (p : Position) (calls : List Call) :
    (p.receiver : Receiver capacity).answers calls = p.answers capacity calls := by
  induction calls generalizing p with
  | nil => rfl
  | cons c calls ih =>
    rw [Receiver.answers, call_receiver h, ih]
    rfl

/-- The position behind some calls. -/
def after (p : Position) (calls : List Call) : Position := calls.foldl next p

lemma after_receiver (h : 0 < capacity) (p : Position) (calls : List Call) :
    (p.receiver : Receiver capacity).after calls = (p.after calls).receiver := by
  induction calls generalizing p with
  | nil => rfl
  | cons c calls ih =>
    have hcall := congrArg Prod.snd (call_receiver h p c)
    rw [Receiver.after, List.foldl_cons, hcall]
    exact ih (p.next c)

end Position

namespace Assembler

/-- An assembler under the calls of a receiver. It reports a frame by itself, so there is nothing
to be taken. -/
def follow (a : Assembler) : Call → Assembler
  | .push b => (a.push b).2
  | .take => a
  | .clear => {}

lemma follow_assembler (p : Position) (c : Call) :
    p.assembler.follow c = (p.next c).assembler := by
  cases c with
  | push b =>
    by_cases hb : b = 0
    · subst hb
      rw [follow, push_zero]
      rfl
    · rw [follow, push_of_ne _ hb, Position.next, if_neg hb]
      simp [Position.assembler, Position.body]
  | take => cases p <;> rfl
  | clear => rfl

lemma after_assembler (p : Position) (calls : List Call) :
    calls.foldl follow p.assembler = (p.after calls).assembler := by
  induction calls generalizing p with
  | nil => rfl
  | cons c calls ih =>
    rw [List.foldl_cons, follow_assembler]
    exact ih (p.next c)

end Assembler
end FaultBench.Wire
