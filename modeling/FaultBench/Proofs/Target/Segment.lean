import FaultBench.Proofs.Wire.Frame
import FaultBench.Target.Channel

/-! What arrives on a line, cut into the segments that reads take off it. A segment ends at a
terminator or at a failure of the line, and its bytes alone decide what the read of it gives. -/
namespace FaultBench.Target
open Wire

inductive Ending where
  | terminator
  | failure (e : LineError)
  /-- Nothing arrives any more, and the line counts as closed. -/
  | exhausted
  deriving DecidableEq, Repr

structure Segment where
  body : List UInt8
  ending : Ending
  deriving DecidableEq, Repr

/-- The first segment of what arrives, and what is behind it. -/
def cut : List Arrival → Segment × List Arrival
  | [] => (⟨[], .exhausted⟩, [])
  | .failure e :: rest => (⟨[], .failure e⟩, rest)
  | .byte b :: rest =>
    if b = 0 then (⟨[], .terminator⟩, rest)
    else (⟨b :: (cut rest).1.body, (cut rest).1.ending⟩, (cut rest).2)

def segments : ℕ → List Arrival → List Segment
  | 0, _ => []
  | n + 1, arrivals => (cut arrivals).1 :: segments n (cut arrivals).2

/-- What is left behind the first segments. -/
def behind : ℕ → List Arrival → List Arrival
  | 0, arrivals => arrivals
  | n + 1, arrivals => behind n (cut arrivals).2

def Ending.arrivals : Ending → List Arrival
  | terminator => [.byte 0]
  | failure e => [.failure e]
  | exhausted => []

namespace Segment

def arrivals (s : Segment) : List Arrival := s.body.map .byte ++ s.ending.arrivals

/-- What a read of the segment gives. A failure of the line goes before whatever its bytes are. -/
def result (capacity : ℕ) (s : Segment) : Except ChannelError Packet :=
  match s.ending with
  | .terminator =>
    if capacity - 1 < s.body.length then .error (.frame (.overflow capacity))
    else (Packet.decode (s.body ++ [0])).mapError .frame
  | .failure e => .error (.transport e)
  | .exhausted => .error (.transport .closed)

/-- A frame that can be received and is a start, with a payload or without. -/
def isStart (capacity : ℕ) (s : Segment) : Bool :=
  match s.ending, Packet.decode (s.body ++ [0]) with
  | .terminator, .ok p => s.body.length ≤ capacity - 1 ∧ p.cmd = Command.start.byte
  | _, _ => false

/-- The receiver behind the segment. -/
def receiver (capacity : ℕ) (s : Segment) : Receiver capacity :=
  match s.ending with
  | .terminator => (Receiver.ended s.body).take.2
  | _ => .fresh

lemma isStart_iff (capacity : ℕ) (s : Segment) :
    s.isStart capacity = true ↔ ∃ p, s.result capacity = .ok p ∧ p.cmd = Command.start.byte := by
  rcases s with ⟨body, _ | e | _⟩
  · by_cases hfits : body.length ≤ capacity - 1
    · have hshort : ¬ capacity - 1 < body.length := by omega
      cases hdecode : Packet.decode (body ++ [0]) <;>
        simp [isStart, result, hdecode, hfits, hshort, Except.mapError]
    · have hlong : capacity - 1 < body.length := by omega
      cases hdecode : Packet.decode (body ++ [0]) <;>
        simp [isStart, result, hdecode, hfits, hlong]
  · simp [isStart, result]
  · simp [isStart, result]

lemma receiver_atStart (capacity : ℕ) (s : Segment) : (s.receiver capacity).AtStart := by
  rw [receiver]
  split
  · rw [Receiver.take_ended]
    split <;> exact .inr rfl
  · exact .inl rfl

end Segment

/-- Nothing is lost by cutting. -/
lemma arrivals_cut (arrivals : List Arrival) :
    (cut arrivals).1.arrivals ++ (cut arrivals).2 = arrivals := by
  induction arrivals with
  | nil => rfl
  | cons x rest ih =>
    cases x with
    | failure e => rfl
    | byte b =>
      rw [cut]
      split
      · next hb => rw [hb]; rfl
      · rw [← congrArg (Arrival.byte b :: ·) ih]
        rfl

theorem arrivals_segments (n : ℕ) (arrivals : List Arrival) :
    (segments n arrivals).flatMap Segment.arrivals ++ behind n arrivals = arrivals := by
  induction n generalizing arrivals with
  | zero => rfl
  | succ n ih =>
    rw [segments, behind, List.flatMap_cons, List.append_assoc, ih, arrivals_cut]

lemma zero_not_mem_cut (arrivals : List Arrival) : 0 ∉ (cut arrivals).1.body := by
  induction arrivals with
  | nil => exact List.not_mem_nil
  | cons x rest ih =>
    cases x with
    | failure e => exact List.not_mem_nil
    | byte b =>
      rw [cut]
      split
      · exact List.not_mem_nil
      · next hb => exact List.not_mem_cons_of_ne_of_not_mem (Ne.symm hb) ih

lemma zero_not_mem_segments {n : ℕ} {arrivals : List Arrival} {s : Segment}
    (h : s ∈ segments n arrivals) : 0 ∉ s.body := by
  induction n generalizing arrivals with
  | zero => exact absurd h List.not_mem_nil
  | succ n ih =>
    obtain rfl | hrest := List.mem_cons.mp h
    · exact zero_not_mem_cut arrivals
    · exact ih hrest

lemma cut_terminated {body : List UInt8} (h : 0 ∉ body) (rest : List Arrival) :
    cut (body.map .byte ++ .byte 0 :: rest) = (⟨body, .terminator⟩, rest) := by
  induction body with
  | nil => rfl
  | cons b body ih =>
    obtain ⟨hb, hbody⟩ := List.ne_and_not_mem_of_not_mem_cons h
    rw [List.map_cons, List.cons_append, cut, if_neg (Ne.symm hb), ih hbody]

lemma length_cut_le (arrivals : List Arrival) :
    (cut arrivals).2.length ≤ arrivals.length - 1 := by
  induction arrivals with
  | nil => exact Nat.le_refl 0
  | cons x rest ih =>
    cases x with
    | failure e => exact Nat.le_refl _
    | byte b =>
      rw [cut, List.length_cons, Nat.add_sub_cancel]
      split
      · exact Nat.le_refl _
      · dsimp only
        omega

/-- As many segments as items at most, and all of them are taken. -/
lemma behind_eq_nil {n : ℕ} {arrivals : List Arrival} (h : arrivals.length ≤ n) :
    behind n arrivals = [] := by
  induction n generalizing arrivals with
  | zero => exact List.length_eq_zero_iff.mp (Nat.le_zero.mp h)
  | succ n ih =>
    have hcut := length_cut_le arrivals
    exact ih (by omega)

namespace Channel

variable {capacity : ℕ}

/-- The receiver may be in the middle of a frame: the induction is on what arrives, and each byte
moves on to the frame's end or into it. -/
lemma receive_within (hcapacity : 0 < capacity) (body : List UInt8) (arrivals : List Arrival) :
    receive (Receiver.within body : Receiver capacity) arrivals =
      let s : Segment := ⟨body ++ (cut arrivals).1.body, (cut arrivals).1.ending⟩
      (s.result capacity, s.receiver capacity, (cut arrivals).2) := by
  induction arrivals generalizing body with
  | nil => rfl
  | cons x rest ih =>
    cases x with
    | failure e => rfl
    | byte b =>
      by_cases hb : b = 0
      · subst hb
        have hlong : capacity - 1 < body.length ↔ ¬ body.length < capacity := by omega
        simp only [receive, Receiver.push_within_zero, Receiver.atBoundary_ended, if_true, cut,
          List.append_nil, Segment.result, Segment.receiver, hlong, Receiver.take_ended]
        split <;> simp [*, Except.mapError]
      · simp only [receive, Receiver.push_within body hb, Receiver.atBoundary_within,
          Bool.false_eq_true, if_false, ih, cut, if_neg hb]
        simp

/-- At a frame boundary a read takes exactly the next segment, and leaves the receiver at a frame
boundary again. -/
theorem read_eq (hcapacity : 0 < capacity) {c : Channel capacity} (hc : c.receiver.AtStart) :
    c.read = ((cut c.line.incoming).1.result capacity,
      ⟨{ c.line with incoming := (cut c.line.incoming).2 },
        (cut c.line.incoming).1.receiver capacity⟩) := by
  have hfresh : receive c.receiver c.line.incoming =
      receive (Receiver.within [] : Receiver capacity) c.line.incoming := by
    rw [Receiver.within_nil hcapacity]
    rcases c.line.incoming with _ | ⟨x, rest⟩
    · rfl
    · cases x with
      | failure e => rfl
      | byte b => rw [receive, receive, Receiver.push_of_atStart hc]
  rw [read, hfresh, receive_within hcapacity]
  rfl

end Channel
end FaultBench.Target
