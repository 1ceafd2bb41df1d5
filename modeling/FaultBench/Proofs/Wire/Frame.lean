import FaultBench.Proofs.Wire.Stuffing
import FaultBench.Wire.Assembler
import FaultBench.Wire.Receiver

/-! The frame of a packet and its readings: whole, byte by byte without a bound, and byte by byte
into a buffer of limited size. -/
namespace FaultBench.Wire

/-- A row of bytes is one frame: no zero but the last byte. -/
def IsFrame (bytes : List UInt8) : Prop := ∃ body, bytes = body ++ [0] ∧ 0 ∉ body

lemma IsFrame.count_zero {bytes : List UInt8} (h : IsFrame bytes) : bytes.count 0 = 1 := by
  obtain ⟨body, rfl, hz⟩ := h
  simp [List.count_eq_zero_of_not_mem hz]

lemma IsFrame.getLast? {bytes : List UInt8} (h : IsFrame bytes) : bytes.getLast? = some 0 := by
  obtain ⟨body, rfl, -⟩ := h
  simp

lemma sealed_cons (b : UInt8) (rest : List UInt8) :
    sealed (b :: rest) = b :: rest ++ [checksum (b :: rest)] := rfl

lemma sealIn_of_lt {capacity : ℕ} {payload : List UInt8} (h : payload.length < capacity) :
    sealIn capacity payload = .ok (sealed payload) := by
  simp [sealIn, h]

theorem isFrame_frame {cmd : UInt8} (h : cmd ≠ 0) (block : List UInt8) :
    IsFrame (frame cmd block) := by
  cases block with
  | nil => exact ⟨[cmd], rfl, by simpa using Ne.symm h⟩
  | cons b rest =>
    obtain ⟨body, hbody, hz⟩ := Stuffing.stuff_terminated (b :: rest)
    refine ⟨cmd :: body, by simp [frame, hbody], ?_⟩
    simp [hz, Ne.symm h]

namespace Packet

theorem isFrame_encode (p : Packet) (h : p.cmd ≠ 0) : IsFrame p.encode := isFrame_frame h _

lemma opened_sealed (cmd : UInt8) (payload : List UInt8) :
    opened cmd (payload ++ [checksum payload]) = .ok ⟨cmd, payload⟩ := by
  simp [opened]

/-- A frame with a block, which is never its end alone. -/
lemma decode_block {cmd c d : UInt8} {rest : List UInt8}
    (h : (c :: d :: rest).getLast? = some 0) :
    decode (cmd :: c :: d :: rest) =
      match Stuffing.unstuff (c :: d :: rest) with
      | none => .error .malformedBlock
      | some data => opened cmd data := by
  rw [decode, List.getLast?_cons_cons, h]
  · rfl
  · simp
  · simp

lemma decode_stuff {cmd : UInt8} {data : List UInt8} (h : data ≠ []) :
    decode (cmd :: Stuffing.stuff data) = opened cmd data := by
  obtain ⟨body, hbody, -⟩ := Stuffing.stuff_terminated data
  have hdata := Stuffing.unstuff_stuff data
  rw [hbody] at hdata ⊢
  match body with
  | [] => exact absurd (Option.some.inj hdata).symm h
  | [c] =>
    change decode (cmd :: c :: 0 :: []) = _
    rw [decode_block rfl, show Stuffing.unstuff [c, 0] = some data from hdata]
  | c :: d :: body =>
    simp only [List.cons_append] at hdata ⊢
    rw [decode_block (by simp [List.getLast?_cons]), hdata]

theorem decode_encode (p : Packet) : decode p.encode = .ok p := by
  obtain ⟨cmd, payload⟩ := p
  cases payload with
  | nil => rfl
  | cons b rest =>
    change decode (cmd :: Stuffing.stuff (b :: rest ++ [checksum (b :: rest)])) = _
    rw [decode_stuff (by simp)]
    exact opened_sealed cmd (b :: rest)

end Packet

namespace Assembler

/-- The answers to a row of bytes, and the assembler behind them. -/
def pushAll (a : Assembler) :
    List UInt8 → List (Option (Except FrameError Packet)) × Assembler
  | [] => ([], a)
  | b :: rest =>
    let pushed := a.push b
    let later := pushed.2.pushAll rest
    (pushed.1 :: later.1, later.2)

lemma push_zero (a : Assembler) :
    a.push 0 = (some (Packet.decode (a.pending.reverse ++ [0])), {}) := by
  simp [push]

lemma push_of_ne (a : Assembler) {b : UInt8} (h : b ≠ 0) :
    a.push b = (none, ⟨b :: a.pending⟩) := by
  simp [push, h]

/-- The frame is read with the bytes that were pending before it. -/
theorem pushAll_frame (a : Assembler) {body : List UInt8} (h : 0 ∉ body) :
    a.pushAll (body ++ [0]) =
      (List.replicate body.length none ++ [some (Packet.decode (a.pending.reverse ++ body ++ [0]))],
        {}) := by
  induction body generalizing a with
  | nil => simp [pushAll, push_zero]
  | cons b body ih =>
    obtain ⟨hb, hbody⟩ := List.ne_and_not_mem_of_not_mem_cons h
    simp only [List.cons_append, pushAll, push_of_ne a (Ne.symm hb), ih ⟨b :: a.pending⟩ hbody]
    simp [List.replicate_succ]

end Assembler

namespace Receiver

variable {capacity : ℕ}

/-- The answers to a row of bytes, and the receiver behind them. -/
def stepAll (r : Receiver capacity) : List UInt8 → List Bool × Receiver capacity
  | [] => ([], r)
  | b :: rest =>
    let stepped := r.step b
    let later := stepped.2.stepAll rest
    (stepped.1 :: later.1, later.2)

/-- Nothing is held of a frame: the receiver is new or cleared, or the last byte ended a frame,
one that is to be taken, was taken or did not fit. -/
def AtStart (r : Receiver capacity) : Prop := r = fresh ∨ r.atBoundary

lemma push_of_atStart {r : Receiver capacity} (h : r.AtStart) (b : UInt8) :
    r.push b = fresh.push b := by
  obtain rfl | hr := h
  · rfl
  · cases r <;> first | rfl | cases hr

lemma stepAll_of_atStart {r : Receiver capacity} (h : r.AtStart) {bytes : List UInt8}
    (hne : bytes ≠ []) : r.stepAll bytes = fresh.stepAll bytes := by
  cases bytes with
  | nil => exact absurd rfl hne
  | cons b rest => simp only [stepAll, step, push_of_atStart h]

/-- The receiver behind the first bytes of a frame: it holds them or dropped them. -/
def within (body : List UInt8) : Receiver capacity :=
  if body.length < capacity then filling body.reverse else overflowed

/-- The receiver behind the terminator of a frame. -/
def ended (body : List UInt8) : Receiver capacity :=
  if body.length < capacity then complete (body ++ [0]) else overran

lemma within_nil (h : 0 < capacity) : within [] = (fresh : Receiver capacity) := if_pos h

@[simp] lemma atBoundary_within (body : List UInt8) :
    (within body : Receiver capacity).atBoundary = false := by
  rw [within]
  split <;> rfl

@[simp] lemma atBoundary_ended (body : List UInt8) :
    (ended body : Receiver capacity).atBoundary = true := by
  rw [ended]
  split <;> rfl

/-- The first byte without a place decides over the whole frame. -/
lemma push_within (body : List UInt8) {b : UInt8} (h : b ≠ 0) :
    (within body : Receiver capacity).push b = within (body ++ [b]) := by
  by_cases hheld : body.length < capacity
  · simp [within, hheld, push, accept, h]
  · have hlong : ¬ body.length + 1 < capacity := by omega
    simp [within, hheld, hlong, push, h]

lemma push_within_zero (body : List UInt8) :
    (within body : Receiver capacity).push 0 = ended body := by
  by_cases hheld : body.length < capacity <;> simp [within, ended, hheld, push, accept]

lemma push_ended (body : List UInt8) (b : UInt8) :
    (ended body : Receiver capacity).push b = fresh.push b :=
  push_of_atStart (.inr (atBoundary_ended body)) b

lemma take_ended (body : List UInt8) :
    (ended body : Receiver capacity).take =
      if body.length < capacity then (Packet.decode (body ++ [0]), complete [])
      else (.error (.overflow capacity), overran) := by
  rw [ended]
  split <;> rfl

/-- Only the last byte of a frame ends it, and all of its bytes decide what can be taken. -/
theorem stepAll_within (body : List UInt8) {rest : List UInt8} (h : 0 ∉ rest) :
    (within body : Receiver capacity).stepAll (rest ++ [0]) =
      (List.replicate rest.length false ++ [true], ended (body ++ rest)) := by
  induction rest generalizing body with
  | nil => simp [stepAll, step, push_within_zero]
  | cons b rest ih =>
    obtain ⟨hb, hrest⟩ := List.ne_and_not_mem_of_not_mem_cons h
    have hnext := ih (body ++ [b]) hrest
    simp only [List.cons_append, stepAll, step, push_within body (Ne.symm hb), hnext]
    simp [List.replicate_succ]

/-- At a frame boundary only the length of a frame decides whether it can be taken. -/
theorem take_stepAll_frame {r : Receiver capacity} (h : r.AtStart) {body : List UInt8}
    (hz : 0 ∉ body) (hcapacity : 0 < capacity) :
    (r.stepAll (body ++ [0])).1 = List.replicate body.length false ++ [true] ∧
      (r.stepAll (body ++ [0])).2.take.1 =
        if body.length < capacity then Packet.decode (body ++ [0])
        else .error (.overflow capacity) := by
  rw [stepAll_of_atStart h (by simp), ← within_nil hcapacity, stepAll_within [] hz, take_ended,
    List.nil_append]
  refine ⟨rfl, ?_⟩
  split <;> rfl

end Receiver

/-- Every packet survives its frame, whichever way the frame is read; a bounded receiver gives it
out exactly when frame and terminator fit its buffer. -/
theorem frame_round_trip (cmd : UInt8) (payload : List UInt8) (scratch : ℕ) (hcmd : cmd ≠ 0)
    (hscratch : payload.length < scratch) :
    ∃ block, sealIn scratch payload = .ok block ∧
      (frame cmd block).count 0 = 1 ∧ (frame cmd block).getLast? = some 0 ∧
      Packet.decode (frame cmd block) = .ok ⟨cmd, payload⟩ ∧
      Assembler.pushAll {} (frame cmd block) =
        (List.replicate ((frame cmd block).length - 1) none ++ [some (.ok ⟨cmd, payload⟩)], {}) ∧
      ∀ (capacity : ℕ) (r : Receiver capacity), 2 ≤ capacity → r.AtStart →
        (r.stepAll (frame cmd block)).1 =
            List.replicate ((frame cmd block).length - 1) false ++ [true] ∧
          (r.stepAll (frame cmd block)).2.take.1 =
            if (frame cmd block).length ≤ capacity then .ok ⟨cmd, payload⟩
            else .error (.overflow capacity) := by
  have hframe := isFrame_frame hcmd (sealed payload)
  have hdecode : Packet.decode (frame cmd (sealed payload)) = .ok ⟨cmd, payload⟩ :=
    Packet.decode_encode ⟨cmd, payload⟩
  refine ⟨sealed payload, sealIn_of_lt hscratch, hframe.count_zero, hframe.getLast?, hdecode, ?_⟩
  obtain ⟨body, hbody, hz⟩ := hframe
  rw [hbody] at hdecode ⊢
  constructor
  · rw [Assembler.pushAll_frame _ hz]
    simp [hdecode]
  · intro capacity r hcapacity hr
    have htaken := Receiver.take_stepAll_frame hr hz (by omega : 0 < capacity)
    have hlength : (body ++ [0]).length = body.length + 1 := List.length_append
    rw [hdecode] at htaken
    rw [hlength, Nat.add_sub_cancel]
    exact htaken

/-- A payload that ends in a zero, and a buffer one byte too small for its frame. -/
theorem frame_round_trip_counter :
    (0x66 : UInt8) ≠ 0 ∧ [0x6B,0xD0,0x03,0x00].length < 5 ∧
      ∃ block, sealIn 5 [0x6B,0xD0,0x03,0x00] = .ok block ∧
        Packet.decode (frame 0x66 block) = .ok ⟨0x66, [0x6B,0xD0,0x03,0x00]⟩ ∧
        ((.overran : Receiver 7).stepAll (frame 0x66 block)).2.take.1 = .error (.overflow 7) := by
  obtain ⟨block, hseal, -, -, hdecode, -, hreceived⟩ :=
    frame_round_trip 0x66 [0x6B,0xD0,0x03,0x00] 5 (by decide) (by decide)
  refine ⟨by decide, by decide, block, hseal, hdecode, ?_⟩
  have hchecksum : checksum [0x6B,0xD0,0x03,0x00] = 0x27 := by decide +kernel
  have hblock : block = [0x6B,0xD0,0x03,0x00,0x27] := by
    rw [sealIn_of_lt (by decide), sealed_cons, hchecksum] at hseal
    exact (Except.ok.inj hseal).symm
  rw [(hreceived 7 .overran (by decide) (.inr rfl)).2, hblock]
  rfl

end FaultBench.Wire
