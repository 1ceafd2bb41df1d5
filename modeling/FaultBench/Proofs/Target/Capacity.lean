import FaultBench.Proofs.Target.Reading
import FaultBench.Proofs.Target.Writing
import FaultBench.Proofs.Wire.Length

/-! Which buffers are large enough. The length of a payload alone bounds the buffer that receives
it, whatever its bytes are; and a channel can send on every packet that it received. -/
namespace FaultBench.Target
open Wire

namespace Segment

/-- A read gives a packet if the segment is a frame that fits and can be read. -/
lemma result_eq_ok_iff {capacity : ℕ} {s : Segment} {p : Packet} :
    s.result capacity = .ok p ↔ s.ending = .terminator ∧ s.body.length ≤ capacity - 1 ∧
      Packet.decode (s.body ++ [0]) = .ok p := by
  rcases s with ⟨body, _ | e | _⟩
  · by_cases hfits : body.length ≤ capacity - 1
    · have hshort : ¬ capacity - 1 < body.length := by omega
      cases hdecode : Packet.decode (body ++ [0]) <;>
        simp [result, hdecode, hfits, hshort, Except.mapError]
    · have hlong : capacity - 1 < body.length := by omega
      simp [result, hlong, hfits]
  · simp [result]
  · simp [result]

end Segment

namespace Channel

variable {capacity : ℕ}

/-- Between its calls the receiver of a channel stands at a frame boundary. -/
lemma atStart_after (hcapacity : 0 < capacity) {c : Channel capacity} (hc : c.receiver.AtStart)
    (accesses : List Access) : (c.after accesses).receiver.AtStart := by
  induction accesses generalizing c with
  | nil => exact hc
  | cons a accesses ih =>
    have hnext : (c.access a).2.receiver.AtStart := by
      by_cases ha : a = .read
      · subst ha
        change c.read.2.receiver.AtStart
        rw [read_eq hcapacity hc]
        exact Segment.receiver_atStart capacity _
      · obtain ⟨-, writeLimit, flushFailure, hchannel⟩ := c.access_of_ne_read ha
        rwa [hchannel]
    exact ih hnext

/-- What is read fits the buffer with its terminator, so it leaves room for a checksum. -/
lemma framed_of_read (hcapacity : 0 < capacity) {c : Channel capacity} (hc : c.receiver.AtStart)
    {p : Packet} (h : c.read.1 = .ok p) : Framed capacity p := by
  rw [read_eq hcapacity hc] at h
  obtain ⟨-, hfits, hdecode⟩ := Segment.result_eq_ok_iff.mp h
  have hframe : IsFrame ((cut c.line.incoming).1.body ++ [0]) :=
    ⟨_, rfl, zero_not_mem_cut c.line.incoming⟩
  obtain ⟨hcmd, -⟩ := Spelling.exists_writes hframe hdecode
  refine ⟨hcmd, ?_⟩
  by_cases hpayload : p.payload = []
  · exact .inl hpayload
  · right
    have hlength : ((cut c.line.incoming).1.body ++ [0]).length =
        (cut c.line.incoming).1.body.length + 1 := List.length_append
    have hsent := (Packet.length_encode hpayload).1
    obtain ⟨-, hbound⟩ | ⟨-, hbound⟩ := length_of_decode hframe hdecode hpayload <;> omega

/-- A packet that has a frame is turned down only by the line. -/
lemma write_of_framed (c : Channel capacity) {p : Packet} (h : Framed capacity p) :
    (∀ e, (c.write p).result ≠ .error (.frame e)) ∧
      (c.line.Working → (c.write p).result = .ok ()) := by
  constructor
  · intro e
    rw [c.write_eq_send h.1 h.2]
    exact c.send_ne_frame_error _ e
  · intro hworking
    rw [write_working hworking h.1 h.2]

end Channel

/-- The frame of a packet is four bytes longer than its payload, and one more for every 254 bytes
at most, as it is where no zero is stuffed. A frame from which the packet is read is four bytes
longer than its payload too, unless its last run takes in the terminator, one byte shorter than the
frame that is sent, and that one has no byte to spare. So the length of a payload bounds the buffer
that receives it, and what a channel has received it can send. -/
theorem buffers_suffice (p : Packet) :
    (p.payload ≠ [] →
      p.payload.length + 4 ≤ p.encode.length ∧
        p.encode.length ≤ p.payload.length + 4 + p.payload.length / 254 ∧
        (0 ∉ sealed p.payload →
          p.encode.length = p.payload.length + 4 + p.payload.length / 254)) ∧
    (∀ bytes, IsFrame bytes → Packet.decode bytes = .ok p → p.payload ≠ [] →
      (p.payload.length ≤ bytes.length - 4 ↔
        ¬ (Spelling.overrun.Writes p bytes ∧ p.encode.length = p.payload.length + 4)) ∧
      (Spelling.overrun.Writes p bytes → bytes.length + 1 = p.encode.length)) ∧
    (∀ (capacity : ℕ) (r : Receiver capacity), r.AtStart → p.cmd ≠ 0 →
      p.payload ≠ [] → p.payload.length + 4 + p.payload.length / 254 ≤ capacity →
        (r.stepAll p.encode).1 = List.replicate (p.encode.length - 1) false ++ [true] ∧
          (r.stepAll p.encode).2.take.1 = .ok p) ∧
    ∀ (capacity : ℕ) (line : Line) (accesses : List Access), 2 ≤ capacity →
      (({ line } : Channel capacity).after accesses).read.1 = .ok p →
        ∀ c : Channel capacity, (∀ e, (c.write p).result ≠ .error (.frame e)) ∧
          (c.line.Working → (c.write p).result = .ok ()) := by
  refine ⟨fun hpayload => ?_, fun bytes hframe hdecode hpayload => ?_, ?_, ?_⟩
  · rw [Packet.sealed_eq_data hpayload]
    exact Packet.length_encode hpayload
  · have hpositive : 0 < p.payload.length := List.length_pos_of_ne_nil hpayload
    have hsent := (Packet.length_encode hpayload).1
    obtain ⟨hother, hlength⟩ | ⟨hoverrun, hlength⟩ := length_of_decode hframe hdecode hpayload
    · refine ⟨iff_of_true ?_ fun h => hother h.1, fun h => absurd h hother⟩
      omega
    · refine ⟨?_, fun _ => hlength⟩
      rw [and_iff_right hoverrun]
      omega
  · intro capacity r hr hcmd hpayload hcapacity
    obtain ⟨-, hlength, -⟩ := Packet.length_encode hpayload
    obtain ⟨body, hbody, hz⟩ := p.isFrame_encode hcmd
    have hfits : body.length < capacity := by
      rw [hbody, List.length_append, List.length_singleton] at hlength
      omega
    obtain ⟨hanswers, htaken⟩ := Receiver.take_stepAll_frame hr hz (by omega : 0 < capacity)
    rw [if_pos hfits, ← hbody, p.decode_encode] at htaken
    rw [← hbody] at hanswers
    refine ⟨?_, htaken⟩
    rw [hanswers, hbody, List.length_append, List.length_singleton, Nat.add_sub_cancel]
  · intro capacity line accesses hcapacity hread c
    have hpos : 0 < capacity := by omega
    have hnew : ({ line } : Channel capacity).receiver.AtStart := .inl rfl
    have hframed := Channel.framed_of_read hpos (Channel.atStart_after hpos hnew accesses) hread
    exact c.write_of_framed hframed

/-- A payload of 254 bytes needs a second code; and a frame that takes in its terminator, shorter
than the one that is sent, is read in a buffer that it fills. -/
theorem buffers_suffice_full :
    let p : Packet := ⟨0x66, 0x01 :: List.replicate 253 0x4C⟩
    let bytes : List UInt8 := [0xCF, 0x05, 0xFF, 0xFF, 0x39, 0]
    let q : Packet := ⟨0xCF, [0xFF, 0xFF, 0x39]⟩
    let line : Line := { incoming := bytes.map .byte }
    p.payload ≠ [] ∧ 0 ∉ sealed p.payload ∧ p.encode.length = 259 ∧
      ((.overran : Receiver 259).stepAll p.encode).2.take.1 = .ok p ∧
      IsFrame bytes ∧ Packet.decode bytes = .ok q ∧ bytes.length + 1 = q.encode.length ∧
      (({ line } : Channel 6).after []).read.1 = .ok q ∧
      (({ line } : Channel 6).write q).result = .ok () := by
  intro p bytes q line
  obtain ⟨hlength, -, hreceive, -⟩ := buffers_suffice p
  obtain ⟨-, hshort, -, hsend⟩ := buffers_suffice q
  have hpayload : p.payload ≠ [] := List.cons_ne_nil _ _
  have hcount : p.payload.length = 254 := by
    rw [List.length_cons, List.length_replicate]
  have hz : 0 ∉ sealed p.payload := by
    rw [Packet.sealed_eq_data hpayload, Packet.data, checksum_steady, List.mem_append,
      List.mem_cons, List.mem_replicate]
    decide
  have hfull := (hlength hpayload).2.2 hz
  rw [hcount] at hfull
  have hfits : p.payload.length + 4 + p.payload.length / 254 ≤ 259 := by
    omega
  have hreceived := hreceive 259 .overran (.inr rfl) (by decide) hpayload hfits
  have hframe : IsFrame bytes := ⟨[0xCF, 0x05, 0xFF, 0xFF, 0x39], rfl, by decide⟩
  have hdecode : Packet.decode bytes = .ok q := by decide +kernel
  have hspare : bytes.length + 1 = q.encode.length := by
    obtain ⟨hmeets, hoverrun⟩ := hshort bytes hframe hdecode (List.cons_ne_nil _ _)
    have hexceeds : ¬ q.payload.length ≤ bytes.length - 4 := by decide
    exact hoverrun (not_not.mp fun h => hexceeds (hmeets.mpr fun hboth => h hboth.1))
  have hread : (({ line } : Channel 6).after []).read.1 = .ok q := by decide +kernel
  have hsent := (hsend 6 line [] (by decide) hread { line }).2 ⟨rfl, rfl⟩
  exact ⟨hpayload, hz, hfull, hreceived.2, hframe, hdecode, hspare, hread, hsent⟩

/-- A frame whose last run takes in the terminator is only three bytes longer than the payload that
is read from it. -/
theorem overrun_exceeds_frame :
    let bytes : List UInt8 := [0xCF, 0x05, 0xFF, 0xFF, 0x39, 0]
    let p : Packet := ⟨0xCF, [0xFF, 0xFF, 0x39]⟩
    IsFrame bytes ∧ Packet.decode bytes = .ok p ∧ p.payload ≠ [] ∧
      ¬ p.payload.length ≤ bytes.length - 4 := by
  intro bytes p
  have hframe : IsFrame bytes := ⟨[0xCF, 0x05, 0xFF, 0xFF, 0x39], rfl, by decide⟩
  have hdecode : Packet.decode bytes = .ok p := by decide +kernel
  exact ⟨hframe, hdecode, by decide, by decide⟩

end FaultBench.Target
