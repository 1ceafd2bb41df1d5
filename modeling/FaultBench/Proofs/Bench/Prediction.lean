import FaultBench.Proofs.Host.Diagnosis
import FaultBench.Proofs.Profile.Validation
import FaultBench.Proofs.Target.Service

/-! What a host predicts from a profile, and what a target that was built from it does, whatever
its buffers hold and whatever it observes. -/
namespace FaultBench

namespace Workload

/-- The workload with something else in its buffers. -/
def holding (source destination : List UInt8) : Workload → Workload
  | .bufferCopy c => .bufferCopy { c with source, destination }
  | w => w

lemma payloadLength_holding {w : Workload} {source destination : List UInt8}
    (h : ∀ c, w = .bufferCopy c → destination.length = c.size) :
    (w.holding source destination).payloadLength = w.payloadLength := by
  cases w with
  | bufferCopy c => exact h c rfl
  | _ => rfl

/-- What was observed has no part in the size of a diagnostic. -/
lemma length_of_evaluate {w : Workload} {observation : Observation} {diagnostic : Diagnostic}
    (h : w.evaluate observation = .fault diagnostic) :
    diagnostic.bytes.length = w.payloadLength := by
  cases w with
  | bufferCopy c =>
    rw [evaluate] at h
    split at h
    · cases h
    · rw [← Verdict.fault.inj h]
      rfl
  | _ =>
    cases observation with
    | buffers => cases h
    | counter observed =>
      rw [(judge_eq_fault h).1]
      rfl

end Workload

namespace Profile

/-- The buffers before a copy. -/
def CopyBuffers.laidOut (c : CopyBuffers) : BufferCopy :=
  ⟨c.sourceImage, c.destinationImage, c.source, c.destination⟩

lemma buildable_of_validate {p : Profile} (h : p.validate = .ok ()) : p.Buildable := by
  obtain ⟨-, -, -, -, hlimit, -⟩ := rules_of_validate h
  exact (validate_eq_ok_iff hlimit).mp h

end Profile

namespace Target.Channel
open Wire

variable {capacity : ℕ}

lemma write_ne_frame_error (c : Channel capacity) {p : Packet} (hcmd : p.cmd ≠ 0)
    (hfits : p.payload = [] ∨ p.payload.length < capacity) (e : FrameError) :
    (c.write p).result ≠ .error (.frame e) := by
  rw [c.write_eq_send hcmd hfits]
  exact c.send_ne_frame_error _ e

lemma read_startFrame (hroom : 2 ≤ capacity) {c : Channel capacity} (hc : c.receiver.AtStart)
    {rest : List Arrival} (h : c.line.incoming = startFrame ++ rest) :
    c.read.1 = .ok (.bare Command.start.byte) ∧ c.read.2.line.incoming = rest := by
  have hfits : ¬ capacity - 1 < [Command.start.byte].length := by
    rw [List.length_singleton]
    omega
  rw [read_eq (Nat.zero_lt_of_lt hroom) hc, h, Harness.cut_startFrame]
  refine ⟨?_, rfl⟩
  simp only [Segment.result, if_neg hfits]
  rfl

end Target.Channel

namespace Bench
open Target Wire

/-- What a fault-free run does, as predicted from a profile. -/
structure Performs (p : Profile) (k : Workload.Kind) (w : Workload) : Prop where
  /-- A counter that is incremented step by step ends at the predicted value, and a run observes
  this value. -/
  counts (hk : k ≠ .bufferCopy) : ∃ value, p.expectedCounter? k = some value ∧
    w.stepped? = some value ∧ (w.prepare.run {}).1 = .counter value
  /-- The buffers start out as two different images, and the run copies the one over the other. -/
  copies (hk : k = .bufferCopy) : p.expectedCounter? k = none ∧
    p.bufferCopy.sourceImage ≠ p.bufferCopy.destinationImage ∧
    w.prepare = .bufferCopy p.bufferCopy.laidOut ∧ w.prepare.run {} = (.buffers,
      .bufferCopy { p.bufferCopy.laidOut with destination := p.bufferCopy.sourceImage })
  passes : w.verdict {} = .expected

/-- Reports of a fault with `length` bytes, over a channel that has room for one byte more. -/
structure Reports (length : ℕ) (w : Workload) : Prop where
  announced : w.payloadLength = length
  /-- Whatever was observed. -/
  sized {observation : Observation} {diagnostic : Diagnostic}
    (h : w.evaluate observation = .fault diagnostic) : diagnostic.bytes.length = length
  room : 2 ≤ length + 1
  /-- No report is turned down before it is sent. -/
  fits (c : Channel (length + 1)) (observation : Observation) (e : FrameError) :
    (c.write (Harness.report (w.evaluate observation))).result ≠ .error (.frame e)
  hears {c : Channel (length + 1)} (hc : c.receiver.AtStart) {rest : List Arrival}
    (h : c.line.incoming = startFrame ++ rest) :
    c.read.1 = .ok (.bare Command.start.byte) ∧ c.read.2.line.incoming = rest

lemma reports_of_payloadLength {w : Workload} {length : ℕ} (h : w.payloadLength = length)
    (hpos : 0 < length) : Reports length w where
  announced := h
  sized hfault := h ▸ Workload.length_of_evaluate hfault
  room := Nat.succ_le_succ hpos
  fits c observation e := by
    apply c.write_ne_frame_error (Harness.cmd_report_ne_zero _)
    cases hv : w.evaluate observation with
    | expected => exact .inl rfl
    | fault diagnostic =>
      have hlength := Workload.length_of_evaluate hv
      exact .inr (Nat.lt_succ_of_le (Nat.le_of_eq (hlength.trans h)))
  hears hc _ hin := Channel.read_startFrame (Nat.succ_le_succ hpos) hc hin

variable {p : Profile}

lemma performs_countedLoop (h : p.validate = .ok ()) :
    Performs p .countedLoop (.countedLoop p.countedLoop.outer p.countedLoop.inner) where
  counts _ := by
    have hstepped : (Workload.countedLoop p.countedLoop.outer p.countedLoop.inner).stepped? =
        some (Counting.total p.countedLoop.outer p.countedLoop.inner) := by
      rw [Workload.stepped?, Counting.nested_eq, UInt32.zero_add, Workload.increments_product]
    refine ⟨_, Profile.expected?_of_validate h, hstepped, ?_⟩
    exact Workload.run_of_stepped hstepped
  copies hk := by cases hk
  passes := by
    rw [Workload.verdict_countedLoop, UInt32.sub_zero, Workload.judge, if_pos rfl]

lemma performs_unrolled (h : p.validate = .ok ()) :
    Performs p .unrolled (.unrolled p.unrolled.executions) where
  counts _ := by
    obtain ⟨steps, hsteps⟩ := (Profile.buildable_of_validate h).sequence
    have hstepped : (Workload.unrolled p.unrolled.executions).stepped? =
        some p.unrolled.executions := by
      rw [Workload.stepped?, hsteps, Option.map_some, Counting.straight?_eq_some hsteps,
        UInt32.zero_add]
    exact ⟨_, rfl, hstepped, Workload.run_of_stepped hstepped⟩
  copies hk := by cases hk
  passes := by
    rw [Workload.verdict_unrolled, UInt32.sub_zero, Workload.judge, if_pos rfl]

lemma performs_bufferCopy (h : p.validate = .ok ()) {source destination : List UInt8}
    (hsource : source.length = p.bufferCopy.size.toNat)
    (hdestination : destination.length = p.bufferCopy.size.toNat) :
    Performs p .bufferCopy
      (.bufferCopy ⟨source, destination, p.bufferCopy.source, p.bufferCopy.destination⟩) := by
  obtain ⟨-, -, -, -, -, hdiffer⟩ := Profile.rules_of_validate h
  have hprepare : Workload.prepare
      (.bufferCopy ⟨source, destination, p.bufferCopy.source, p.bufferCopy.destination⟩) =
      .bufferCopy p.bufferCopy.laidOut := by
    rw [Workload.prepare, BufferCopy.prepare_eq, hsource, hdestination]
    rfl
  refine ⟨fun hk => absurd rfl hk, fun _ => ⟨rfl, ?_, hprepare, ?_⟩, ?_⟩
  · exact (BufferInit.differsFrom_iff_image_ne _ _ _).mp hdiffer
  · rw [hprepare]
    rfl
  · rw [Workload.verdict, Workload.after, hprepare]
    exact if_pos rfl

/-- Every kind of workload can be built from a valid profile, and whatever is held in its buffers
it performs as predicted and reports in the announced size. -/
theorem predicted (h : p.validate = .ok ()) (k : Workload.Kind) :
    ∃ w, p.workload k = .ok w ∧ ∀ source destination : List UInt8,
      source.length = p.bufferCopy.size.toNat → destination.length = p.bufferCopy.size.toNat →
        Performs p k (w.holding source destination) ∧
          Reports (p.faultPayloadLength k) (w.holding source destination) := by
  obtain ⟨w, hw, -, hlength, hpos⟩ := Profile.workload_of_validate h k
  refine ⟨w, hw, fun source destination hsource hdestination => ⟨?_, ?_⟩⟩
  · cases k with
    | countedLoop =>
      cases hw
      exact performs_countedLoop h
    | unrolled =>
      cases hw
      exact performs_unrolled h
    | bufferCopy =>
      rw [Profile.workload, Profile.new_of_validate h] at hw
      cases hw
      exact performs_bufferCopy h hsource hdestination
  · refine reports_of_payloadLength ?_ (hlength ▸ hpos)
    rw [Workload.payloadLength_holding, hlength]
    rintro c rfl
    cases k with
    | bufferCopy => exact hdestination.trans hlength.symm
    | _ => cases hw

/-- Four bytes over four others, in buffers that hold something else. -/
theorem predicted_four_bytes :
    let p : Profile :=
      { bufferCopy := { size := 4, source := .sequence [1, 2, 3], destination := .fill 0xFF } }
    p.validate = .ok () ∧ ∃ w, p.workload .bufferCopy = .ok w ∧
      (w.holding [9, 9, 9, 9] [7, 7, 7, 7]).prepare = .bufferCopy
        ⟨[1, 2, 3, 0], [255, 255, 255, 255], .sequence [1, 2, 3], .fill 0xFF⟩ ∧
      (w.holding [9, 9, 9, 9] [7, 7, 7, 7]).verdict {} = .expected ∧
      Reports 4 (w.holding [9, 9, 9, 9] [7, 7, 7, 7]) := by
  intro p
  have hbuildable : p.Buildable := ⟨rfl, by decide, ⟨_, rfl⟩, ⟨_, rfl⟩, by decide⟩
  have hvalid : p.validate = .ok () := (Profile.validate_eq_ok_iff (by decide)).mpr hbuildable
  obtain ⟨w, hw, hpredicted⟩ := predicted hvalid .bufferCopy
  obtain ⟨hperforms, hreports⟩ := hpredicted [9, 9, 9, 9] [7, 7, 7, 7] rfl rfl
  obtain ⟨-, -, hprepare, -⟩ := hperforms.copies rfl
  exact ⟨hvalid, w, hw, hprepare, hperforms.passes, hreports⟩

end Bench
end FaultBench
