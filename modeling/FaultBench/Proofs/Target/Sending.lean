import FaultBench.Proofs.Wire.Frame
import FaultBench.Target.Channel

/-! What can be seen of bytes that are sent over a line whose writes and flushes may fail. -/
namespace FaultBench.Target
open Wire

/-- What is seen of bytes that all left the transmitter. A line without a flush of its own shows
no flush. -/
def allSent (flushes : Bool) (bytes : List UInt8) : List Event :=
  bytes.map .sent ++ if flushes then [.flushed] else []

/-- The events of a transmission and whether it succeeded. Only a flush can fail behind the last
byte. -/
inductive Sending (flushes : Bool) (bytes : List UInt8) : List Event → Bool → Prop
  | stopped (n : ℕ) (h : n < bytes.length ∨ flushes) :
    Sending flushes bytes ((bytes.take n).map .sent) false
  | whole : Sending flushes bytes (allSent flushes bytes) true

namespace Sending

variable {flushes : Bool} {bytes : List UInt8} {events : List Event} {done : Bool}

lemma cons (b : UInt8) (h : Sending flushes bytes events done) :
    Sending flushes (b :: bytes) (.sent b :: events) done := by
  cases h with
  | stopped n hn =>
    have hn' : n + 1 < (b :: bytes).length ∨ flushes := hn.imp_left Nat.succ_lt_succ
    simpa using stopped (n + 1) hn'
  | whole => exact whole

lemma eq_allSent (h : Sending flushes bytes events true) : events = allSent flushes bytes := by
  cases h
  rfl

/-- Nothing is seen but bytes and flushes. -/
lemma mem (h : Sending flushes bytes events done) {e : Event} (he : e ∈ events) :
    e = .flushed ∨ ∃ b, e = .sent b := by
  cases h with
  | stopped n _ =>
    obtain ⟨b, -, rfl⟩ := List.mem_map.mp he
    exact .inr ⟨b, rfl⟩
  | whole =>
    rw [allSent, List.mem_append] at he
    obtain he | he := he
    · obtain ⟨b, -, rfl⟩ := List.mem_map.mp he
      exact .inr ⟨b, rfl⟩
    · cases flushes <;> simp at he
      exact .inl he

end Sending

namespace Line

@[simp] lemma line_flush (l : Line) : l.flush.line = l := by
  rw [flush]
  split
  · split <;> rfl
  · rfl

lemma eq_of_write {l m : Line} (h : l.write = .ok m) :
    m = { l with writeLimit := m.writeLimit } := by
  rw [write] at h
  split at h <;> cases h <;> rfl

/-- A transmission changes nothing of a line but how many more bytes it accepts. -/
theorem line_transmit (l : Line) (bytes : List UInt8) :
    ∃ writeLimit, (l.transmit bytes).line = { l with writeLimit } := by
  induction bytes generalizing l with
  | nil => exact ⟨l.writeLimit, l.line_flush⟩
  | cons b rest ih =>
    rw [transmit]
    split
    · exact ⟨l.writeLimit, rfl⟩
    · next m hm =>
      obtain ⟨writeLimit, hrest⟩ := ih m
      exact ⟨writeLimit, by rw [hrest, eq_of_write hm]⟩

lemma sending_flush (l : Line) :
    Sending l.hasFlush [] l.flush.events l.flush.result.isOk := by
  rw [flush]
  split
  · next h =>
    rw [h]
    split
    · exact .whole
    · exact .stopped 0 (.inr rfl)
  · next h =>
    rw [eq_false_of_ne_true h]
    exact .whole

theorem sending_transmit (l : Line) (bytes : List UInt8) :
    Sending l.hasFlush bytes (l.transmit bytes).events (l.transmit bytes).result.isOk := by
  induction bytes generalizing l with
  | nil => exact l.sending_flush
  | cons b rest ih =>
    rw [transmit]
    split
    · exact Sending.stopped 0 (.inl (Nat.zero_lt_succ _))
    · next m hm =>
      have hflush : m.hasFlush = l.hasFlush := by rw [eq_of_write hm]
      rw [← hflush]
      exact (ih m).cons b

end Line

namespace Channel

variable {capacity : ℕ}

@[simp] lemma isOk_send (c : Channel capacity) (bytes : List UInt8) :
    (c.send bytes).result.isOk = (c.line.transmit bytes).result.isOk := by
  simp only [send]
  cases (c.line.transmit bytes).result <;> rfl

lemma ok_send_iff (c : Channel capacity) (bytes : List UInt8) :
    (c.send bytes).result = .ok () ↔ (c.line.transmit bytes).result = .ok () := by
  rw [send]
  cases (c.line.transmit bytes).result <;> simp [Except.mapError]

/-- Only the line can fail what is being sent. -/
lemma send_ne_frame_error (c : Channel capacity) (bytes : List UInt8) (e : FrameError) :
    (c.send bytes).result ≠ .error (.frame e) := by
  rw [send]
  cases (c.line.transmit bytes).result <;> simp [Except.mapError]

lemma sending_send (c : Channel capacity) (bytes : List UInt8) :
    Sending c.line.hasFlush bytes (c.send bytes).events (c.send bytes).result.isOk := by
  rw [isOk_send]
  exact c.line.sending_transmit bytes

/-- A packet that has no frame in this channel is a transmission that stopped at its start. -/
theorem sending_write (c : Channel capacity) (p : Packet) :
    Sending c.line.hasFlush p.encode (c.write p).events (c.write p).result.isOk := by
  rw [write]
  split
  · exact Sending.stopped 0 (.inl (Nat.zero_lt_succ _))
  · split
    · exact Sending.stopped 0 (.inl (Nat.zero_lt_succ _))
    · next block hblock =>
      have hsealed : block = sealed p.payload := by
        rw [sealIn] at hblock
        split at hblock <;> cases hblock
        rfl
      rw [hsealed]
      exact c.sending_send _

/-- Whether it succeeds or not, a send has no part in what is received. -/
lemma channel_send (c : Channel capacity) (bytes : List UInt8) :
    ∃ writeLimit, (c.send bytes).channel = { c with line := { c.line with writeLimit } } := by
  obtain ⟨writeLimit, hline⟩ := c.line.line_transmit bytes
  exact ⟨writeLimit, congrArg (fun line => { c with line }) hline⟩

theorem channel_write (c : Channel capacity) (p : Packet) :
    ∃ writeLimit, (c.write p).channel = { c with line := { c.line with writeLimit } } := by
  rw [write]
  split
  · exact ⟨c.line.writeLimit, rfl⟩
  · split
    · exact ⟨c.line.writeLimit, rfl⟩
    · exact c.channel_send _

lemma hasFlush_send (c : Channel capacity) (bytes : List UInt8) :
    (c.send bytes).channel.line.hasFlush = c.line.hasFlush := by
  obtain ⟨writeLimit, hchannel⟩ := c.channel_send bytes
  rw [hchannel]

@[simp] lemma hasFlush_write (c : Channel capacity) (p : Packet) :
    (c.write p).channel.line.hasFlush = c.line.hasFlush := by
  obtain ⟨writeLimit, hchannel⟩ := c.channel_write p
  rw [hchannel]

@[simp] lemma hasFlush_read (c : Channel capacity) : c.read.2.line.hasFlush = c.line.hasFlush := rfl

end Channel
end FaultBench.Target
