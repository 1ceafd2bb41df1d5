import FaultBench.Proofs.Target.Operation
import FaultBench.Proofs.Target.Sending

/-! What can be seen of a harness over its whole life: its boot, then one start after the other,
each of them either not acknowledged and without effect, or acknowledged, run between the edges of
the trigger, reported and shown. -/
namespace FaultBench.Target
open Wire

/-- A complete acknowledgment. -/
def acked (flushes : Bool) : List Event := allSent flushes (Packet.bare Command.start.byte).encode

/-- One run, in a window that the trigger's edges leave to it alone. -/
def window : List Event := [.prepared, .triggerHigh, .ran, .triggerLow]

/-- What the indicator shows of a run with a number. -/
def shown (shows : Bool) (n : ℕ) (v : Verdict) : List Event :=
  if shows then [Harness.indication (UInt32.ofNat n) (Harness.outcome v)] else []

/-- Follows the trigger's level through a trace. There is no level behind a trace in which anything
but the run was seen while the trigger was high, or the run while it was low. -/
def watch (high : Bool) : List Event → Option Bool
  | [] => some high
  | .triggerHigh :: rest => watch true rest
  | .triggerLow :: rest => watch false rest
  | .ran :: rest => if high then watch true rest else none
  | _ :: rest => if high then none else watch false rest

/-- The traces of a harness that is not in the middle of a start, with the number of its runs. -/
inductive Served (flushes shows : Bool) : List Event → ℕ → Prop
  | booted {marker done} (h : Sending flushes resetMarker marker done) :
    Served flushes shows (.triggerLow :: marker) 0
  /-- The acknowledgment failed on its way, and nothing else happened. -/
  | missed {trace n ack} (before : Served flushes shows trace n)
      (h : Sending flushes (Packet.bare Command.start.byte).encode ack false) :
    Served flushes shows (trace ++ ack) n
  | ran {trace n v reply done} (before : Served flushes shows trace n)
      (h : Sending flushes (Harness.report v).encode reply done) :
    Served flushes shows (trace ++ (acked flushes ++ window ++ reply ++ shown shows n v)) (n + 1)

/-- The trace of a harness in any phase. Only a start that was acknowledged and not yet run is
left open. -/
structure Traced (flushes shows : Bool) {capacity : ℕ} (h : Harness capacity)
    (trace : List Event) : Prop where
  flushes_eq : h.channel.line.hasFlush = flushes
  shows_eq : h.showsCycles = shows
  unbooted : h.phase = .boot → trace = [] ∧ h.cycles = 0
  served : h.phase ≠ .boot → ∃ before n, Served flushes shows before n ∧
    h.cycles = UInt32.ofNat n ∧
    trace = before ++ if h.phase = .executing then acked flushes else []

lemma watch_append (high : Bool) (a b : List Event) :
    watch high (a ++ b) = (watch high a).bind (watch · b) := by
  induction a generalizing high with
  | nil => rfl
  | cons e rest ih => cases e <;> cases high <;> simp [watch, ih]

lemma Sending.watch_eq {flushes : Bool} {bytes : List UInt8} {events : List Event} {done : Bool}
    (h : Sending flushes bytes events done) : watch false events = some false := by
  have hmem : ∀ e ∈ events, e = .flushed ∨ ∃ b, e = .sent b := fun _ he => h.mem he
  clear h
  induction events with
  | nil => rfl
  | cons e rest ih =>
    obtain ⟨he, hrest⟩ := List.forall_mem_cons.mp hmem
    obtain rfl | ⟨b, rfl⟩ := he <;> simpa [watch] using ih hrest

lemma watch_acked (flushes : Bool) : watch false (acked flushes) = some false :=
  Sending.whole.watch_eq

lemma watch_shown (shows : Bool) (n : ℕ) (v : Verdict) :
    watch false (shown shows n v) = some false := by
  cases shows <;> cases v <;> rfl

namespace Served

variable {flushes shows : Bool} {trace : List Event} {n : ℕ}

/-- The trigger is high for the runs alone, and low at the end. -/
theorem watch_eq (h : Served flushes shows trace n) : watch false trace = some false := by
  induction h with
  | booted h => exact h.watch_eq
  | missed _ h ih => simp [watch_append, ih, h.watch_eq]
  | ran _ h ih =>
    simp [watch_append, ih, watch_acked, window, watch, h.watch_eq, watch_shown]

lemma count_ran_sending {bytes : List UInt8} {events : List Event} {done : Bool}
    (h : Sending flushes bytes events done) : events.count .ran = 0 := by
  rw [List.count_eq_zero]
  intro hran
  obtain hf | ⟨b, hb⟩ := h.mem hran <;> contradiction

end Served

namespace Harness

variable {capacity : ℕ}

/-- A transition that waits for input shows nothing and changes nothing but the channel and,
if a start arrives, the phase. -/
lemma listen_spec (h : Harness capacity) (hphase : h.phase = .idle) :
    ∃ channel phase, h.listen.harness = { h with channel, phase } ∧
      (phase = .idle ∨ phase = .armed) ∧ channel.line.hasFlush = h.channel.line.hasFlush ∧
      h.listen.events = [] := by
  have hflush : h.channel.read.2.line.hasFlush = h.channel.line.hasFlush := h.channel.hasFlush_read
  rw [listen]
  split
  · next hread => rw [hread] at hflush; exact ⟨_, .idle, by rw [← hphase], .inl rfl, hflush, rfl⟩
  · next hread =>
    rw [hread] at hflush
    split
    · exact ⟨_, .armed, rfl, .inr rfl, hflush, rfl⟩
    · exact ⟨_, .idle, by rw [← hphase], .inl rfl, hflush, rfl⟩

lemma acknowledge_spec (h : Harness capacity) :
    ∃ channel done, h.acknowledge.harness =
        { h with channel, phase := if done then .executing else .idle } ∧
      channel.line.hasFlush = h.channel.line.hasFlush ∧
      Sending h.channel.line.hasFlush (Packet.bare Command.start.byte).encode
        h.acknowledge.events done := by
  refine ⟨(h.channel.acknowledge Command.start.byte).channel,
    (h.channel.acknowledge Command.start.byte).result.isOk, ?_, h.channel.hasFlush_write _,
    h.channel.sending_write _⟩
  rw [acknowledge]
  cases (h.channel.acknowledge Command.start.byte).result <;> rfl

lemma execute_spec (h : Harness capacity) :
    ∃ channel workload v reply done, h.execute.harness =
        { h with channel, workload, phase := .idle, cycles := h.cycles + 1 } ∧
      channel.line.hasFlush = h.channel.line.hasFlush ∧
      Sending h.channel.line.hasFlush (report v).encode reply done ∧
      h.execute.events = window ++ reply ++
        if h.showsCycles then [indication h.cycles (outcome v)] else [] :=
  ⟨_, _, _, _, _, rfl, h.channel.hasFlush_write _, h.channel.sending_write _, rfl⟩

end Harness

namespace Traced

variable {flushes shows : Bool} {capacity : ℕ} {h : Harness capacity} {t : List Event}

lemma startUp (ht : Traced flushes shows h t) (hphase : h.phase = .boot) :
    Traced flushes shows h.startUp.harness (t ++ h.startUp.events) := by
  obtain ⟨rfl, hcycles⟩ := ht.unbooted hphase
  have hsent := h.channel.sending_send resetMarker
  rw [ht.flushes_eq] at hsent
  constructor
  · exact (h.channel.hasFlush_send _).trans ht.flushes_eq
  · exact ht.shows_eq
  · intro hboot
    cases hboot
  · intro _
    exact ⟨_, 0, .booted hsent, hcycles, (List.append_nil _).symm⟩

lemma listen (ht : Traced flushes shows h t) (hphase : h.phase = .idle) :
    Traced flushes shows h.listen.harness (t ++ h.listen.events) := by
  obtain ⟨before, n, hbefore, hcycles, htrace⟩ := ht.served (by simp [hphase])
  obtain ⟨channel, phase, hnext, hphases, hflush, hevents⟩ := h.listen_spec hphase
  rw [hnext, hevents, List.append_nil]
  constructor
  · exact hflush.trans ht.flushes_eq
  · exact ht.shows_eq
  · intro hboot
    obtain rfl | rfl := hphases <;> cases hboot
  · intro _
    refine ⟨before, n, hbefore, hcycles, ?_⟩
    obtain rfl | rfl := hphases <;> simpa [hphase] using htrace

lemma acknowledge (ht : Traced flushes shows h t) (hphase : h.phase = .armed) :
    Traced flushes shows h.acknowledge.harness (t ++ h.acknowledge.events) := by
  obtain ⟨before, n, hbefore, hcycles, htrace⟩ := ht.served (by simp [hphase])
  obtain ⟨channel, done, hnext, hflush, hsent⟩ := h.acknowledge_spec
  have htrace : t = before := by simpa [hphase] using htrace
  rw [ht.flushes_eq] at hsent
  rw [hnext, htrace]
  constructor
  · exact hflush.trans ht.flushes_eq
  · exact ht.shows_eq
  · intro hboot
    cases done <;> cases hboot
  · intro _
    cases done with
    | false => exact ⟨_, n, .missed hbefore hsent, hcycles, by simp⟩
    | true => exact ⟨before, n, hbefore, hcycles, by simp [hsent.eq_allSent, acked]⟩

lemma execute (ht : Traced flushes shows h t) (hphase : h.phase = .executing) :
    Traced flushes shows h.execute.harness (t ++ h.execute.events) := by
  obtain ⟨before, n, hbefore, hcycles, htrace⟩ := ht.served (by simp [hphase])
  obtain ⟨channel, workload, v, reply, done, hnext, hflush, hsent, hevents⟩ := h.execute_spec
  have htrace : t = before ++ acked flushes := by simpa [hphase] using htrace
  rw [ht.flushes_eq] at hsent
  rw [ht.shows_eq, hcycles] at hevents
  rw [hnext, hevents, htrace]
  constructor
  · exact hflush.trans ht.flushes_eq
  · exact ht.shows_eq
  · intro hboot
    cases hboot
  · intro _
    refine ⟨_, n + 1, .ran hbefore hsent, ?_, ?_⟩
    · simp [hcycles, UInt32.ofNat_add]
    · simp [shown]

/-- Each of the four transitions keeps the trace in shape, whatever fails in it. -/
theorem step (ht : Traced flushes shows h t) :
    Traced flushes shows h.step.harness (t ++ h.step.events) := by
  rw [Harness.step]
  split
  · next hphase => exact ht.startUp hphase
  · next hphase => exact ht.listen hphase
  · next hphase => exact ht.acknowledge hphase
  · next hphase => exact ht.execute hphase

lemma around {op : Operation} (hop : op.isCall = false) (ht : Traced flushes shows h t) :
    Traced flushes shows (h.apply op).harness t := by
  obtain ⟨hflushes, hshows, hunbooted, hserved⟩ := ht
  cases op with
  | step => cases hop
  | cycle => cases hop
  | _ => exact ⟨hflushes, hshows, hunbooted, hserved⟩

theorem lasting : Harness.Lasting (@Traced flushes shows capacity) :=
  ⟨step, around⟩

end Traced

namespace Harness

variable {capacity : ℕ}

lemma traced_new (line : Line) (w : Workload) (d : Disturbance) (shows : Bool) :
    Traced line.hasFlush shows (new line w d shows : Harness capacity) [] :=
  ⟨rfl, rfl, fun _ => ⟨rfl, rfl⟩, fun h => absurd rfl h⟩

end Harness
end FaultBench.Target
