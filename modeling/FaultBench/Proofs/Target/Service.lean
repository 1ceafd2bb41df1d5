import FaultBench.Proofs.Target.Segment
import FaultBench.Proofs.Target.Trace
import FaultBench.Proofs.Workload.Verdict

/-! A harness on a line that loses nothing: what it sends for a start, what it passes over, and
what it then waits for. -/
namespace FaultBench.Target
open Wire

def sentBytes (events : List Event) : List UInt8 :=
  events.filterMap fun
    | .sent b => some b
    | _ => none

@[simp] lemma sentBytes_nil : sentBytes [] = [] := rfl

@[simp] lemma sentBytes_append (a b : List Event) :
    sentBytes (a ++ b) = sentBytes a ++ sentBytes b :=
  List.filterMap_append

@[simp] lemma sentBytes_map_sent (bytes : List UInt8) : sentBytes (bytes.map .sent) = bytes := by
  induction bytes with
  | nil => rfl
  | cons b rest ih => exact congrArg (b :: ·) ih

@[simp] lemma sentBytes_allSent (flushes : Bool) (bytes : List UInt8) :
    sentBytes (allSent flushes bytes) = bytes := by
  rw [allSent, sentBytes_append, sentBytes_map_sent]
  cases flushes <;> simp [sentBytes]

/-- The frame of a start, as it arrives. -/
def startFrame : List Arrival := (Packet.bare Command.start.byte).encode.map .byte

def ackBytes : List UInt8 := (Packet.bare Command.start.byte).encode

/-- The bytes that answer a start, from the acknowledgment to the report. -/
def answer (v : Verdict) : List UInt8 := ackBytes ++ (Harness.report v).encode

/-- Neither writes nor flushes fail. -/
def Line.Working (l : Line) : Prop := l.writeLimit = none ∧ l.flushFailure = none

lemma Line.Working.transmit {l : Line} (h : l.Working) (bytes : List UInt8) :
    l.transmit bytes = ⟨.ok (), l, allSent l.hasFlush bytes⟩ := by
  obtain ⟨hwrite, hflush⟩ := h
  induction bytes with
  | nil => cases hf : l.hasFlush <;> simp [Line.transmit, Line.flush, hf, hflush, allSent]
  | cons b rest ih =>
    have hb : l.write = .ok l := by rw [Line.write, hwrite]
    simp [Line.transmit, hb, ih, allSent]

namespace Channel

variable {capacity : ℕ} {c : Channel capacity}

lemma send_working (h : c.line.Working) (bytes : List UInt8) :
    c.send bytes = ⟨.ok (), c, allSent c.line.hasFlush bytes⟩ := by
  rw [send, h.transmit]
  rfl

/-- With room for its payload and the checksum, a packet is sent as its frame. -/
lemma write_eq_send (c : Channel capacity) {p : Packet} (hcmd : p.cmd ≠ 0)
    (hfits : p.payload = [] ∨ p.payload.length < capacity) : c.write p = c.send p.encode := by
  have hseal : sealIn capacity p.payload = .ok (sealed p.payload) := by
    obtain hempty | hlt := hfits
    · rw [hempty]
      rfl
    · exact sealIn_of_lt hlt
  rw [write, if_neg hcmd, hseal]
  rfl

lemma write_working (h : c.line.Working) {p : Packet} (hcmd : p.cmd ≠ 0)
    (hfits : p.payload = [] ∨ p.payload.length < capacity) :
    c.write p = ⟨.ok (), c, allSent c.line.hasFlush p.encode⟩ := by
  rw [c.write_eq_send hcmd hfits]
  exact send_working h _

end Channel

namespace Harness

variable {capacity : ℕ} {h : Harness capacity}

lemma cmd_report_ne_zero (v : Verdict) : (report v).cmd ≠ 0 := by
  cases v <;> simp [report, Packet.bare, Command.byte]

/-- The harness can answer: its line works, it is between two frames, and its channel has room for
a start and for every report of its workload. -/
structure Able (h : Harness capacity) : Prop where
  working : h.channel.line.Working
  atStart : h.channel.receiver.AtStart
  room : 2 ≤ capacity
  sized : h.workload.Sized
  fits : h.workload.payloadLength < capacity

def verdict (h : Harness capacity) : Verdict := h.workload.verdict h.disturbance

lemma Able.pos (ha : h.Able) : 0 < capacity := Nat.lt_of_lt_of_le Nat.zero_lt_two ha.room

lemma Able.fits_report (ha : h.Able) :
    (report h.verdict).payload = [] ∨ (report h.verdict).payload.length < capacity := by
  cases hv : h.verdict with
  | expected => exact .inl rfl
  | fault diagnostic =>
    right
    have hlength := Workload.length_diagnostic ha.sized hv
    exact hlength ▸ ha.fits

lemma startUp_able (ha : h.Able) :
    h.startUp.harness = { h with phase := .idle } ∧ sentBytes h.startUp.events = resetMarker := by
  have hsend : h.channel.announceReset = _ := Channel.send_working ha.working resetMarker
  rw [startUp, hsend]
  exact ⟨rfl, sentBytes_allSent _ _⟩

/-- Whatever arrives, a wait for a packet takes one segment off the line, and only a start changes
the phase. -/
lemma listen_eq (hcapacity : 0 < capacity) (hr : h.channel.receiver.AtStart) :
    h.listen.harness = { h with
      channel := h.channel.read.2
      phase := if (cut h.channel.line.incoming).1.isStart capacity then .armed else h.phase } ∧
    h.listen.events = [] ∧ h.listen.outcome = none := by
  have hstart := (cut h.channel.line.incoming).1.isStart_iff capacity
  have hread : h.channel.read.1 = (cut h.channel.line.incoming).1.result capacity := by
    rw [Channel.read_eq hcapacity hr]
  rw [← hread] at hstart
  rw [listen]
  split
  · next e channel hresult =>
    have hnoise : ¬ (cut h.channel.line.incoming).1.isStart capacity = true := by
      rw [hstart, hresult]
      simp
    rw [if_neg hnoise, hresult]
    exact ⟨rfl, rfl, rfl⟩
  · next p channel hresult =>
    rw [hresult] at hstart ⊢
    by_cases hcmd : p.cmd = Command.start.byte
    · rw [if_pos hcmd, if_pos (hstart.mpr ⟨p, rfl, hcmd⟩)]
      exact ⟨rfl, rfl, rfl⟩
    · have hnoise : ¬ (cut h.channel.line.incoming).1.isStart capacity = true := by
        rw [hstart]
        rintro ⟨q, hq, hqcmd⟩
        exact hcmd (Except.ok.inj hq ▸ hqcmd)
      rw [if_neg hcmd, if_neg hnoise]
      exact ⟨rfl, rfl, rfl⟩

lemma acknowledge_able (ha : h.Able) :
    h.acknowledge.harness = { h with phase := .executing } ∧
      h.acknowledge.events = acked h.channel.line.hasFlush := by
  have hwrite : h.channel.acknowledge Command.start.byte = _ :=
    Channel.write_working ha.working (by decide) (.inl rfl)
  rw [acknowledge, hwrite]
  exact ⟨rfl, rfl⟩

@[simp] lemma sentBytes_acked (flushes : Bool) : sentBytes (acked flushes) = ackBytes :=
  sentBytes_allSent _ _

/-- What is seen of a run and its report. -/
def seenRun (h : Harness capacity) : List Event :=
  window ++ allSent h.channel.line.hasFlush (report h.verdict).encode ++
    if h.showsCycles then [indication h.cycles (outcome h.verdict)] else []

lemma execute_able (ha : h.Able) :
    h.execute.harness = { h with
      workload := h.workload.after h.disturbance
      phase := .idle
      cycles := h.cycles + 1 } ∧
    h.execute.events = h.seenRun ∧ h.execute.outcome = some (outcome h.verdict) := by
  have hwrite : h.channel.write (report h.verdict) = _ :=
    Channel.write_working ha.working (cmd_report_ne_zero _) ha.fits_report
  have hexecute : h.execute =
      { harness := { h with
          channel := (h.channel.write (report h.verdict)).channel
          workload := h.workload.after h.disturbance
          phase := .idle
          cycles := h.cycles + 1 }
        outcome := some (outcome h.verdict)
        events := window ++ (h.channel.write (report h.verdict)).events ++
          if h.showsCycles then [indication h.cycles (outcome h.verdict)] else []
        log := complain "response not sent" (h.channel.write (report h.verdict)).result ++
          divergence h.cycles (outcome h.verdict) } := rfl
  rw [hexecute, hwrite]
  exact ⟨rfl, rfl, rfl⟩

@[simp] lemma sentBytes_seenRun (h : Harness capacity) :
    sentBytes h.seenRun = (report h.verdict).encode := by
  rw [seenRun, sentBytes_append, sentBytes_append, sentBytes_allSent]
  cases h.showsCycles <;> cases outcome h.verdict <;> simp [sentBytes, window, indication]

lemma count_ran_seenRun (h : Harness capacity) : h.seenRun.count .ran = 1 := by
  have hsent : (allSent h.channel.line.hasFlush (report h.verdict).encode).count .ran = 0 :=
    Served.count_ran_sending .whole
  rw [seenRun, List.count_append, List.count_append, hsent]
  cases h.showsCycles <;> cases outcome h.verdict <;> simp [window, indication]

/-- Nothing that a serving harness does makes it unable. -/
lemma Able.moved (ha : h.Able) (phase : Phase) (cycles : UInt32) :
    ({ h with phase, cycles } : Harness capacity).Able :=
  ⟨ha.working, ha.atStart, ha.room, ha.sized, ha.fits⟩

lemma Able.received (ha : h.Able) (incoming : List Arrival) {receiver : Receiver capacity}
    (hr : receiver.AtStart) :
    ({ h with channel := ⟨{ h.channel.line with incoming }, receiver⟩ } : Harness capacity).Able :=
  ⟨ha.working, hr, ha.room, ha.sized, ha.fits⟩

lemma Able.disturb (ha : h.Able) (disturbance : Disturbance) :
    ({ h with disturbance } : Harness capacity).Able :=
  ⟨ha.working, ha.atStart, ha.room, ha.sized, ha.fits⟩

lemma Able.after (ha : h.Able) (d : Disturbance) :
    ({ h with workload := h.workload.after d } : Harness capacity).Able :=
  ⟨ha.working, ha.atStart, ha.room, ha.sized.after d, by
    simpa only [Workload.payloadLength_after ha.sized] using ha.fits⟩

/-- What is left on the line behind the first segment. -/
lemma Able.read (ha : h.Able) :
    ({ h with channel := h.channel.read.2 } : Harness capacity).Able ∧
      h.channel.read.2.line.incoming = (cut h.channel.line.incoming).2 := by
  rw [Channel.read_eq ha.pos ha.atStart]
  exact ⟨ha.received _ (Segment.receiver_atStart _ _), rfl⟩

/-- A cycle in which a start arrives and is acknowledged takes three transitions. -/
lemma cycle_of_start (hidle : h.phase = .idle) (harmed : h.listen.harness.phase = .armed)
    (hexecuting : h.listen.harness.acknowledge.harness.phase = .executing) :
    h.cycle = h.listen.andThen fun h => h.acknowledge.andThen execute := by
  have hlisten : h.step = h.listen := by rw [step, hidle]
  have hack : h.listen.harness.step = h.listen.harness.acknowledge := by rw [step, harmed]
  have hrun : h.listen.harness.acknowledge.harness.step =
      h.listen.harness.acknowledge.harness.execute := by rw [step, hexecuting]
  rw [cycle, if_neg (by simp [hidle]), stepUntilIdle, hlisten, if_neg (by simp [harmed])]
  simp only [Progress.andThen, stepUntilIdle, hack, hexecuting, reduceCtorEq, if_false, hrun]

/-- A cycle in which no start arrives takes one. -/
lemma cycle_of_noise (hidle : h.phase = .idle) (hstill : h.listen.harness.phase = .idle) :
    h.cycle = h.listen := by
  have hlisten : h.step = h.listen := by rw [step, hidle]
  rw [cycle, if_neg (by simp [hidle]), stepUntilIdle, hlisten, if_pos hstill]

/-- A start that waits is answered by one cycle, and the harness is able to answer the next. -/
theorem cycle_able (ha : h.Able) (hidle : h.phase = .idle)
    (hstart : (cut h.channel.line.incoming).1.isStart capacity = true) :
    h.cycle.harness = { h with
      channel := h.channel.read.2
      workload := h.workload.after h.disturbance
      cycles := h.cycles + 1 } ∧
    h.cycle.harness.Able ∧
    h.cycle.events = acked h.channel.line.hasFlush ++ h.seenRun ∧
    h.cycle.outcome = some (outcome h.verdict) := by
  obtain ⟨harmed, hquiet, -⟩ := listen_eq ha.pos ha.atStart
  rw [if_pos hstart] at harmed
  have ha' := ha.read.1
  obtain ⟨hexecuting, hack⟩ := acknowledge_able (ha'.moved .armed h.cycles)
  obtain ⟨hdone, hreport, houtcome⟩ := execute_able (ha'.moved .executing h.cycles)
  rw [cycle_of_start hidle (by rw [harmed]) (by rw [harmed, hexecuting])]
  simp only [Progress.andThen, harmed, hquiet, hexecuting, hack, hdone, hreport, houtcome,
    List.nil_append]
  exact ⟨by rw [hidle], (ha'.after h.disturbance).moved .idle _, rfl, rfl⟩

/-- Whatever else arrives is passed over by one cycle, of which nothing is seen. -/
theorem cycle_noise (ha : h.Able) (hidle : h.phase = .idle)
    (hnoise : (cut h.channel.line.incoming).1.isStart capacity = false) :
    h.cycle.harness = { h with channel := h.channel.read.2 } ∧ h.cycle.events = [] ∧
      h.cycle.outcome = none := by
  obtain ⟨hstill, hquiet, houtcome⟩ := listen_eq ha.pos ha.atStart
  rw [if_neg (by simp [hnoise])] at hstill
  rw [cycle_of_noise hidle (by rw [hstill, hidle])]
  exact ⟨hstill, hquiet, houtcome⟩

/-- A cycle takes one segment, and leaves a harness that is ready for the next and judges its runs
as before. -/
theorem cycle_takes (ha : h.Able) (hidle : h.phase = .idle) :
    h.cycle.harness.Able ∧ h.cycle.harness.phase = .idle ∧
      h.cycle.harness.channel.line.incoming = (cut h.channel.line.incoming).2 ∧
      ∀ d, h.cycle.harness.workload.verdict d = h.workload.verdict d := by
  cases hstart : (cut h.channel.line.incoming).1.isStart capacity with
  | true =>
    obtain ⟨hnext, hable, -⟩ := cycle_able ha hidle hstart
    refine ⟨hable, ?_⟩
    rw [hnext]
    exact ⟨hidle, ha.read.2, fun d => Workload.verdict_after ha.sized h.disturbance d⟩
  | false =>
    obtain ⟨hnext, -⟩ := cycle_noise ha hidle hstart
    rw [hnext]
    exact ⟨ha.read.1, hidle, ha.read.2, fun _ => rfl⟩

lemma cut_startFrame (rest : List Arrival) :
    cut (startFrame ++ rest) = (⟨[Command.start.byte], .terminator⟩, rest) := by
  have hbody : 0 ∉ [Command.start.byte] := by decide
  exact cut_terminated hbody rest

lemma isStart_startFrame (hroom : 2 ≤ capacity) :
    (⟨[Command.start.byte], .terminator⟩ : Segment).isStart capacity = true := by
  have hfits : 1 ≤ capacity - 1 := by omega
  simp [Segment.isStart, Packet.decode, Packet.bare, hfits]

lemma listen_startFrame (ha : h.Able) {rest : List Arrival}
    (hin : h.channel.line.incoming = startFrame ++ rest) :
    h.listen.harness = { h with channel := h.channel.read.2, phase := .armed } ∧
      h.listen.events = [] ∧ h.channel.read.2.line.incoming = rest := by
  obtain ⟨harmed, hquiet, -⟩ := listen_eq ha.pos ha.atStart
  have hrest := ha.read.2
  rw [hin, cut_startFrame] at harmed hrest
  rw [if_pos (isStart_startFrame ha.room)] at harmed
  exact ⟨harmed, hquiet, hrest⟩

end Harness

/-- What is sent of an answer before the run that it answers is over. -/
def Phase.pending : Phase → List UInt8
  | .executing => ackBytes
  | _ => []

/-- Whether a start was taken that no verdict answers yet. -/
def Phase.begun : Phase → ℕ
  | .armed => 1
  | .executing => 1
  | _ => 0

namespace Harness

variable {capacity : ℕ} {h : Harness capacity} {sent : List UInt8} {verdicts : List Verdict}
  {starts : ℕ}

/-- The verdict on the execution that the next transition is, if it is one. -/
def concluded (h : Harness capacity) : List Verdict :=
  if h.phase = .executing then [h.verdict] else []

/-- A harness that serves one start after the other: since it booted it sent the marker and the
answers to the starts before the ones that still wait. -/
structure Serving (h : Harness capacity) (sent : List UInt8) (verdicts : List Verdict)
    (starts : ℕ) : Prop where
  able : h.Able
  boot : h.phase = .boot → sent = [] ∧ verdicts = []
  booted : h.phase ≠ .boot → sent = resetMarker ++ (verdicts.flatMap answer ++ h.phase.pending)
  queue : ∃ waiting, h.channel.line.incoming = (List.replicate waiting startFrame).flatten ∧
    starts = verdicts.length + h.phase.begun + waiting

namespace Serving

lemma disturb (hs : h.Serving sent verdicts starts) (disturbance : Disturbance) :
    ({ h with disturbance } : Harness capacity).Serving sent verdicts starts :=
  ⟨hs.able.disturb disturbance, hs.boot, hs.booted, hs.queue⟩

/-- One more start waits behind the others. -/
lemma deliver (hs : h.Serving sent verdicts starts) :
    (h.onLine (·.deliver startFrame)).Serving sent verdicts (starts + 1) := by
  obtain ⟨waiting, hin, hcount⟩ := hs.queue
  refine ⟨hs.able.received _ hs.able.atStart, hs.boot, hs.booted, waiting + 1, ?_, ?_⟩
  · change h.channel.line.incoming ++ startFrame = _
    rw [hin, List.replicate_succ', List.flatten_append, List.flatten_singleton]
  · rw [hcount]
    rfl

/-- A transition other than a wait for a packet keeps all of it. -/
theorem step (hs : h.Serving sent verdicts starts)
    (hready : ¬ (h.phase = .idle ∧ h.channel.line.incoming = [])) :
    h.step.harness.Serving (sent ++ sentBytes h.step.events) (verdicts ++ h.concluded) starts := by
  obtain ⟨waiting, hin, hcount⟩ := hs.queue
  have hable := hs.able
  cases hphase : h.phase with
  | boot =>
    obtain ⟨hharness, hevents⟩ := startUp_able hable
    obtain ⟨rfl, rfl⟩ := hs.boot hphase
    rw [Harness.step, hphase, hharness, hevents, concluded, if_neg (by simp [hphase])]
    rw [hphase] at hcount
    exact ⟨hable.moved .idle _, by simp, fun _ => rfl, waiting, hin, hcount⟩
  | idle =>
    obtain _ | waiting := waiting
    · exact absurd ⟨hphase, hin⟩ hready
    · obtain ⟨hharness, hevents, hrest⟩ := listen_startFrame hable hin
      rw [Harness.step, hphase, hharness, hevents, concluded, if_neg (by simp [hphase])]
      have hsent := hs.booted (by simp [hphase])
      rw [hphase] at hcount hsent
      refine ⟨hable.read.1.moved .armed _, by simp, fun _ => ?_, waiting, hrest, ?_⟩
      · simpa [Phase.pending] using hsent
      · simp only [Phase.begun, List.append_nil] at hcount ⊢
        omega
  | armed =>
    obtain ⟨hharness, hevents⟩ := acknowledge_able hable
    rw [Harness.step, hphase, hharness, hevents, concluded, if_neg (by simp [hphase])]
    have hsent := hs.booted (by simp [hphase])
    rw [hphase] at hcount hsent
    refine ⟨hable.moved .executing _, by simp, fun _ => ?_, waiting, hin, ?_⟩
    · simp [hsent, Phase.pending]
    · simpa [Phase.begun] using hcount
  | executing =>
    obtain ⟨hharness, hevents, -⟩ := execute_able hable
    rw [Harness.step, hphase, hharness, hevents, concluded, if_pos hphase]
    have hsent := hs.booted (by simp [hphase])
    rw [hphase] at hcount hsent
    refine ⟨(hable.after h.disturbance).moved .idle _, by simp, fun _ => ?_, waiting, hin, ?_⟩
    · simp [hsent, Phase.pending, answer]
    · simp only [Phase.begun, List.length_append, List.length_singleton] at hcount ⊢
      omega

end Serving
end Harness
end FaultBench.Target
