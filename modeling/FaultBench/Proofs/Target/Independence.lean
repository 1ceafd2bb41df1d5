import FaultBench.Proofs.Target.Trace
import FaultBench.Proofs.Workload.Verdict

/-! What earlier cycles leave in a harness has no part in later ones. Two harnesses with different
pasts are run side by side: they may differ in what their receivers hold of frames that ended and
in the contents of their buffers, nobody sees a difference, and the first run takes away the one in
the buffers. -/
namespace FaultBench.Target
open Wire

namespace Channel

variable {capacity : ℕ}

/-- At a frame boundary it does not matter how the last frame ended. -/
lemma receive_of_atStart {r r' : Receiver capacity} (h : r.AtStart) (h' : r'.AtStart)
    (arrivals : List Arrival) : receive r arrivals = receive r' arrivals := by
  cases arrivals with
  | nil => rfl
  | cons x rest =>
    cases x with
    | failure e => rfl
    | byte b => rw [receive, receive, Receiver.push_of_atStart h, Receiver.push_of_atStart h']

/-- A read goes on to a frame boundary, wherever it began. -/
lemma atStart_receive (r : Receiver capacity) (arrivals : List Arrival) :
    (receive r arrivals).2.1.AtStart := by
  induction arrivals generalizing r with
  | nil => exact .inl rfl
  | cons x rest ih =>
    cases x with
    | failure e => exact .inl rfl
    | byte b =>
      rw [receive]
      dsimp only
      split
      · next hend =>
        right
        cases hpush : r.push b <;> rw [hpush] at hend <;> first | rfl | cases hend
      · exact ih (r.push b)

/-- What was received has no part in what is sent. -/
lemma write_receiver (c : Channel capacity) (r : Receiver capacity) (p : Packet) :
    Channel.write { c with receiver := r } p =
      { c.write p with channel := { (c.write p).channel with receiver := r } } := by
  simp only [write]
  split
  · rfl
  · cases sealIn capacity p.payload <;> rfl

lemma receiver_write (c : Channel capacity) (p : Packet) :
    (c.write p).channel.receiver = c.receiver := by
  obtain ⟨writeLimit, hchannel⟩ := c.channel_write p
  rw [hchannel]

end Channel

lemma Sending.ran_not_mem {flushes : Bool} {bytes : List UInt8} {events : List Event}
    {done : Bool} (h : Sending flushes bytes events done) : .ran ∉ events :=
  List.count_eq_zero.mp (Served.count_ran_sending h)

namespace Harness

variable {capacity : ℕ} {h h' : Harness capacity} {t : List Event}

/-- Harnesses between two reads that differ at most in what they hold of frames that ended and in
their buffers, and not in these either if a run is among what was seen since. -/
inductive Alike (t : List Event) (h : Harness capacity) : Harness capacity → Prop
  | intro {r : Receiver capacity} {w : Workload} (atStart : h.channel.receiver.AtStart)
      (atStart' : r.AtStart) (prepared : h.workload.prepare = w.prepare)
      (rebuilt : .ran ∈ t → h.workload = w) :
      Alike t h { h with channel := { h.channel with receiver := r }, workload := w }

/-- Two developments of which the same is seen, and that end alike. -/
structure AlikeProgress (t : List Event) (p q : Progress capacity) : Prop where
  outcome : p.outcome = q.outcome
  events : p.events = q.events
  log : p.log = q.log
  harness : Alike (t ++ p.events) p.harness q.harness

lemma AlikeProgress.andThen {p q : Progress capacity}
    {next : Harness capacity → Progress capacity} (hpq : AlikeProgress t p q)
    (hnext : ∀ {t h h'}, Alike t h h' → AlikeProgress t (next h) (next h')) :
    AlikeProgress t (p.andThen next) (q.andThen next) := by
  obtain ⟨houtcome, hevents, hlog, hharness⟩ := hnext hpq.harness
  refine ⟨houtcome, ?_, ?_, ?_⟩
  · exact congrArg₂ _ hpq.events hevents
  · exact congrArg₂ _ hpq.log hlog
  · simpa [Progress.andThen] using hharness

namespace Alike

lemma phase_eq (ha : Alike t h h') : h.phase = h'.phase := by
  cases ha
  rfl

lemma workload_eq (ha : Alike t h h') (hran : .ran ∈ t) : h.workload = h'.workload := by
  cases ha with
  | intro _ _ _ hrebuilt => exact hrebuilt hran

/-- Without a run the buffers stay as different as they were. -/
lemma rebuilt_append {w w' : Workload} {events : List Event} (h : .ran ∈ t → w = w')
    (hquiet : .ran ∉ events) : .ran ∈ t ++ events → w = w' := fun hran =>
  h ((List.mem_append.mp hran).resolve_right hquiet)

lemma startUp (ha : Alike t h h') : AlikeProgress t h.startUp h'.startUp := by
  cases ha with
  | intro hr hr' hw hran =>
    have hsent : .ran ∉ (h.channel.send resetMarker).events :=
      (h.channel.sending_send resetMarker).ran_not_mem
    have hquiet : .ran ∉ h.startUp.events := List.not_mem_cons_of_ne_of_not_mem (by simp) hsent
    exact ⟨rfl, rfl, rfl, .intro hr hr' hw (rebuilt_append hran hquiet)⟩

lemma listen (ha : Alike t h h') : AlikeProgress t h.listen h'.listen := by
  cases ha with
  | @intro r w hr hr' hw hran =>
    have hsame : Channel.read { h.channel with receiver := r } = h.channel.read := by
      rw [Channel.read, Channel.read, Channel.receive_of_atStart hr hr']
    have hafter : h.channel.read.2.receiver.AtStart :=
      Channel.atStart_receive h.channel.receiver h.channel.line.incoming
    have hstill := rebuilt_append hran (List.not_mem_nil (a := Event.ran))
    simp only [Harness.listen, hsame]
    rcases hread : h.channel.read with ⟨_ | p, channel⟩
    · rw [hread] at hafter
      exact ⟨rfl, rfl, rfl, .intro hafter hafter hw hstill⟩
    · rw [hread] at hafter
      dsimp only
      split
      · exact ⟨rfl, rfl, rfl, .intro hafter hafter hw hstill⟩
      · exact ⟨rfl, rfl, rfl, .intro hafter hafter hw hstill⟩

lemma acknowledge (ha : Alike t h h') : AlikeProgress t h.acknowledge h'.acknowledge := by
  cases ha with
  | @intro r w hr hr' hw hran =>
    have hquiet : .ran ∉ (h.channel.write (.bare Command.start.byte)).events :=
      (h.channel.sending_write (.bare Command.start.byte)).ran_not_mem
    simp only [Harness.acknowledge, Channel.acknowledge, Channel.write_receiver]
    refine ⟨rfl, rfl, rfl, .intro ?_ hr' hw (rebuilt_append hran hquiet)⟩
    rwa [Channel.receiver_write]

/-- Whatever the buffers held, a run leaves the same in them. -/
lemma execute (ha : Alike t h h') : AlikeProgress t h.execute h'.execute := by
  cases ha with
  | @intro r w hr hr' hw hran =>
    simp only [Harness.execute, ← hw, Channel.write_receiver]
    refine ⟨rfl, rfl, rfl, .intro ?_ hr' rfl fun _ => rfl⟩
    rwa [Channel.receiver_write]

/-- Each of the four transitions shows the same of both. -/
theorem step (ha : Alike t h h') : AlikeProgress t h.step h'.step := by
  rw [Harness.step, Harness.step, ← ha.phase_eq]
  cases h.phase with
  | boot => exact ha.startUp
  | idle => exact ha.listen
  | armed => exact ha.acknowledge
  | executing => exact ha.execute

lemma stepUntilIdle (ha : Alike t h h') (more : ℕ) :
    AlikeProgress t (h.stepUntilIdle more) (h'.stepUntilIdle more) := by
  induction more generalizing t h h' with
  | zero => exact ha.step
  | succ more ih =>
    have hstep := ha.step
    rw [Harness.stepUntilIdle, Harness.stepUntilIdle, ← hstep.harness.phase_eq]
    split
    · exact hstep
    · exact hstep.andThen ih

lemma cycle (ha : Alike t h h') : AlikeProgress t h.cycle h'.cycle := by
  rw [Harness.cycle, Harness.cycle, ← ha.phase_eq]
  split
  · exact ha.step.andThen fun hb => hb.stepUntilIdle 2
  · exact ha.stepUntilIdle 2

/-- So does everything that can be done with both and their lines. -/
theorem apply (ha : Alike t h h') (op : Operation) :
    AlikeProgress t (h.apply op) (h'.apply op) := by
  cases op with
  | step => exact ha.step
  | cycle => exact ha.cycle
  | _ =>
    cases ha with
    | intro hr hr' hw hran =>
      exact ⟨rfl, rfl, rfl, .intro hr hr' hw (rebuilt_append hran List.not_mem_nil)⟩

theorem perform (ha : Alike t h h') (ops : List Operation) :
    AlikeProgress t (h.perform ops) (h'.perform ops) := by
  induction ops generalizing t h h' with
  | nil => exact ⟨rfl, rfl, rfl, by simpa [Harness.perform] using ha⟩
  | cons op ops ih => exact (ha.apply op).andThen ih

end Alike

/-- What a harness with this workload can come to, on any line and after any past. -/
def Reached (w : Workload) (shows : Bool) (h : Harness capacity) : Prop :=
  ∃ line d past, h = ((new line w d shows).perform past).harness

/-- What every past leaves as it was: the receiver between two frames, and buffers that will be
prepared as those of a new harness are. -/
structure Prepared (w : Workload) (h : Harness capacity) : Prop where
  atStart : h.channel.receiver.AtStart
  sized : h.workload.Sized
  prepared : h.workload.prepare = w.prepare

namespace Prepared

variable {w : Workload}

lemma step (hp : Prepared w h) : Prepared w h.step.harness := by
  obtain ⟨hstart, hsized, hprepared⟩ := hp
  rw [Harness.step]
  cases h.phase with
  | boot =>
    exact ⟨hstart, hsized, hprepared⟩
  | idle =>
    have hafter : h.channel.read.2.receiver.AtStart :=
      Channel.atStart_receive h.channel.receiver h.channel.line.incoming
    simp only [Harness.listen]
    split
    · next hread =>
      rw [hread] at hafter
      exact ⟨hafter, hsized, hprepared⟩
    · next hread =>
      rw [hread] at hafter
      split <;> exact ⟨hafter, hsized, hprepared⟩
  | armed =>
    exact ⟨by rwa [Harness.acknowledge, Channel.acknowledge, Channel.receiver_write], hsized,
      hprepared⟩
  | executing =>
    exact ⟨by rwa [Harness.execute, Channel.receiver_write], hsized.after h.disturbance,
      (Workload.prepare_after hsized h.disturbance).trans hprepared⟩

lemma around {op : Operation} (hop : op.isCall = false) (hp : Prepared w h) :
    Prepared w (h.apply op).harness := by
  obtain ⟨hstart, hsized, hprepared⟩ := hp
  cases op <;> first | exact ⟨hstart, hsized, hprepared⟩ | cases hop

theorem lasting : Lasting fun (h : Harness capacity) _ => Prepared w h := ⟨step, around⟩

lemma new (hw : w.Sized) (line : Line) (d : Disturbance) (shows : Bool) :
    Prepared w (new line w d shows : Harness capacity) := ⟨.inl rfl, hw, rfl⟩

end Prepared

lemma Reached.prepared {w : Workload} {shows : Bool} (hw : w.Sized) (hr : Reached w shows h) :
    Prepared w h ∧ h.showsCycles = shows := by
  obtain ⟨line, d, past, rfl⟩ := hr
  have hnew : Traced line.hasFlush shows (new line w d shows : Harness capacity) [] :=
    traced_new line w d shows
  have htraced := Traced.lasting.perform past hnew
  exact ⟨Prepared.lasting.perform past (t := []) (.new hw line d shows), htraced.shows_eq⟩

lemma Alike.of_prepared {w : Workload} (hp : Prepared w h) (hp' : Prepared w h')
    (hline : h.channel.line = h'.channel.line) (hdisturbance : h.disturbance = h'.disturbance)
    (hshows : h.showsCycles = h'.showsCycles) (hphase : h.phase = h'.phase)
    (hcycles : h.cycles = h'.cycles) : Alike [] h h' := by
  obtain ⟨⟨line, r⟩, w, d, shows, phase, cycles⟩ := h
  obtain ⟨⟨_, r'⟩, w', _, _, _, _⟩ := h'
  cases hline
  cases hdisturbance
  cases hshows
  cases hphase
  cases hcycles
  exact .intro hp.atStart hp'.atStart (hp.prepared.trans hp'.prepared.symm)
    fun hran => absurd hran List.not_mem_nil

/-- Two harnesses of one configuration, whatever their pasts, that wait for a start with the same
cycle count, the same line and the same disturbance never differ again in anything that is seen,
and from the first run on not in their buffers either. -/
theorem history_independent {w : Workload} (hw : w.Sized) {shows : Bool} (hr : Reached w shows h)
    (hr' : Reached w shows h') (hidle : h.phase = .idle) (hidle' : h'.phase = .idle)
    (hcycles : h.cycles = h'.cycles) (hdisturbance : h.disturbance = h'.disturbance)
    (hline : h.channel.line = h'.channel.line) (future : List Operation) :
    (h.perform future).events = (h'.perform future).events ∧
      (.ran ∈ (h.perform future).events →
        (h.perform future).harness.workload = (h'.perform future).harness.workload) ∧
      ∀ op, ((h.perform future).harness.apply op).outcome =
          ((h'.perform future).harness.apply op).outcome ∧
        ((h.perform future).harness.apply op).events =
          ((h'.perform future).harness.apply op).events := by
  obtain ⟨hp, hshows⟩ := hr.prepared hw
  obtain ⟨hp', hshows'⟩ := hr'.prepared hw
  have ha : Alike [] h h' := .of_prepared hp hp' hline hdisturbance (hshows.trans hshows'.symm)
    (hidle.trans hidle'.symm) hcycles
  have hfuture := ha.perform future
  refine ⟨hfuture.events, fun hran => hfuture.harness.workload_eq hran, fun op => ?_⟩
  have hop := hfuture.harness.apply op
  exact ⟨hop.outcome, hop.events⟩

/-- On one side a skipped copy into a corrupted buffer, a truncated report, a frame that is too
long and a failure of the line, on the other an undisturbed cycle. The buffers differ then, and no
more after the run that follows. -/
theorem history_independent_rebuilt :
    let w : Workload := .bufferCopy ⟨[0, 0], [0, 0], .fill 1, .sequence [2]⟩
    let line : Line := { incoming := [.byte 0x73, .byte 0] }
    let h : Harness 3 :=
      ⟨⟨line, .fresh⟩, .bufferCopy ⟨[1, 1], [6, 0], .fill 1, .sequence [2]⟩, {}, true, .idle, 1⟩
    let h' : Harness 3 := ⟨⟨line, .complete []⟩,
      .bufferCopy ⟨[1, 1], [1, 1], .fill 1, .sequence [2]⟩, {}, true, .idle, 1⟩
    w.Sized ∧ Reached w true h ∧ Reached w true h' ∧ h.phase = .idle ∧ h'.phase = .idle ∧
      h.cycles = h'.cycles ∧ h.disturbance = h'.disturbance ∧
      h.channel.line = h'.channel.line ∧ h.workload ≠ h'.workload ∧
      (h.perform [.cycle]).events = (h'.perform [.cycle]).events ∧
      (h.perform [.cycle]).harness.workload = (h'.perform [.cycle]).harness.workload := by
  intro w line h h'
  have hw : w.Sized := rfl
  have hr : Reached w true h := ⟨line, { skipCopy := true, corruptions := [(0, 4)] },
    [.step, .failWrites 4 .overrun, .cycle, .repair,
      .deliver [.byte 1, .byte 1, .byte 1, .byte 0, .byte 1, .failure .noise], .cycle, .cycle,
      .disturb {}, .deliver line.incoming], by decide +kernel⟩
  have hr' : Reached w true h' := ⟨line, {}, [.cycle, .deliver line.incoming], by decide +kernel⟩
  have hsame := history_independent hw hr hr' rfl rfl rfl rfl rfl [.cycle]
  have hran : .ran ∈ (h.perform [.cycle]).events := by decide +kernel
  exact ⟨hw, hr, hr', rfl, rfl, rfl, rfl, rfl, by decide +kernel, hsame.1, hsame.2.1 hran⟩

end Harness
end FaultBench.Target
