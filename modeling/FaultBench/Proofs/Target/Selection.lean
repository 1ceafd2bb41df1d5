import FaultBench.Proofs.Target.Service

/-! Which of all that arrives a harness serves. A cycle takes one segment whatever it is, answers it
if it is a start and passes it over if it is not. -/
namespace FaultBench.Target
open Wire
namespace Harness

variable {capacity : ℕ} {h : Harness capacity}

/-- Serves what arrives, one cycle under each disturbance. -/
def serving (ds : List Disturbance) : List Operation := ds.flatMap fun d => [.disturb d, .cycle]

/-- The starts among what arrives, each with the disturbance of the cycle that takes it. -/
def starts (capacity : ℕ) (arrivals : List Arrival) (ds : List Disturbance) :
    List (Segment × Disturbance) :=
  ((segments ds.length arrivals).zip ds).filter fun x => x.1.isStart capacity

lemma starts_cons (capacity : ℕ) (arrivals : List Arrival) (d : Disturbance)
    (ds : List Disturbance) :
    starts capacity arrivals (d :: ds) =
      (if (cut arrivals).1.isStart capacity then [((cut arrivals).1, d)] else []) ++
        starts capacity (cut arrivals).2 ds := by
  rw [starts, List.length_cons, segments, List.zip_cons_cons, List.filter_cons]
  split <;> rfl

lemma perform_serving_cons (h : Harness capacity) (d : Disturbance) (ds : List Disturbance) :
    (h.perform (serving (d :: ds))).harness =
        ((cycle { h with disturbance := d }).harness.perform (serving ds)).harness ∧
      (h.perform (serving (d :: ds))).events = (cycle { h with disturbance := d }).events ++
        ((cycle { h with disturbance := d }).harness.perform (serving ds)).events :=
  ⟨rfl, rfl⟩

/-- Each cycle takes one segment off the line. -/
theorem perform_serving (ha : h.Able) (hidle : h.phase = .idle) (ds : List Disturbance) :
    (h.perform (serving ds)).harness.Able ∧ (h.perform (serving ds)).harness.phase = .idle ∧
      (h.perform (serving ds)).harness.channel.line.incoming =
        behind ds.length h.channel.line.incoming := by
  induction ds generalizing h with
  | nil => exact ⟨ha, hidle, rfl⟩
  | cons d ds ih =>
    obtain ⟨hable, hidle', hin, -⟩ := cycle_takes (ha.disturb d) hidle
    obtain ⟨hable', hlast, hrest⟩ := ih hable hidle'
    rw [(h.perform_serving_cons d ds).1]
    exact ⟨hable', hlast, hrest.trans (congrArg (behind ds.length) hin)⟩

/-- Of all that arrives the starts are answered, each with the verdict on its own execution. -/
theorem sentBytes_serving (ha : h.Able) (hidle : h.phase = .idle) (ds : List Disturbance) :
    sentBytes (h.perform (serving ds)).events =
      (starts capacity h.channel.line.incoming ds).flatMap
        fun x => answer (h.workload.verdict x.2) := by
  induction ds generalizing h with
  | nil => rfl
  | cons d ds ih =>
    obtain ⟨hable, hidle', hin, hverdict⟩ := cycle_takes (ha.disturb d) hidle
    have hrest := ih hable hidle'
    simp only [hin, hverdict] at hrest
    rw [(h.perform_serving_cons d ds).2, sentBytes_append, hrest, starts_cons, List.flatMap_append]
    congr 1
    cases hstart : (cut h.channel.line.incoming).1.isStart capacity with
    | true =>
      obtain ⟨-, -, hseen, -⟩ := cycle_able (ha.disturb d) hidle hstart
      rw [hseen, sentBytes_append, sentBytes_acked, sentBytes_seenRun]
      simp [answer, verdict]
    | false =>
      obtain ⟨-, hquiet, -⟩ := cycle_noise (ha.disturb d) hidle hstart
      rw [hquiet]
      rfl

/-- The starts are counted, and nothing else is run. -/
theorem count_ran_serving (ha : h.Able) (hidle : h.phase = .idle) (ds : List Disturbance) :
    let starts := (segments ds.length h.channel.line.incoming).countP (Segment.isStart capacity)
    (h.perform (serving ds)).events.count .ran = starts ∧
      (h.perform (serving ds)).harness.cycles = h.cycles + UInt32.ofNat starts := by
  induction ds generalizing h with
  | nil => exact ⟨rfl, by simp [segments, serving, perform]⟩
  | cons d ds ih =>
    obtain ⟨hharness, hevents⟩ := h.perform_serving_cons d ds
    obtain ⟨hable, hidle', hin, -⟩ := cycle_takes (ha.disturb d) hidle
    obtain ⟨hran, hcycles⟩ := ih hable hidle'
    rw [hin] at hran hcycles
    rw [hharness, hevents, List.count_append, hran, hcycles, List.length_cons, segments,
      List.countP_cons]
    cases hstart : (cut h.channel.line.incoming).1.isStart capacity with
    | true =>
      obtain ⟨hnext, -, hseen, -⟩ := cycle_able (ha.disturb d) hidle hstart
      have hacked : (acked h.channel.line.hasFlush).count .ran = 0 :=
        Served.count_ran_sending .whole
      rw [hseen, List.count_append, count_ran_seenRun, hacked, hnext]
      refine ⟨Nat.add_comm _ _, ?_⟩
      rw [if_pos rfl, UInt32.ofNat_add, UInt32.add_assoc]
      exact congrArg (h.cycles + ·) (UInt32.add_comm _ _)
    | false =>
      obtain ⟨hnext, hquiet, -⟩ := cycle_noise (ha.disturb d) hidle hstart
      rw [hquiet, hnext]
      simp

lemma starts_replicate (hroom : 2 ≤ capacity) (ds : List Disturbance) :
    starts capacity (List.replicate ds.length startFrame).flatten ds =
      ds.map fun d => (⟨[Command.start.byte], .terminator⟩, d) := by
  induction ds with
  | nil => rfl
  | cons d ds ih =>
    rw [List.length_cons, List.replicate_succ, List.flatten_cons, starts_cons, cut_startFrame, ih,
      if_pos (isStart_startFrame hroom)]
    rfl

/-- As many starts as wait are answered. -/
theorem sentBytes_serving_starts (ha : h.Able) (hidle : h.phase = .idle) (ds : List Disturbance)
    (hin : h.channel.line.incoming = (List.replicate ds.length startFrame).flatten) :
    sentBytes (h.perform (serving ds)).events = (h.workload.verdicts ds).flatMap answer := by
  rw [sentBytes_serving ha hidle ds, hin, starts_replicate ha.room,
    Workload.verdicts_eq_map ha.sized, List.flatMap_map, List.flatMap_map]

/-- What a cycle makes of the segment that is next on the line. -/
structure Selects (h : Harness capacity) : Prop where
  taken : h.cycle.harness.channel.line.incoming = (cut h.channel.line.incoming).2
  idle : h.cycle.harness.phase = .idle
  outcome : h.cycle.outcome =
    if (cut h.channel.line.incoming).1.isStart capacity then some (outcome h.verdict) else none
  passed : (cut h.channel.line.incoming).1.isStart capacity = false →
    h.cycle.events = [] ∧ h.cycle.harness.cycles = h.cycles

lemma Able.selects (ha : h.Able) (hidle : h.phase = .idle) : h.Selects := by
  obtain ⟨-, hstill, htaken, -⟩ := cycle_takes ha hidle
  refine ⟨htaken, hstill, ?_, fun hnoise => ?_⟩
  · cases hstart : (cut h.channel.line.incoming).1.isStart capacity with
    | true =>
      obtain ⟨-, -, -, houtcome⟩ := cycle_able ha hidle hstart
      exact houtcome
    | false =>
      obtain ⟨-, -, houtcome⟩ := cycle_noise ha hidle hstart
      exact houtcome
  · obtain ⟨hnext, hquiet, -⟩ := cycle_noise ha hidle hnoise
    rw [hnext]
    exact ⟨hquiet, rfl⟩

/-- A booted harness on a line whose writes and flushes work takes what arrives segment by segment,
and each of its cycles selects. So it runs once for every start, and what it sends behind the
marker is the answers to the starts. -/
theorem serves_starts {capacity : ℕ} (hroom : 2 ≤ capacity) {w : Workload} (hsized : w.Sized)
    (hfits : w.payloadLength < capacity) {line : Line} (hline : line.Working)
    (d : Disturbance) (shows : Bool) (ds : List Disturbance) :
    let booted := (new line w d shows : Harness capacity).step
    let served := booted.harness.perform (serving ds)
    let taken := segments ds.length line.incoming
    sentBytes booted.events = resetMarker ∧
      (∀ d', Selects { served.harness with disturbance := d' }) ∧
      served.harness.phase = .idle ∧
      taken.flatMap Segment.arrivals ++ served.harness.channel.line.incoming = line.incoming ∧
      (line.incoming.length ≤ ds.length → served.harness.channel.line.incoming = []) ∧
      served.events.count .ran = taken.countP (Segment.isStart capacity) ∧
      served.harness.cycles = UInt32.ofNat (taken.countP (Segment.isStart capacity)) ∧
      sentBytes served.events =
        (starts capacity line.incoming ds).flatMap fun x => answer (w.verdict x.2) := by
  intro booted served taken
  have hnew : (new line w d shows : Harness capacity).Able :=
    ⟨hline, .inl rfl, hroom, hsized, hfits⟩
  obtain ⟨hbooted, hmarker⟩ : booted.harness = { new line w d shows with phase := .idle } ∧
    sentBytes booted.events = resetMarker := startUp_able hnew
  have hable : booted.harness.Able := hbooted ▸ hnew.moved .idle 0
  have hidle : booted.harness.phase = .idle := by rw [hbooted]
  have hin : booted.harness.channel.line.incoming = line.incoming := by rw [hbooted]; rfl
  obtain ⟨hable', hlast, hrest⟩ := perform_serving hable hidle ds
  obtain ⟨hran, hcycles⟩ := count_ran_serving hable hidle ds
  have hsent := sentBytes_serving hable hidle ds
  rw [hin] at hrest hran hcycles hsent
  refine ⟨hmarker, fun d' => (hable'.disturb d').selects hlast, hlast, ?_, fun hlong => ?_, hran,
    ?_, ?_⟩
  · rw [hrest]
    exact arrivals_segments ds.length line.incoming
  · rw [hrest]
    exact behind_eq_nil hlong
  · rw [hcycles, hbooted]
    exact UInt32.zero_add _
  · rw [hsent, hbooted]
    rfl

/-- Noise of each kind and two starts: an empty frame, another command, a start that a failure cuts
off, a frame that is too long and one that a failure ends as well, a start with a payload, one with
a wrong checksum, one with a malformed block, a plain start. -/
theorem serves_starts_among_noise :
    let w : Workload := .countedLoop 2 3
    let line : Line := { incoming := [0,0x65,0,0x73].map .byte ++ [.failure .framing] ++
      [0x66,1,2,3,4,5,0,0x66,1,2,3,4,5].map .byte ++ [.failure .overrun] ++
      (Packet.encode ⟨0x73, [7]⟩).map .byte ++ [0x73,3,7,0xAF,0,0x73,9,0,0x73,0].map .byte }
    let ds : List Disturbance := List.replicate 8 ({} : Disturbance) ++
      List.replicate 30 ({ skip := 1 } : Disturbance)
    let booted := (new line w {} true : Harness 6).step
    let served := booted.harness.perform (serving ds)
    (2 ≤ 6 ∧ w.Sized ∧ w.payloadLength < 6 ∧ line.Working ∧
        line.incoming.length ≤ ds.length) ∧
      served.harness.channel.line.incoming = [] ∧ served.events.count .ran = 2 ∧
      sentBytes served.events = [0x73,0,0x65,0,0x73,0] ++ (Packet.encode ⟨0x66, [5,0,0,0]⟩) := by
  intro w line ds booted served
  have hroom : 2 ≤ 6 := by decide
  have hsized : w.Sized := trivial
  have hfits : w.payloadLength < 6 := by decide
  have hline : line.Working := ⟨rfl, rfl⟩
  have hlong : line.incoming.length ≤ ds.length := by decide
  obtain ⟨-, -, -, -, hrest, hran, -, hsent⟩ :=
    serves_starts hroom hsized hfits hline {} true ds
  exact ⟨⟨hroom, hsized, hfits, hline, hlong⟩, by rw [hrest hlong],
    hran.trans (by decide +kernel), hsent.trans (by decide +kernel)⟩

end Harness
end FaultBench.Target
