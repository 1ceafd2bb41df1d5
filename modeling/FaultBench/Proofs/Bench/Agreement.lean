import FaultBench.Proofs.Bench.Answers
import FaultBench.Proofs.Host.Diagnosis
import FaultBench.Proofs.Host.Recording
import FaultBench.Proofs.Target.Selection

/-! A host in step with its target: over a line that loses nothing and with all packets in time, the
records of a session are the verdicts on the target's executions. -/
namespace FaultBench.Host
open Wire

/-- A record says what a verdict said: its category, the diagnostic's bytes, in its line as their
digits, from which they are read again, and an interpretation that explains them and can be laid
out. -/
structure Record.Reports (r : Record) (p : Profile) (k : Workload.Kind) (v : Verdict) : Prop where
  expected : r.category = .noFault ↔ v = .expected
  fault : ∀ diagnostic, v = .fault diagnostic → r.category = .fault ∧
    r.payload = some diagnostic.bytes ∧
    (∃ members, r.json = .object members ∧
      ("payload", .text (Text.hex diagnostic.bytes)) ∈ members) ∧
    Text.readHex (Text.hex diagnostic.bytes) = .ok diagnostic.bytes ∧
    ∃ i, r.interpretation = some i ∧ i.Explains p k diagnostic ∧ i.crashes p = false

lemma Record.reports_of {p : Profile} (h : p.validate = .ok ()) {k : Workload.Kind} {w : Workload}
    (hw : p.workload k = .ok w) (d : Disturbance) (number elapsed : ℕ) :
    (Record.of number (.ofVerdict (w.verdict d)) p k elapsed).Reports p k (w.verdict d) := by
  refine ⟨?_, fun diagnostic hv => ?_⟩
  · cases w.verdict d <;> simp [Record.of, Response.ofVerdict, Response.category]
  · have hexplains := Interpretation.explains_diagnostic h hw hv
    rw [hv]
    refine ⟨rfl, rfl, ⟨_, rfl, ?_⟩, Text.readHex_hex _, _, rfl, hexplains, ?_⟩
    · simp [Record.of, Response.ofVerdict, Response.payload?, Text.Json.member?]
    · have hlimit := (Profile.rules_of_validate h).2.2.2.2.1
      cases interpret p k diagnostic.bytes <;> simp [Interpretation.crashes, hlimit]

namespace Session

variable {s : Session} {p : Profile} {o : SessionOptions}

/-- The limits of a cycle's packets. -/
def limits (o : SessionOptions) : List ℕ := [micros o.ackTimeout, micros o.responseTimeout]

/-- Cycles that hear the answers to their starts in time leave the records of the verdicts. -/
theorem cyclesFrom_on_time {vs : List Verdict} (zeros : ℕ) (hline : s.link.serial.Accepting)
    (houtput : s.output.Accepting)
    (hs : s.link.serial.Delivers (List.replicate zeros 0 ++ vs.flatMap Target.answer)
      (vs.flatMap fun _ => limits o)) (number : ℕ) :
    ∃ records, (s.cyclesFrom p o number vs.length).result = .ok () ∧
      (s.cyclesFrom p o number vs.length).session.records = s.records ++ records ∧
      (s.cyclesFrom p o number vs.length).session.summary = s.summary.addAll records ∧
      (s.cyclesFrom p o number vs.length).session.output =
        s.output.took (records.flatMap Record.line) ∧
      records.length = vs.length ∧
      ∀ i v, vs[i]? = some v → ∃ elapsed,
        records[i]? = some (Record.of (number + i) (.ofVerdict v) p o.workload elapsed) := by
  induction vs generalizing s zeros number with
  | nil => exact ⟨[], rfl, by simp [cyclesFrom], rfl, by simp [cyclesFrom], rfl, by simp⟩
  | cons v vs ih =>
    obtain ⟨rest, t, hresult, hlink, hrest⟩ :=
      Link.cycle_on_time _ _ hline hs ((Assembler.next_zeros zeros _).trans (next_answer v _)) rfl
        (next_report v _)
    rw [response_report] at hresult
    obtain ⟨elapsed, hcycle⟩ := cycle_of_response p number houtput hresult
    generalize hs' : Session.recorded _ _ = s' at hcycle
    have hserial :
        s'.link.serial = { s.link.started.serial with clock := t, incoming := rest } := by
      rw [← hs']
      exact congrArg Link.serial hlink
    have hcycles : s.cyclesFrom p o number (vs.length + 1) =
        s'.cyclesFrom p o (number + 1) vs.length := by
      rw [cyclesFrom, hcycle]
    obtain ⟨records, hok, hrecords, hsummary, hout, hlength, hreports⟩ :=
      ih (s := s') 0 (by rw [hserial]; exact ⟨hline.writes, hline.flushes, hline.quiet⟩)
        (by rw [← hs']; exact houtput.took _) (by rw [hserial]; exact hrest) (number + 1)
    rw [List.length_cons, hcycles]
    refine ⟨Record.of number (.ofVerdict v) p o.workload elapsed :: records, hok, ?_, ?_, ?_,
      congrArg (· + 1) hlength, ?_⟩
    · rw [hrecords, ← hs']
      simp [recorded, reached]
    · rw [hsummary, ← hs']
      rfl
    · rw [hout, ← hs']
      simp [recorded, reached]
    · rintro (_ | i) v' hv
      · cases hv
        exact ⟨elapsed, rfl⟩
      · obtain ⟨elapsed', hrecord⟩ := hreports i v' hv
        exact ⟨elapsed', by rw [← Nat.add_assoc, Nat.add_right_comm]; exact hrecord⟩

/-- A marker that comes in time ends the wait for it. -/
lemma begin_on_time (hs : s.Fresh) {later : List UInt8} {reset : ℕ} {times : List ℕ}
    (hreset : o.resetTimeout = some reset)
    (hdelivers : s.link.serial.Delivers (resetMarker ++ later) (micros reset :: times)) :
    (s.begin o).result = .ok () ∧ ∃ rest t,
      (s.begin o).session.link = ⟨{ s.link.serial with clock := t, incoming := rest }, {}⟩ ∧
      Serial.Delivers { s.link.serial with clock := t, incoming := rest }
        (List.replicate 2 0 ++ later) times := by
  obtain ⟨rest, t, hresult, hlink, hrest⟩ :=
    Link.await_on_time Link.isReset hdelivers (next_marker later) rfl
  have hlink' : (⟨s.link.serial, {}⟩ : Link) = s.link := by rw [← hs.assembler]
  rw [hlink'] at hresult hlink
  have hheard : (s.link.awaitReset (micros reset)).result = .ok true := by
    rw [Link.awaitReset, Reached.map, hresult]
    rfl
  simp only [begin, hreset, hheard]
  exact ⟨trivial, rest, t, hlink, hrest⟩

/-- A session that hears a marker and the answers to its starts, all of them in time, ends well and
leaves the records of the verdicts. -/
theorem run_on_time (hs : s.Fresh) {vs : List Verdict} {reset : ℕ}
    (hreset : o.resetTimeout = some reset) (hcycles : o.cycles = vs.length)
    (hdelivers : s.link.serial.Delivers (resetMarker ++ vs.flatMap Target.answer)
      (micros reset :: vs.flatMap fun _ => limits o)) :
    (s.run p o).result = .ok () ∧
      (s.run p o).session.records.length = vs.length ∧
      (s.run p o).session.summary = Summary.addAll {} (s.run p o).session.records ∧
      (s.run p o).session.output =
        s.output.took ((s.run p o).session.records.flatMap Record.line) ∧
      ∀ i v, vs[i]? = some v → ∃ elapsed, (s.run p o).session.records[i]? =
        some (Record.of i (.ofVerdict v) p o.workload elapsed) := by
  obtain ⟨hbegin, rest, t, hlink, hrest⟩ := begin_on_time hs hreset hdelivers
  obtain ⟨link, log, hsession⟩ := s.session_begin o
  rw [hsession] at hlink
  subst hlink
  obtain ⟨records, hok, hrecords, hsummary, hout, hlength, hreports⟩ :=
    cyclesFrom_on_time (p := p) (s := (s.begin o).session) 2
      (by rw [hsession]; exact ⟨hs.line.writes, hs.line.flushes, hs.line.quiet⟩)
      (by rw [hsession]; exact hs.output) (by rw [hsession]; exact hrest) 0
  replace hrecords : _ = records := hrecords.trans (by rw [hsession]; simp [hs.records])
  replace hsummary : _ = Summary.addAll {} records :=
    hsummary.trans (by rw [hsession, ← hs.summary])
  replace hout : _ = s.output.took (records.flatMap Record.line) := hout.trans (by rw [hsession])
  let last := ((s.begin o).session.cyclesFrom p o 0 vs.length).session
  have hrun : s.run p o = ⟨.ok (), last.wrote last.output.flush⟩ := by
    have hflush : last.output.flush.result = .ok () := by
      rw [hout]
      exact (hs.output.took _).flush
    simp only [run, hbegin, hcycles, hok, finish]
    rw [hflush]
    rfl
  rw [hrun]
  simp only [wrote, Output.flush_output]
  rw [hrecords]
  exact ⟨trivial, hlength, hsummary, hout, fun i v hv => by simpa using hreports i v hv⟩

end Session

/-- The harness that the firmware for a profile sets up. -/
def firmware (p : Profile) (k : Workload.Kind) (w : Workload) (flushes shows : Bool) :
    Target.Harness (p.faultPayloadLength k + 1) :=
  .new { hasFlush := flushes } w {} shows

/-- Boots, receives as many starts as there are disturbances, and serves one under each. -/
def life (ds : List Disturbance) : List Target.Operation :=
  [.step, .deliver (List.replicate ds.length Target.startFrame).flatten] ++
    Target.Harness.serving ds

/-- What the firmware sends. -/
lemma sentBytes_life {p : Profile} {k : Workload.Kind} {w : Workload} (hsized : w.Sized)
    (hlength : w.payloadLength = p.faultPayloadLength k) (hpos : 0 < w.payloadLength)
    (flushes shows : Bool) (ds : List Disturbance) :
    Target.sentBytes ((firmware p k w flushes shows).perform (life ds)).events =
      resetMarker ++ (w.verdicts ds).flatMap Target.answer := by
  have hable : (firmware p k w flushes shows).Able :=
    ⟨⟨rfl, rfl⟩, .inl rfl, by omega, hsized, by
      change w.payloadLength < p.faultPayloadLength k + 1
      omega⟩
  obtain ⟨hidle, hsent⟩ := Target.Harness.startUp_able hable
  have hlife : ((firmware p k w flushes shows).perform (life ds)).events =
      (firmware p k w flushes shows).startUp.events ++
        (((firmware p k w flushes shows).startUp.harness.onLine
          (·.deliver (List.replicate ds.length Target.startFrame).flatten)).perform
            (Target.Harness.serving ds)).events := rfl
  rw [hlife, Target.sentBytes_append, hsent, hidle,
    Target.Harness.sentBytes_serving_starts _ rfl ds rfl]
  · rfl
  · exact (hable.received _ hable.atStart).moved .idle _

/-- Target and host agree, whatever goes wrong in the target's runs: each record says what the
verdict on its execution was, and every cycle has its line and is counted. -/
theorem session_agrees {p : Profile} (valid : p.validate = .ok ()) (k : Workload.Kind)
    (ds : List Disturbance) (flushes shows : Bool) :
    ∃ w, p.workload k = .ok w ∧
      ∀ (s : Session) (o : SessionOptions) (reset : ℕ), s.Fresh → o.workload = k →
        o.cycles = ds.length → o.resetTimeout = some reset →
        s.link.serial.Delivers
          (Target.sentBytes ((firmware p k w flushes shows).perform (life ds)).events)
          (Session.micros reset :: ds.flatMap fun _ => Session.limits o) →
        (s.run p o).result = .ok () ∧
          (s.run p o).session.records.length = ds.length ∧
          (∀ i v, (w.verdicts ds)[i]? = some v → ∃ r : Record,
            (s.run p o).session.records[i]? = some r ∧ r.cycle = i ∧ r.Reports p k v) ∧
          (∀ c, (s.run p o).session.summary.count c =
            Record.countOf c (s.run p o).session.records) ∧
          (s.run p o).session.output =
            s.output.took ((s.run p o).session.records.flatMap Record.line) := by
  obtain ⟨w, hw, hsized, hlength, hpos⟩ := Profile.workload_of_validate valid k
  refine ⟨w, hw, fun s o reset hs hk hcycles hreset hdelivers => ?_⟩
  have hcount : (w.verdicts ds).length = ds.length := w.length_verdicts ds
  have hlimits : (ds.flatMap fun _ => Session.limits o) =
      (w.verdicts ds).flatMap fun _ => Session.limits o := by
    simp [List.flatMap, List.map_const', hcount]
  rw [sentBytes_life hsized hlength hpos, hlimits] at hdelivers
  obtain ⟨hok, hrecords, hsummary, hout, hreports⟩ :=
    Session.run_on_time (p := p) hs hreset (hcycles.trans hcount.symm) hdelivers
  refine ⟨hok, hrecords.trans hcount, fun i v hv => ?_, fun c => ?_, hout⟩
  · obtain ⟨elapsed, hrecord⟩ := hreports i v hv
    rw [Workload.verdicts_eq_map hsized, List.getElem?_map] at hv
    obtain ⟨d, -, rfl⟩ := Option.map_eq_some_iff.mp hv
    exact ⟨_, hrecord, rfl, hk ▸ Record.reports_of valid hw d i elapsed⟩
  · rw [hsummary, Summary.count_addAll]
    cases c <;> exact Nat.zero_add _

/-- A good run and one that loses 37 increments, at the default parameters. -/
theorem session_agrees_counter :
    let s : Session := { link := { serial := { incoming := [0, 0, 0, 0x72, 0, 0, 0, 0x73, 0, 0x65,
      0, 0x73, 0, 0x66, 0x04, 0x6B, 0xD0, 0x03, 0x02, 0x27, 0].map .byte } } }
    let o : SessionOptions :=
      { workload := .countedLoop, cycles := 2, ackTimeout := 20, responseTimeout := 20,
        resetTimeout := some 20 }
    ({} : Profile).validate = .ok () ∧ s.Fresh ∧ (s.run {} o).result = .ok () ∧
      ∃ r : Record, (s.run {} o).session.records[1]? = some r ∧
        r.Reports {} .countedLoop (.fault (.counter 249963)) := by
  intro s o
  have valid : ({} : Profile).validate = .ok () := by rfl
  have hs : s.Fresh := ⟨⟨rfl, rfl, rfl⟩, rfl, ⟨⟨rfl, rfl⟩, by simp [s]⟩, rfl, rfl⟩
  obtain ⟨w, hw, hagrees⟩ := session_agrees valid .countedLoop [{}, { skip := 37 }] true true
  cases hw
  obtain ⟨hok, -, hrecords, -⟩ := hagrees s o 20 hs rfl rfl rfl
    ⟨lossless_map_byte _, by decide +kernel, by decide +kernel⟩
  obtain ⟨r, hr, -, hreports⟩ := hrecords 1 (.fault (.counter 249963)) (by decide +kernel)
  exact ⟨valid, hs, hok, r, hr, hreports⟩

end FaultBench.Host
