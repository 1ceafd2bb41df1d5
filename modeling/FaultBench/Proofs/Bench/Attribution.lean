import FaultBench.Proofs.Bench.Composition

/-! Which execution a record is about. The host reads on from where the exchange before stopped, so
a record tells of its own start exactly when nothing of the earlier exchanges was left over. -/
namespace FaultBench.Bench
open Wire

variable {capacity : ℕ} {b c : Bench capacity} {starts j : ℕ} {m rest bytes : List UInt8}
  {q : Packet}

/-- How much was sent when a start was acknowledged. -/
def acknowledgedAt (verdicts : List Verdict) (start : ℕ) : ℕ :=
  (resetMarker ++ ((verdicts.take start).flatMap Target.answer ++ Target.ackBytes)).length

lemma acknowledgedAt_lt (verdicts : List Verdict) {k : ℕ} (hjk : j < k)
    (hk : k ≤ verdicts.length) : acknowledgedAt verdicts j < acknowledgedAt verdicts k := by
  have hlt := Host.length_answers_lt hjk hk
  simp only [acknowledgedAt, List.length_append]
  omega

lemma acknowledgedAt_le {verdicts : List Verdict} {k : ℕ} (hjk : j ≤ k)
    (hk : k ≤ verdicts.length) : acknowledgedAt verdicts j ≤ acknowledgedAt verdicts k := by
  obtain rfl | hlt := Nat.eq_or_lt_of_le hjk
  · exact Nat.le_refl _
  · exact Nat.le_of_lt (acknowledgedAt_lt _ hlt hk)

/-- The target waits for the next start, and no packet of an earlier exchange is unread. -/
def Settled (b : Bench capacity) : Prop :=
  b.harness.phase = .idle ∧ b.harness.channel.line.incoming = [] ∧
    Assembler.next {} b.unread = none

lemma isTail_pending (phase : Target.Phase) : Host.IsTail phase.pending := by
  cases phase with
  | executing => exact .inr rfl
  | _ => exact .inl rfl

namespace Sound

lemma whole_sent (hb : b.Sound starts) : Host.Whole b.sent := by
  by_cases hboot : b.harness.phase = .boot
  · rw [(hb.serving.boot hboot).1]
    simp [Host.Whole]
  · rw [hb.serving.booted hboot]
    have hmarker : Host.Whole resetMarker := by simp [Host.Whole, resetMarker]
    exact hmarker.append ((Host.Whole.answers _).append (isTail_pending _).whole)

/-- What is unread stops at the end of a frame, wherever it begins. -/
lemma whole_unread (hb : b.Sound starts) : Host.Whole b.unread := by
  obtain ⟨read, hread⟩ := hb.read
  have hsent := hb.whole_sent
  rw [hread] at hsent
  exact hsent.of_append

lemma length_verdicts_le (hb : b.Sound starts) : b.verdicts.length ≤ starts := by
  obtain ⟨waiting, -, hcount⟩ := hb.serving.queue
  omega

/-- How far a target is that booted and did not begin with a start. -/
lemma length_sent (hb : b.Sound starts) (hboot : b.harness.phase ≠ .boot)
    (hexecuting : b.harness.phase ≠ .executing) (more : List Verdict) :
    b.sent.length + 2 = acknowledgedAt (b.verdicts ++ more) b.verdicts.length := by
  have hpending : b.harness.phase.pending = [] := by
    cases hphase : b.harness.phase with
    | executing => exact absurd hphase hexecuting
    | _ => rfl
  rw [hb.serving.booted hboot, hpending, acknowledgedAt, List.take_left]
  simp only [List.length_append, List.length_nil]
  rfl

/-- A target never sent more than the acknowledgment of the start that it serves, and that one was
begun. -/
lemma length_sent_lt (hb : b.Sound starts) (more : List Verdict)
    (hstarts : starts ≤ (b.verdicts ++ more).length) :
    b.sent.length < acknowledgedAt (b.verdicts ++ more) starts := by
  have hle := hb.length_verdicts_le
  by_cases hboot : b.harness.phase = .boot
  · rw [(hb.serving.boot hboot).1]
    simp [acknowledgedAt, resetMarker]
  · by_cases hexecuting : b.harness.phase = .executing
    · obtain ⟨waiting, -, hcount⟩ := hb.serving.queue
      rw [hexecuting, Target.Phase.begun] at hcount
      have hsent : b.sent.length = acknowledgedAt (b.verdicts ++ more) b.verdicts.length := by
        rw [hb.serving.booted hboot, hexecuting, acknowledgedAt, List.take_left]
        rfl
      rw [hsent]
      exact acknowledgedAt_lt _ (by omega) hstarts
    · have hsent := hb.length_sent hboot hexecuting more
      have hmono := acknowledgedAt_le hle hstarts
      omega

/-- What is heard is the report on some execution, read behind the acknowledgment of its start. -/
theorem heard_verdict (hc : c.Sound starts) (h : Host.Link.Heard c.unread m q rest) :
    ∃ j v, c.verdicts[j]? = some v ∧ q = Target.Harness.report v ∧
      c.sent = resetMarker ++ ((c.verdicts.take (j + 1)).flatMap Target.answer ++ rest) ∧
      c.sent.length = acknowledgedAt c.verdicts j + m.length := by
  obtain ⟨read, hread⟩ := hc.read
  have hboot : c.harness.phase ≠ .boot := by
    intro hboot
    rw [(hc.serving.boot hboot).1] at hread
    have hlength := h.length_le
    rw [(List.append_eq_nil_iff.mp hread.symm).2] at hlength
    exact absurd hlength (by decide)
  have hsent := hc.serving.booted hboot
  obtain ⟨j, v, hv, hq, hm, hstream⟩ :=
    Host.heard_of_stream (isTail_pending _) (hread.symm.trans hsent) h
  rw [← hstream] at hsent
  refine ⟨j, v, hv, hq, ?_, ?_⟩
  · rw [hsent, hm, List.take_add_one, hv]
    simp [Target.answer]
  · rw [hsent, acknowledgedAt]
    simp only [List.length_append]
    omega

/-- Behind settled exchanges the acknowledgment that is heard is the one of the next start. -/
lemma le_of_settled (hb : b.Sound starts) (hs : b.Settled) (hgrows : b.Grows c bytes)
    (h : Host.Link.Heard c.unread m q rest)
    (hj : c.sent.length = acknowledgedAt c.verdicts j + m.length) : starts ≤ j := by
  obtain ⟨hidle, hquiet, hnone⟩ := hs
  obtain ⟨more, hmore⟩ := hgrows.verdicts
  obtain ⟨waiting, hin, hcount⟩ := hb.serving.queue
  have hwaiting : waiting = 0 := by
    rw [hquiet] at hin
    cases waiting with
    | zero => rfl
    | succ waiting => cases hin
  rw [hidle, hwaiting] at hcount
  have hstarts : starts = b.verdicts.length := hcount
  have hsent := hb.length_sent (by simp [hidle]) (by simp [hidle]) more
  rw [hgrows.unread] at h
  have hm := (hb.whole_unread.heard hnone h).length_ack
  rw [hgrows.sent, List.length_append, hmore] at hj
  by_contra hlater
  have hmono := acknowledgedAt_lt (b.verdicts ++ more) (Nat.lt_of_not_le hlater)
    (by rw [hstarts, List.length_append]; omega)
  rw [hstarts] at hmono
  omega

/-- A target that answered all starts waits for the next one. -/
lemma settled_of_served (hb : b.Sound starts) (hboot : b.harness.phase ≠ .boot)
    (hserved : starts ≤ b.verdicts.length) (hnone : Assembler.next {} b.unread = none) :
    b.Settled := by
  obtain ⟨waiting, hin, hcount⟩ := hb.serving.queue
  refine ⟨?_, ?_, hnone⟩
  · cases hphase : b.harness.phase with
    | idle => rfl
    | boot => exact absurd hphase hboot
    | armed => rw [hphase, Target.Phase.begun] at hcount; omega
    | executing => rw [hphase, Target.Phase.begun] at hcount; omega
  · rw [hin, show waiting = 0 by omega]
    rfl

/-- What is heard in new bytes alone comes from a target that booted before them. -/
lemma booted_of_heard (hb : b.Sound starts) (hgrows : b.Grows c bytes)
    (hsent : c.sent = resetMarker ++ (c.verdicts.flatMap Target.answer ++ c.harness.phase.pending))
    (h : Host.Link.Heard bytes m q rest) : b.harness.phase ≠ .boot := by
  intro hboot
  rw [hgrows.sent, (hb.serving.boot hboot).1, List.nil_append] at hsent
  rw [hsent] at h
  exact h.not_marker

/-- New bytes with a new answer among them begin with the rest of the first one that was owed. -/
lemma heard_first (hb : b.Sound starts) (hgrows : b.Grows c bytes)
    (hsent : c.sent = resetMarker ++ (c.verdicts.flatMap Target.answer ++ c.harness.phase.pending))
    (h : Host.Link.Heard bytes m q rest) {v : Verdict} {more : List Verdict}
    (hmore : c.verdicts = b.verdicts ++ v :: more) :
    c.sent.length = acknowledgedAt c.verdicts b.verdicts.length + m.length := by
  have hboot := hb.booted_of_heard hgrows hsent h
  have hrest : b.harness.phase.pending ++ bytes =
      Target.answer v ++ (more.flatMap Target.answer ++ c.harness.phase.pending) := by
    rw [hgrows.sent, hb.serving.booted hboot, hmore, List.flatMap_append,
      List.flatMap_cons] at hsent
    simpa using hsent
  obtain ⟨hpending, hack⟩ := h.of_rest (isTail_pending _) hrest
  have hexecuting : b.harness.phase ≠ .executing := by
    intro hexecuting
    rw [hexecuting] at hpending
    cases hpending
  have hbsent := hb.length_sent hboot hexecuting (v :: more)
  rw [hgrows.sent, List.length_append, hmore]
  omega

/-- Where the acknowledgment that is heard is the one of the next start, the exchanges before are
settled. -/
lemma settled_of_le (hb : b.Sound starts) (hc : c.Sound (starts + 1)) (hgrows : b.Grows c bytes)
    (h : Host.Link.Heard c.unread m q rest)
    (hj : c.sent.length = acknowledgedAt c.verdicts j + m.length) (hlt : j < c.verdicts.length)
    (hle : starts ≤ j) : b.Settled := by
  obtain ⟨more, hmore⟩ := hgrows.verdicts
  have hmono := acknowledgedAt_le hle (Nat.le_of_lt hlt)
  have hnone : Assembler.next {} b.unread = none := by
    by_contra hsome
    rw [hgrows.unread] at h
    have hlater := h.length_of_some hsome
    have hbefore := hb.length_sent_lt more (by rw [← hmore]; omega)
    rw [← hmore] at hbefore
    rw [hgrows.sent, List.length_append] at hj
    omega
  rw [hgrows.unread] at h
  have hbytes := hb.whole_unread.heard hnone h
  have hbooted : c.harness.phase ≠ .boot := by
    intro hboot
    rw [(hc.serving.boot hboot).2] at hlt
    exact absurd hlt (Nat.not_lt_zero j)
  have hsent := hc.serving.booted hbooted
  refine hb.settled_of_served (hb.booted_of_heard hgrows hsent hbytes) ?_ hnone
  by_contra hlater
  obtain ⟨v, more, rfl⟩ : ∃ v later, more = v :: later := by
    cases more with
    | nil =>
      rw [hmore, List.append_nil] at hlt
      omega
    | cons v more => exact ⟨v, more, rfl⟩
  have hfirst := hb.heard_first hgrows hsent hbytes hmore
  have hstep := acknowledgedAt_lt c.verdicts (Nat.lt_of_lt_of_le (Nat.lt_of_not_le hlater) hle)
    (Nat.le_of_lt hlt)
  omega

/-- The record of one cycle. -/
theorem cycle_attributed (hb : b.Sound starts) (p : Profile) (o : Host.SessionOptions)
    (now : List Move) :
    ((b.start.moves now).session.cycle p o starts).result = .ok () ∧
      (b.cycle p o starts now).Sound (starts + 1) ∧
      ∃ r : Host.Record,
        (b.cycle p o starts now).session.records = b.session.records ++ [r] ∧
        (r.category = .noFault ∨ r.category = .fault → ∃ j v elapsed,
          j ≤ starts ∧ (b.cycle p o starts now).verdicts[j]? = some v ∧
          r = .of starts (.ofVerdict v) p o.workload elapsed ∧
          (b.cycle p o starts now).sent = resetMarker ++
            (((b.cycle p o starts now).verdicts.take (j + 1)).flatMap Target.answer ++
              (b.cycle p o starts now).unread) ∧
          (j = starts ↔ b.Settled)) := by
  obtain ⟨hresult, hc, response, elapsed, hrecord, htells⟩ := hb.cycle p o starts now
  refine ⟨hresult, hc, _, hrecord, fun hdecisive => ?_⟩
  obtain ⟨m, q, h, hq⟩ := htells hdecisive
  obtain ⟨hmoved, bytes, hgrows⟩ := hb.start.moves now
  obtain ⟨j, v, hv, rfl, hsent, hj⟩ := hmoved.heard_verdict h
  have hlt : j < (b.start.moves now).verdicts.length := (List.getElem?_eq_some_iff.mp hv).1
  have hle : j ≤ starts := by
    have := hmoved.length_verdicts_le
    omega
  have hgrown : b.Grows (b.start.moves now) bytes :=
    ⟨hgrows.sent, hgrows.unread, hgrows.verdicts, hgrows.records⟩
  refine ⟨j, v, elapsed, hle, hv, ?_, hsent, fun hnext => ?_, fun hsettled => ?_⟩
  · rw [← hq, Host.response_report]
  · exact hb.settled_of_le hmoved hgrown h hj hlt (Nat.le_of_eq hnext.symm)
  · exact Nat.le_antisymm hle (hb.le_of_settled hsettled hgrown h hj)

end Sound

/-- Whatever the target does and whichever deadlines pass, every cycle has its record, and one that
tells how an execution ended tells of execution `j`, which was caused by the start of this cycle or
of an earlier one: the bytes that were read end with its answer. It is the start of this cycle
exactly if the exchanges before it were settled when it was sent. -/
theorem attributed {bench : Bench capacity} (new : bench.New) (p : Profile)
    (o : Host.SessionOptions) (before : List Move) (earlier : List (List Move)) (now : List Move)
    (later : List (List Move)) :
    let b := bench.run p o before earlier
    let c := b.cycle p o earlier.length now
    ((b.start.moves now).session.cycle p o earlier.length).result = .ok () ∧
      ∃ r : Host.Record,
        (bench.run p o before (earlier ++ now :: later)).session.records[earlier.length]? =
          some r ∧
        (r.category = .noFault ∨ r.category = .fault → ∃ j v elapsed,
          j ≤ earlier.length ∧ c.verdicts[j]? = some v ∧
          r = .of earlier.length (.ofVerdict v) p o.workload elapsed ∧
          c.sent = resetMarker ++ ((c.verdicts.take (j + 1)).flatMap Target.answer ++ c.unread) ∧
          (j = earlier.length ↔ b.Settled)) := by
  intro b c
  obtain ⟨hb, hcount⟩ := (Sound.of_new new).run new.fresh.records p o before earlier
  obtain ⟨hresult, hc, r, hrecord, htells⟩ := hb.cycle_attributed p o now
  obtain ⟨-, more, hmore, -⟩ := hc.cyclesFrom p o (earlier.length + 1) later
  refine ⟨hresult, r, ?_, htells⟩
  rw [run_append, cyclesFrom, hmore, hrecord, List.append_assoc,
    List.getElem?_append_right (by omega), hcount, Nat.sub_self]
  rfl

/-- A target with the default loop, and a host that waits for it to boot. -/
def loopBench : Bench 5 where
  harness := .new {} (.countedLoop 500 500) {} true
  session := { link := { serial := {} } }

def loopOptions : Host.SessionOptions :=
  { workload := .countedLoop, cycles := 2, ackTimeout := 20, responseTimeout := 20,
    resetTimeout := some 20 }

/-- The target boots, and its marker arrives. -/
def booting : List Move := .target {} :: List.replicate 7 .arrive

/-- Two starts wait. The first execution loses increments and the second is good, but only the
answer to the first arrives. -/
def lateAnswer : List Move :=
  [.target {}, .target {}, .target { skip := 37 }, .target {}, .target {}, .target {}] ++
    List.replicate 10 .arrive

/-- The first exchange ends before the target answers. The second one takes the late answer for
its own. -/
theorem late_answer_misattributed :
    ((loopBench.run {} loopOptions booting [[], lateAnswer]).session.records[1]?.map fun r =>
        (r.category, r.payload)) = some (.fault, some [0x6B, 0xD0, 0x03, 0x00]) ∧
      (loopBench.run {} loopOptions booting [[], lateAnswer]).verdicts[1]? = some .expected := by
  decide +kernel

/-- The late answer tells of an execution that is over, and the bench was not settled. -/
theorem attributed_late :
    ∃ r : Host.Record,
      (loopBench.run {} loopOptions booting [[], lateAnswer]).session.records[1]? = some r ∧
        r.category = .fault ∧ ∃ j v elapsed, j ≤ 1 ∧
          r = .of 1 (.ofVerdict v) {} .countedLoop elapsed ∧
          (j = 1 ↔ (loopBench.run {} loopOptions booting [[]]).Settled) := by
  have new : loopBench.New := ⟨⟨⟨rfl, rfl⟩, .inl rfl, by decide, trivial, by decide⟩, rfl, rfl,
    ⟨⟨rfl, rfl, rfl⟩, rfl, ⟨⟨rfl, rfl⟩, by simp [loopBench]⟩, rfl, rfl⟩, rfl, rfl, rfl, rfl⟩
  obtain ⟨-, r, hr, htells⟩ := attributed new {} loopOptions booting [[]] lateAnswer []
  change (loopBench.run {} loopOptions booting [[], lateAnswer]).session.records[1]? = some r at hr
  have hcategory : ((loopBench.run {} loopOptions booting [[], lateAnswer]).session.records[1]?.map
      (·.category)) = some .fault := by decide +kernel
  rw [hr] at hcategory
  have hfault : r.category = .fault := Option.some.inj hcategory
  obtain ⟨j, v, elapsed, hj, -, hrecord, -, hsettled⟩ := htells (.inr hfault)
  exact ⟨r, hr, hfault, j, v, elapsed, hj, hrecord, hsettled⟩

end FaultBench.Bench
