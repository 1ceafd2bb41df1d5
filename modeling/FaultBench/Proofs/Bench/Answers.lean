import FaultBench.Proofs.Host.Exchange
import FaultBench.Proofs.Target.Service

/-! What a host can read out of a target's answers, from wherever it begins to read. A frame that
lost its front may still be read as some packet, but never as one that is followed by a report. -/
namespace FaultBench.Host
open Wire

/-- What a host that hears the report of a verdict takes it for. -/
def Response.ofVerdict : Verdict → Response
  | .expected => .expected
  | .fault diagnostic => .fault diagnostic.bytes

lemma response_report (v : Verdict) :
    Link.response (some (Target.Harness.report v)) = .ofVerdict v := by
  cases v <;> rfl

lemma command?_report_ne (v : Verdict) : (Target.Harness.report v).command? ≠ some .start := by
  cases v <;> simp [Target.Harness.report, Packet.command?, Packet.bare]

lemma next_report (v : Verdict) (later : List UInt8) :
    Assembler.next {} ((Target.Harness.report v).encode ++ later) =
      some (Target.Harness.report v, later) :=
  Assembler.next_encode_append _ (Target.Harness.cmd_report_ne_zero v) later

lemma next_ack (later : List UInt8) :
    Assembler.next {} (Target.ackBytes ++ later) = some (.bare Command.start.byte, later) :=
  Assembler.next_encode_append _ (by decide) later

lemma next_answer (v : Verdict) (later : List UInt8) :
    Assembler.next {} (Target.answer v ++ later) =
      some (.bare Command.start.byte, (Target.Harness.report v).encode ++ later) := by
  rw [Target.answer, List.append_assoc]
  exact next_ack _

lemma next_reset (later : List UInt8) :
    Assembler.next {} ((Packet.bare Command.reset.byte).encode ++ later) =
      some (.bare Command.reset.byte, later) :=
  Assembler.next_encode_append _ (by decide) later

lemma next_marker (later : List UInt8) :
    Assembler.next {} (resetMarker ++ later) =
      some (.bare Command.reset.byte, List.replicate 2 0 ++ later) :=
  (Assembler.next_zeros 3 _).trans (next_reset _)

namespace Link.Heard

variable {u m rest : List UInt8} {q : Packet}

lemma append (h : Heard u m q rest) (later : List UInt8) :
    Heard (u ++ later) (m ++ later) q (rest ++ later) := by
  obtain ⟨⟨p, hp, hack⟩, hq, hr⟩ := h
  exact ⟨⟨p, Assembler.next_append_of_some hp later, hack⟩,
    Assembler.next_append_of_some hq later, hr⟩

/-- Two bytes at least are in front of what the acknowledgment has behind it. -/
lemma length_ack (h : Heard u m q rest) : m.length + 2 ≤ u.length := by
  obtain ⟨⟨p, hp, -⟩, -⟩ := h
  obtain ⟨front, rfl, hfront⟩ := Assembler.next_eq_some hp
  simp at hfront ⊢
  omega

/-- Two packets are four bytes at least. -/
lemma length_le (h : Heard u m q rest) : 4 ≤ u.length := by
  have hack := h.length_ack
  obtain ⟨front, rfl, hfront⟩ := Assembler.next_eq_some h.reported
  simp at hfront hack ⊢
  omega

/-- A packet in front would be heard first, with all the later bytes behind it. -/
lemma length_of_some {later : List UInt8} (h : Heard (u ++ later) m q rest)
    (hu : Assembler.next {} u ≠ none) : later.length ≤ m.length := by
  obtain ⟨⟨front, behind⟩, hfront⟩ := Option.ne_none_iff_exists'.mp hu
  obtain ⟨⟨p, hp, -⟩, -⟩ := h
  rw [Assembler.next_append_of_some hfront] at hp
  cases hp
  simp

/-- An acknowledgment is no report. -/
lemma not_ack {later : List UInt8} (h : Heard u (Target.ackBytes ++ later) q rest) : False := by
  obtain ⟨-, hq, hr⟩ := h
  rw [next_ack] at hq
  cases hq
  simp [response, Packet.command?, Packet.bare, Response.category] at hr

/-- A report is no acknowledgment. -/
lemma not_report {v : Verdict} {later : List UInt8}
    (h : Heard ((Target.Harness.report v).encode ++ later) m q rest) : False := by
  obtain ⟨⟨p, hp, hack⟩, -⟩ := h
  rw [next_report] at hp
  cases hp
  exact command?_report_ne v hack

/-- A whole answer is heard as what it is. -/
lemma of_answer {v : Verdict} {later : List UInt8} (h : Heard (Target.answer v ++ later) m q rest) :
    m = (Target.Harness.report v).encode ++ later ∧ q = Target.Harness.report v ∧ rest = later := by
  obtain ⟨⟨p, hp, -⟩, hq, -⟩ := h
  have hanswer := next_answer v later
  rw [hp] at hanswer
  cases hanswer
  rw [next_report] at hq
  cases hq
  exact ⟨rfl, rfl, rfl⟩

/-- A target that boots is not one that answers. -/
lemma not_reset {later : List UInt8}
    (h : Heard ((Packet.bare Command.reset.byte).encode ++ later) m q rest) : False := by
  obtain ⟨⟨p, hp, hack⟩, -⟩ := h
  rw [next_reset] at hp
  cases hp
  cases hack

/-- Empty frames are not heard. -/
lemma of_zeros {n : ℕ} (h : Heard (List.replicate n 0 ++ u) m q rest) : Heard u m q rest := by
  obtain ⟨⟨p, hp, hack⟩, hq, hr⟩ := h
  exact ⟨⟨p, by rwa [Assembler.next_zeros] at hp, hack⟩, hq, hr⟩

lemma not_marker {later : List UInt8} (h : Heard (resetMarker ++ later) m q rest) : False :=
  (of_zeros (n := 3) (u := (Packet.bare Command.reset.byte).encode ++ (List.replicate 2 0 ++ later))
    h).not_reset

end Link.Heard

/-- Bytes that stop at the end of a frame. -/
def Whole (bytes : List UInt8) : Prop := ∀ b, bytes.getLast? = some b → b = 0

namespace Whole

variable {a b : List UInt8}

lemma append (ha : Whole a) (hb : Whole b) : Whole (a ++ b) := by
  intro x hx
  rw [List.getLast?_append] at hx
  cases hlast : b.getLast? with
  | none => exact ha x (by simpa [hlast] using hx)
  | some y => exact hb x (by simpa [hlast] using hx)

lemma of_append (h : Whole (a ++ b)) : Whole b := by
  intro x hx
  exact h x (by rw [List.getLast?_append, hx]; rfl)

lemma of_isFrame (h : IsFrame a) : Whole a := by
  intro x hx
  rw [h.getLast?] at hx
  exact (Option.some.inj hx).symm

lemma answers (vs : List Verdict) : Whole (vs.flatMap Target.answer) := by
  induction vs with
  | nil => simp [Whole]
  | cons v vs ih =>
    rw [List.flatMap_cons, Target.answer]
    exact ((of_isFrame (Packet.isFrame_encode _ (by decide))).append
      (of_isFrame (Packet.isFrame_encode _ (Target.Harness.cmd_report_ne_zero v)))).append ih

/-- Whole frames without a packet in them have no influence on what is heard. -/
lemma heard (ha : Whole a) (hnone : Assembler.next {} a = none) {m rest : List UInt8} {q : Packet}
    (h : Link.Heard (a ++ b) m q rest) : Link.Heard b m q rest := by
  obtain rfl | ⟨front, x, rfl⟩ := a.eq_nil_or_concat
  · exact h
  · obtain rfl := ha x (by simp)
    rw [List.concat_eq_append] at hnone h
    obtain ⟨⟨p, hp, hack⟩, hq, hr⟩ := h
    rw [List.append_assoc, List.singleton_append, Assembler.next_append_of_none hnone] at hp
    exact ⟨⟨p, hp, hack⟩, hq, hr⟩

end Whole

/-- The end of what a target sent: nothing, or the acknowledgment of a run that is not over. -/
def IsTail (tail : List UInt8) : Prop := tail = [] ∨ tail = Target.ackBytes

lemma IsTail.whole {tail : List UInt8} (ht : IsTail tail) : Whole tail := by
  obtain rfl | rfl := ht
  · simp [Whole]
  · exact .of_isFrame (Packet.isFrame_encode _ (by decide))

/-- In the rest of an answer only a whole acknowledgment is heard. -/
lemma Link.Heard.of_rest {tail bytes later m rest : List UInt8} {v : Verdict} {q : Packet}
    (ht : IsTail tail) (hrest : tail ++ bytes = Target.answer v ++ later)
    (h : Link.Heard bytes m q rest) : tail = [] ∧ bytes.length = m.length + 2 := by
  obtain rfl | rfl := ht
  · rw [List.nil_append] at hrest
    rw [hrest] at h
    obtain ⟨rfl, -, -⟩ := h.of_answer
    refine ⟨rfl, ?_⟩
    rw [hrest, Target.answer, List.append_assoc, List.length_append, Nat.add_comm]
    rfl
  · rw [Target.answer, List.append_assoc] at hrest
    rw [List.append_cancel_left hrest] at h
    exact h.not_report.elim

lemma length_le_answers (vs : List Verdict) : vs.length ≤ (vs.flatMap Target.answer).length := by
  induction vs with
  | nil => exact Nat.le_refl 0
  | cons v vs ih =>
    have hpos : 2 ≤ (Target.answer v).length := by
      rw [Target.answer, List.length_append]
      exact Nat.le_add_right 2 _
    simp only [List.flatMap_cons, List.length_append, List.length_cons]
    omega

/-- More answers are more bytes. -/
lemma length_answers_lt {vs : List Verdict} {j k : ℕ} (hjk : j < k) (hk : k ≤ vs.length) :
    ((vs.take j).flatMap Target.answer).length < ((vs.take k).flatMap Target.answer).length := by
  have hsplit : vs.take k = vs.take j ++ (vs.take k).drop j := by
    have htake := List.take_append_drop j (vs.take k)
    rwa [List.take_take, Nat.min_eq_left (Nat.le_of_lt hjk), eq_comm] at htake
  have hmore := length_le_answers ((vs.take k).drop j)
  rw [List.length_drop, List.length_take_of_le hk] at hmore
  rw [hsplit, List.flatMap_append, List.length_append]
  omega

lemma flatMap_answer_tail {tail : List UInt8} (ht : IsTail tail) (vs : List Verdict) :
    vs.flatMap Target.answer ++ tail = [] ∨
      ∃ later, vs.flatMap Target.answer ++ tail = Target.ackBytes ++ later := by
  cases vs with
  | nil =>
    obtain rfl | rfl := ht
    · exact .inl rfl
    · exact .inr ⟨[], rfl⟩
  | cons v vs =>
    right
    rw [List.flatMap_cons, Target.answer, List.append_assoc, List.append_assoc]
    exact ⟨_, rfl⟩

lemma isFrame_of_append {front part : List UInt8} (h : IsFrame (front ++ part)) :
    part = [] ∨ IsFrame part := by
  obtain ⟨body, hbody, hz⟩ := h
  obtain rfl | ⟨part, b, rfl⟩ := part.eq_nil_or_concat
  · exact .inl rfl
  · rw [List.concat_eq_append, ← List.append_assoc] at hbody
    obtain ⟨rfl, hb⟩ := List.append_inj' hbody rfl
    cases hb
    exact .inr ⟨part, List.concat_eq_append, fun h => hz (List.mem_append_right _ h)⟩

/-- The rest of a cut frame in front of whole answers is never heard as an acknowledgment that a
report follows. -/
lemma Link.Heard.of_part {part later m rest : List UInt8} {q : Packet} (hpart : IsFrame part)
    (hlater : later = [] ∨ ∃ more, later = Target.ackBytes ++ more)
    (h : Link.Heard (part ++ later) m q rest) : Link.Heard later m q rest := by
  obtain ⟨body, rfl, hz⟩ := hpart
  obtain ⟨⟨p, hp, hack⟩, hq, hr⟩ := h
  have hfirst := hp
  rw [List.append_assoc, List.singleton_append, Assembler.next_frame_append {} hz] at hp
  split at hp
  · cases hp
    obtain rfl | ⟨more, rfl⟩ := hlater
    · cases hq
    · exact (Link.Heard.not_ack ⟨⟨p, hfirst, hack⟩, hq, hr⟩).elim
  · exact ⟨⟨p, hp, hack⟩, hq, hr⟩

/-- An answer is not heard when its acknowledgment was cut. -/
lemma Link.Heard.uncut {cut back later m rest : List UInt8} {v : Verdict} {q : Packet}
    (hcut : Target.ackBytes = cut ++ back)
    (h : Link.Heard (back ++ ((Target.Harness.report v).encode ++ later)) m q rest) :
    cut = [] := by
  cases cut with
  | nil => rfl
  | cons _ cut =>
    replace hcut := (List.cons.inj hcut).2
    cases cut with
    | nil =>
      obtain rfl : back = [0] := hcut.symm
      exact (h.of_zeros (n := 1)).not_report.elim
    | cons _ cut =>
      obtain ⟨-, rfl⟩ := List.append_eq_nil_iff.mp (List.cons.inj hcut).2.symm
      exact h.not_report.elim

/-- Behind a cut, what is heard is what some execution was answered with. -/
theorem heard_of_answers {tail : List UInt8} (ht : IsTail tail) {vs : List Verdict}
    (cut : List UInt8) {u m rest : List UInt8} {q : Packet}
    (hcut : cut ++ u = vs.flatMap Target.answer ++ tail) (h : Link.Heard u m q rest) :
    ∃ j v, vs[j]? = some v ∧ q = Target.Harness.report v ∧
      m = (Target.Harness.report v).encode ++ rest ∧
      (vs.take j).flatMap Target.answer ++ (Target.ackBytes ++ m) =
        vs.flatMap Target.answer ++ tail := by
  induction vs generalizing cut u with
  | nil =>
    have htail : tail.length ≤ 2 := by
      obtain rfl | rfl := ht
      · exact Nat.zero_le 2
      · exact Nat.le_refl 2
    have hlength := congrArg List.length hcut
    rw [List.flatMap_nil, List.nil_append, List.length_append] at hlength
    have hu := h.length_le
    omega
  | cons v vs ih =>
    have hlift (cut : List UInt8) {u : List UInt8}
        (hcut : cut ++ u = vs.flatMap Target.answer ++ tail) (h : Link.Heard u m q rest) :
        ∃ j w, (v :: vs)[j]? = some w ∧ q = Target.Harness.report w ∧
          m = (Target.Harness.report w).encode ++ rest ∧
          ((v :: vs).take j).flatMap Target.answer ++ (Target.ackBytes ++ m) =
            (v :: vs).flatMap Target.answer ++ tail := by
      obtain ⟨j, w, hw, hq, hm, hstream⟩ := ih cut hcut h
      refine ⟨j + 1, w, hw, hq, hm, ?_⟩
      rw [List.take_succ_cons, List.flatMap_cons, List.flatMap_cons, List.append_assoc,
        List.append_assoc, hstream]
    rw [List.flatMap_cons, List.append_assoc] at hcut
    obtain ⟨part, hpart, rfl⟩ | ⟨cut, rfl, hlater⟩ := List.append_eq_append_iff.mp hcut
    · rw [Target.answer] at hpart
      obtain ⟨front, rfl, hreport⟩ | ⟨back, hback, rfl⟩ := List.append_eq_append_iff.mp hpart
      · -- The cut is in the report, and a rest of its frame stands in front of the later answers.
        have hframe : IsFrame (front ++ part) :=
          hreport ▸ Packet.isFrame_encode _ (Target.Harness.cmd_report_ne_zero v)
        obtain rfl | hpart := isFrame_of_append hframe
        · exact hlift [] rfl h
        · exact hlift [] rfl (h.of_part hpart (flatMap_answer_tail ht vs))
      · -- The cut is in the acknowledgment, which is heard whole or not at all.
        rw [List.append_assoc] at h
        obtain rfl := h.uncut hback
        obtain rfl : back = Target.ackBytes := hback.symm
        rw [← List.append_assoc] at h
        obtain ⟨rfl, rfl, rfl⟩ := h.of_answer
        exact ⟨0, v, rfl, rfl, rfl, by
          rw [List.take_zero, List.flatMap_nil, List.nil_append, List.flatMap_cons,
            Target.answer, List.append_assoc, List.append_assoc]⟩
    · exact hlift cut hlater.symm h

lemma drop_resetMarker : ∀ n ≤ 7,
    resetMarker.drop n = List.replicate (3 - n) 0 ++
      ((Packet.bare Command.reset.byte).encode ++ List.replicate 2 0) ∨
    resetMarker.drop n = List.replicate (7 - n) 0 := by decide

/-- The same when the cut is anywhere in all that a target sent since it booted. -/
theorem heard_of_stream {tail : List UInt8} (ht : IsTail tail) {vs : List Verdict}
    {cut u m rest : List UInt8} {q : Packet}
    (hcut : cut ++ u = resetMarker ++ (vs.flatMap Target.answer ++ tail))
    (h : Link.Heard u m q rest) :
    ∃ j v, vs[j]? = some v ∧ q = Target.Harness.report v ∧
      m = (Target.Harness.report v).encode ++ rest ∧
      (vs.take j).flatMap Target.answer ++ (Target.ackBytes ++ m) =
        vs.flatMap Target.answer ++ tail := by
  obtain ⟨part, hpart, rfl⟩ | ⟨cut, rfl, hlater⟩ := List.append_eq_append_iff.mp hcut
  · have hlength : cut.length ≤ 7 := by
      have := congrArg List.length hpart
      rw [List.length_append, show resetMarker.length = 7 from rfl] at this
      omega
    have hdrop : part = resetMarker.drop cut.length := by simp [hpart]
    obtain hreset | hzeros := drop_resetMarker cut.length hlength
    · rw [hdrop, hreset, List.append_assoc, List.append_assoc] at h
      exact h.of_zeros.not_reset.elim
    · rw [hdrop, hzeros] at h
      exact heard_of_answers ht [] rfl h.of_zeros
  · exact heard_of_answers ht cut hlater.symm h

end FaultBench.Host
