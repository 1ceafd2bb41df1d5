import FaultBench.Proofs.Bench.Answers
import FaultBench.Proofs.Host.Recording

/-! A host and a target on a bench, with a line between them that loses nothing and keeps the order.
The target moves, bytes arrive and time passes between a start and the end of its exchange, in any
order and as often as a schedule says. -/
namespace FaultBench

inductive Move where
  /-- The target makes a transition; the disturbance counts if it is an execution. -/
  | target (d : Disturbance)
  /-- The oldest byte under way reaches the host's port. -/
  | arrive
  /-- A read of the host fails after some time. -/
  | stall (time : ℕ)
  /-- A read of the host takes some time more. -/
  | pause (time : ℕ)
  deriving DecidableEq, Repr

structure Bench (capacity : ℕ) where
  harness : Target.Harness capacity
  session : Host.Session
  /-- What the target sent and has not arrived. -/
  underWay : List UInt8 := []
  /-- All that the target sent so far. -/
  sent : List UInt8 := []
  /-- The verdicts on the executions so far, in the order of the starts that caused them. -/
  verdicts : List Verdict := []

namespace Bench

variable {capacity : ℕ}

def advance (b : Bench capacity) (disturbance : Disturbance) : Bench capacity :=
  let h := { b.harness with disturbance }
  let bytes := Target.sentBytes h.step.events
  { b with
    harness := h.step.harness
    underWay := b.underWay ++ bytes
    sent := b.sent ++ bytes
    verdicts := b.verdicts ++ h.concluded }

def onPort (b : Bench capacity) (item : Host.Arrival) : Bench capacity :=
  { b with session := { b.session with
      link := { b.session.link with serial := b.session.link.serial.deliver [item] } } }

/-- A target that waits for a packet stays as it is. -/
def move (b : Bench capacity) : Move → Bench capacity
  | .target d =>
    if b.harness.phase = .idle ∧ b.harness.channel.line.incoming = [] then b else b.advance d
  | .arrive =>
    match b.underWay with
    | [] => b
    | x :: underWay => { b.onPort (.byte x) with underWay }
  | .stall time => b.onPort (.stall time)
  | .pause time => b.onPort (.pause time)

def moves (b : Bench capacity) (schedule : List Move) : Bench capacity := schedule.foldl move b

/-- A start is on its way to the target. -/
def start (b : Bench capacity) : Bench capacity :=
  { b with harness := b.harness.onLine (·.deliver Target.startFrame) }

/-- The cycle with a number, and what happens between its start and the end of its exchange. -/
def cycle (p : Profile) (o : Host.SessionOptions) (number : ℕ) (b : Bench capacity)
    (schedule : List Move) : Bench capacity :=
  let b := b.start.moves schedule
  { b with session := (b.session.cycle p o number).session }

def cyclesFrom (p : Profile) (o : Host.SessionOptions) (number : ℕ) (b : Bench capacity) :
    List (List Move) → Bench capacity
  | [] => b
  | schedule :: rest => (b.cycle p o number schedule).cyclesFrom p o (number + 1) rest

/-- A session with a target that may boot before it. -/
def run (p : Profile) (o : Host.SessionOptions) (b : Bench capacity) (before : List Move)
    (schedules : List (List Move)) : Bench capacity :=
  let b := b.moves before
  { b with session := (b.session.begin o).session }.cyclesFrom p o 0 schedules

/-- What was sent and not read by the host, whether it arrived or not. -/
def unread (b : Bench capacity) : List UInt8 :=
  Host.bytesOf b.session.link.serial.incoming ++ b.underWay

/-- A target that did not boot, a session that did nothing, and nothing between them. -/
structure New (b : Bench capacity) : Prop where
  able : b.harness.Able
  boot : b.harness.phase = .boot
  quiet : b.harness.channel.line.incoming = []
  fresh : b.session.Fresh
  silent : b.session.link.serial.incoming = []
  underWay : b.underWay = []
  sent : b.sent = []
  verdicts : b.verdicts = []

/-- Target and host between two cycles, after some starts. -/
structure Sound (b : Bench capacity) (starts : ℕ) : Prop where
  serving : b.harness.Serving b.sent b.verdicts starts
  line : b.session.link.serial.Accepting
  lossless : Host.Lossless b.session.link.serial.incoming
  output : b.session.output.Accepting
  read : ∃ read, b.sent = read ++ b.unread

/-- What moves add: bytes behind those that were sent, and verdicts behind those that were given. -/
structure Grows (b c : Bench capacity) (bytes : List UInt8) : Prop where
  sent : c.sent = b.sent ++ bytes
  unread : c.unread = b.unread ++ bytes
  verdicts : ∃ more, c.verdicts = b.verdicts ++ more
  records : c.session.records = b.session.records

namespace Sound

variable {b : Bench capacity} {starts : ℕ}

lemma start (hb : b.Sound starts) : b.start.Sound (starts + 1) :=
  ⟨hb.serving.deliver, hb.line, hb.lossless, hb.output, hb.read⟩

lemma onPort (hb : b.Sound starts) (item : Host.Arrival) (hitem : Host.Lossless [item])
    {underWay : List UInt8} (hbytes : b.underWay = Host.bytesOf [item] ++ underWay) :
    Sound { b.onPort item with underWay } starts ∧ b.Grows { b.onPort item with underWay } [] := by
  have hunread : Bench.unread { b.onPort item with underWay } = b.unread := by
    change Host.bytesOf (b.session.link.serial.incoming ++ [item]) ++ underWay = _ ++ b.underWay
    rw [hbytes, Host.bytesOf_append, List.append_assoc]
  refine ⟨⟨hb.serving, ⟨hb.line.writes, hb.line.flushes, hb.line.quiet⟩,
    (Host.lossless_append _ _).mpr ⟨hb.lossless, hitem⟩, hb.output, ?_⟩, ?_⟩
  · rw [hunread]
    exact hb.read
  · exact ⟨(List.append_nil _).symm, by rw [hunread, List.append_nil],
      ⟨[], (List.append_nil _).symm⟩, rfl⟩

end Sound

lemma Grows.refl (b : Bench capacity) : b.Grows b [] :=
  ⟨(List.append_nil _).symm, (List.append_nil _).symm, ⟨[], (List.append_nil _).symm⟩, rfl⟩

lemma Grows.trans {a b c : Bench capacity} {x y : List UInt8} (hab : a.Grows b x)
    (hbc : b.Grows c y) : a.Grows c (x ++ y) := by
  obtain ⟨more, hmore⟩ := hab.verdicts
  obtain ⟨more', hmore'⟩ := hbc.verdicts
  exact ⟨by rw [hbc.sent, hab.sent, List.append_assoc],
    by rw [hbc.unread, hab.unread, List.append_assoc],
    ⟨more ++ more', by rw [hmore', hmore, List.append_assoc]⟩, hbc.records.trans hab.records⟩

namespace Sound

variable {b : Bench capacity} {starts : ℕ}

/-- Every move keeps target and host in order. -/
theorem move (hb : b.Sound starts) (m : Move) :
    (b.move m).Sound starts ∧ ∃ bytes, b.Grows (b.move m) bytes := by
  cases m with
  | target d =>
    rw [Bench.move]
    split
    · exact ⟨hb, [], .refl b⟩
    · next hready =>
      have hunread : (b.advance d).unread = b.unread ++
          Target.sentBytes (Target.Harness.step { b.harness with disturbance := d }).events :=
        (List.append_assoc _ _ _).symm
      obtain ⟨read, hread⟩ := hb.read
      refine ⟨⟨(hb.serving.disturb d).step hready, hb.line, hb.lossless, hb.output, read, ?_⟩,
        _, rfl, hunread, ⟨_, rfl⟩, rfl⟩
      rw [hunread, ← List.append_assoc, ← hread]
      rfl
  | arrive =>
    rw [Bench.move]
    split
    · exact ⟨hb, [], .refl b⟩
    · next x underWay hx =>
      obtain ⟨hsound, hgrows⟩ := hb.onPort (.byte x) (by simp [Host.Lossless]) hx
      exact ⟨hsound, [], hgrows⟩
  | stall time =>
    obtain ⟨hsound, hgrows⟩ := hb.onPort (.stall time) (by simp [Host.Lossless]) rfl
    exact ⟨hsound, [], hgrows⟩
  | pause time =>
    obtain ⟨hsound, hgrows⟩ := hb.onPort (.pause time) (by simp [Host.Lossless]) rfl
    exact ⟨hsound, [], hgrows⟩

theorem moves (hb : b.Sound starts) (schedule : List Move) :
    (b.moves schedule).Sound starts ∧ ∃ bytes, b.Grows (b.moves schedule) bytes := by
  induction schedule generalizing b with
  | nil => exact ⟨hb, [], .refl b⟩
  | cons m schedule ih =>
    obtain ⟨hmove, bytes, hgrows⟩ := hb.move m
    obtain ⟨hmoves, more, hgrows'⟩ := ih hmove
    exact ⟨hmoves, bytes ++ more, hgrows.trans hgrows'⟩

/-- A host that took items off the front of its line is still in order. -/
lemma onSession (hb : b.Sound starts) {session : Host.Session} {front rest : List Host.Arrival}
    (hline : session.link.serial.Accepting) (houtput : session.output.Accepting)
    (hsplit : b.session.link.serial.incoming = front ++ rest)
    (hrest : session.link.serial.incoming = rest) : Sound { b with session } starts := by
  obtain ⟨read, hread⟩ := hb.read
  refine ⟨hb.serving, hline, ?_, houtput, read ++ Host.bytesOf front, ?_⟩
  · have hl := hb.lossless
    rw [hsplit] at hl
    rw [hrest]
    exact ((Host.lossless_append _ _).mp hl).2
  · rw [hread, unread, unread, hsplit, hrest, Host.bytesOf_append]
    simp

lemma begin (hb : b.Sound starts) (o : Host.SessionOptions) :
    Sound { b with session := (b.session.begin o).session } starts := by
  obtain ⟨link, log, hsession⟩ := b.session.session_begin o
  obtain ⟨-, front, rest, clock, assembler, hsplit, hlink⟩ :=
    Host.Session.begin_lossless hb.lossless o
  refine hb.onSession ?_ ?_ hsplit (congrArg (·.serial.incoming) hlink)
  · rw [hlink]
    exact ⟨hb.line.writes, hb.line.flushes, hb.line.quiet⟩
  · rw [hsession]
    exact hb.output

/-- A cycle leaves a record and keeps target and host in order, whatever was heard. A record that
tells how a run ended follows from what was unread at the end of the moves. -/
theorem cycle (hb : b.Sound starts) (p : Profile) (o : Host.SessionOptions) (number : ℕ)
    (schedule : List Move) :
    ((b.start.moves schedule).session.cycle p o number).result = .ok () ∧
      (b.cycle p o number schedule).Sound (starts + 1) ∧
      ∃ response elapsed, (b.cycle p o number schedule).session.records =
          b.session.records ++ [Host.Record.of number response p o.workload elapsed] ∧
        (response.category = .noFault ∨ response.category = .fault → ∃ m q,
          Host.Link.Heard (b.start.moves schedule).unread m q (b.cycle p o number schedule).unread ∧
          Host.Link.response (some q) = response) := by
  obtain ⟨hc, bytes, hgrows⟩ := hb.start.moves schedule
  have hrecords : (b.start.moves schedule).session.records = b.session.records := hgrows.records
  rw [Bench.cycle]
  dsimp only
  generalize b.start.moves schedule = c at *
  obtain ⟨front, rest, clock, assembler, response, hsplit, hresult, hlink, hheard⟩ :=
    Host.Link.cycle_lossless (Host.Session.micros o.ackTimeout)
      (Host.Session.micros o.responseTimeout) hc.line hc.lossless
  obtain ⟨elapsed, hcycle⟩ :=
    Host.Session.cycle_of_response p number hc.output hresult
  rw [hcycle]
  refine ⟨rfl, hc.onSession ?_ (hc.output.took _) hsplit (congrArg (·.serial.incoming) hlink),
    response, elapsed, ?_, fun hdecisive => ?_⟩
  · change (c.session.link.cycle _ _).link.serial.Accepting
    rw [hlink]
    exact ⟨hc.line.writes, hc.line.flushes, hc.line.quiet⟩
  · rw [← hrecords]
    rfl
  · obtain ⟨m, q, h, hq⟩ := hheard hdecisive
    refine ⟨m ++ c.underWay, q, ?_, hq⟩
    change Host.Link.Heard _ _ q
      (Host.bytesOf (c.session.link.cycle _ _).link.serial.incoming ++ c.underWay)
    rw [hlink]
    exact h.append c.underWay

/-- Every further cycle leaves one more record, and keeps target and host in order. -/
theorem cyclesFrom (hb : b.Sound starts) (p : Profile) (o : Host.SessionOptions) (number : ℕ)
    (schedules : List (List Move)) :
    (b.cyclesFrom p o number schedules).Sound (starts + schedules.length) ∧
      ∃ records, (b.cyclesFrom p o number schedules).session.records =
        b.session.records ++ records ∧ records.length = schedules.length := by
  induction schedules generalizing b starts number with
  | nil => exact ⟨hb, [], (List.append_nil _).symm, rfl⟩
  | cons schedule schedules ih =>
    obtain ⟨-, hcycle, response, elapsed, hrecord, -⟩ := hb.cycle p o number schedule
    obtain ⟨hsound, records, hrecords, hlength⟩ := ih hcycle (number + 1)
    refine ⟨?_, Host.Record.of number response p o.workload elapsed :: records, ?_, ?_⟩
    · rw [List.length_cons, Nat.add_comm schedules.length, ← Nat.add_assoc]
      exact hsound
    · rw [Bench.cyclesFrom, hrecords, hrecord, List.append_assoc]
      rfl
    · exact congrArg (· + 1) hlength

theorem run (hb : b.Sound 0) (hnone : b.session.records = []) (p : Profile)
    (o : Host.SessionOptions) (before : List Move) (schedules : List (List Move)) :
    (b.run p o before schedules).Sound schedules.length ∧
      (b.run p o before schedules).session.records.length = schedules.length := by
  obtain ⟨hmoved, bytes, hgrows⟩ := hb.moves before
  obtain ⟨hsound, records, hrecords, hlength⟩ := (hmoved.begin o).cyclesFrom p o 0 schedules
  obtain ⟨link, log, hsession⟩ := (b.moves before).session.session_begin o
  have hbegun : ((b.moves before).session.begin o).session.records = [] := by
    rw [hsession]
    exact hgrows.records.trans hnone
  rw [Nat.zero_add] at hsound
  refine ⟨hsound, ?_⟩
  rw [← hlength]
  exact congrArg List.length (hrecords.trans (by rw [hbegun, List.nil_append]))

lemma of_new (hb : b.New) : b.Sound 0 := by
  refine ⟨⟨hb.able, fun _ => ⟨hb.sent, hb.verdicts⟩, fun hboot => absurd hb.boot hboot, 0, hb.quiet,
    ?_⟩, hb.fresh.line, ?_, hb.fresh.output, [], ?_⟩
  · rw [hb.verdicts, hb.boot]
    rfl
  · rw [hb.silent]
    exact Host.lossless_nil
  · rw [hb.sent, unread, hb.silent, hb.underWay]
    rfl

end Sound

lemma run_append (b : Bench capacity) (p : Profile) (o : Host.SessionOptions) (before : List Move)
    (xs ys : List (List Move)) :
    b.run p o before (xs ++ ys) = (b.run p o before xs).cyclesFrom p o xs.length ys := by
  have happend (c : Bench capacity) (number : ℕ) : c.cyclesFrom p o number (xs ++ ys) =
      (c.cyclesFrom p o number xs).cyclesFrom p o (number + xs.length) ys := by
    induction xs generalizing c number with
    | nil => rfl
    | cons schedule xs ih =>
      rw [List.cons_append, cyclesFrom, ih, cyclesFrom, List.length_cons, Nat.add_assoc,
        Nat.add_comm 1]
  rw [run, happend, Nat.zero_add]
  rfl

end Bench
end FaultBench
