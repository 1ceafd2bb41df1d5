import FaultBench.Host.Session
import FaultBench.Proofs.Host.Exchanges
import FaultBench.Proofs.Text.Json

/-! Sessions that write to sinks which take everything: each exchange that comes to a response
leaves one record and one line. -/
namespace FaultBench.Host

namespace Sink

/-- Neither writes nor flushes fail. -/
def Accepting (s : Sink) : Prop := s.left = none ∧ s.flushFails = false

def took (s : Sink) (text : List Char) : Sink := { s with accepted := s.accepted ++ text }

variable {s : Sink}

lemma Accepting.write (h : s.Accepting) (text : List Char) :
    s.write text = (.ok (), s.took text) := by
  obtain ⟨accepted, left, flushFails⟩ := s
  obtain ⟨rfl, -⟩ := h
  rfl

lemma Accepting.events (h : s.Accepting) (place : Place) (text : List Char) :
    s.events place text = text.map (.took place) := by
  rw [Sink.events, h.1]

lemma Accepting.flush (h : s.Accepting) : s.flush = .ok () := by
  rw [Sink.flush, h.2]
  rfl

end Sink

namespace Output

def Accepting (o : Output) : Prop := o.first.Accepting ∧ ∀ s, o.second = some s → s.Accepting

/-- The output after all sinks took a text. -/
def took (o : Output) (text : List Char) : Output := ⟨o.first.took text, o.second.map (·.took text)⟩

/-- What is seen when all sinks take a text. -/
def copies (o : Output) (text : List Char) : List Event :=
  text.map (.took .first) ++ if o.second.isSome then text.map (.took .second) else []

variable {o : Output}

lemma Accepting.write (h : o.Accepting) (text : List Char) :
    o.write text = ⟨.ok (), o.took text, o.copies text⟩ := by
  obtain ⟨first, _ | s⟩ := o
  · simp [Output.write, h.1.write, h.1.events, Output.took, copies]
  · simp [Output.write, h.1.write, h.1.events, (h.2 s rfl).write, (h.2 s rfl).events, Output.took,
      copies]

lemma Accepting.took (h : o.Accepting) (text : List Char) : (o.took text).Accepting := by
  obtain ⟨first, _ | s⟩ := o
  · exact ⟨h.1, by simp [Output.took]⟩
  · refine ⟨h.1, fun t ht => ?_⟩
    cases ht
    exact h.2 s rfl

@[simp] lemma flush_output (o : Output) : o.flush.output = o := by
  rw [flush]
  split <;> rfl

lemma Accepting.flush (h : o.Accepting) : o.flush.result = .ok () := by
  obtain ⟨first, _ | s⟩ := o
  · simp only [Output.flush, h.1.flush]
  · simp only [Output.flush, h.1.flush, (h.2 s rfl).flush]

@[simp] lemma took_nil (o : Output) : o.took [] = o := by
  obtain ⟨first, _ | s⟩ := o <;> simp [Output.took, Sink.took]

@[simp] lemma took_took (o : Output) (a b : List Char) : (o.took a).took b = o.took (a ++ b) := by
  obtain ⟨first, _ | s⟩ := o <;> simp [Output.took, Sink.took]

@[simp] lemma copies_took (o : Output) (a b : List Char) : (o.took a).copies b = o.copies b := by
  simp [copies, Output.took]

lemma Accepting.writeAll (h : o.Accepting) (pieces : List (List Char)) :
    o.writeAll pieces = ⟨.ok (), o.took pieces.flatten, pieces.flatMap o.copies⟩ := by
  induction pieces generalizing o with
  | nil => simp [Output.writeAll]
  | cons piece pieces ih =>
    have hcopies : (o.took piece).copies = o.copies := funext fun _ => copies_took _ _ _
    rw [Output.writeAll, h.write, Attempt.andThen, ih (h.took piece), hcopies]
    simp

end Output

def Record.line (r : Record) : List Char := r.json.print ++ ['\n']

def Summary.addAll (s : Summary) (records : List Record) : Summary :=
  records.foldl (fun s r => s.add r.category) s

def Record.countOf (c : Category) (records : List Record) : ℕ :=
  records.countP fun r => decide (r.category = c)

lemma Record.countOf_cons (c : Category) (r : Record) (records : List Record) :
    countOf c (r :: records) = countOf c records + if r.category = c then 1 else 0 := by
  rw [countOf, countOf, List.countP_cons]
  by_cases h : r.category = c <;> simp [h]

lemma Summary.count_addAll (s : Summary) (records : List Record) (c : Category) :
    (s.addAll records).count c = s.count c + Record.countOf c records := by
  induction records generalizing s with
  | nil => rfl
  | cons r records ih =>
    rw [addAll, List.foldl_cons, ← addAll, ih, count_add, Record.countOf_cons]
    omega

lemma Summary.cycles_addAll (s : Summary) (records : List Record) :
    (s.addAll records).cycles = s.cycles + records.length := by
  induction records generalizing s with
  | nil => rfl
  | cons r records ih =>
    rw [addAll, List.foldl_cons, ← addAll, ih, cycles_add, List.length_cons]
    omega

namespace Session

variable {s : Session} {o : SessionOptions} {response : Response}

/-- A session that did nothing yet, on a line that takes every byte and into sinks that take
everything. -/
structure Fresh (s : Session) : Prop where
  line : s.link.serial.Accepting
  assembler : s.link.assembler = {}
  output : s.output.Accepting
  summary : s.summary = {}
  records : s.records = []

/-- Nothing of a wait for the target to boot is seen from outside. -/
@[simp] lemma reached_awaitReset (s : Session) (timeout : ℕ) :
    s.reached (s.link.awaitReset timeout) =
      { s with
        link := (s.link.awaitReset timeout).link
        log := s.log ++ (s.link.awaitReset timeout).log } := by
  simp [reached, Link.sent_awaitReset]

/-- The wait for the target to boot leaves no record. -/
lemma session_begin (s : Session) (o : SessionOptions) :
    ∃ link log, (s.begin o).session = { s with link, log } := by
  rw [begin]
  split
  · exact ⟨s.link, s.log, rfl⟩
  · simp only [reached_awaitReset]
    split <;> exact ⟨_, _, rfl⟩

/-- On a line that stays open it ends well. -/
lemma begin_lossless (hl : Lossless s.link.serial.incoming) (o : SessionOptions) :
    (s.begin o).result = .ok () ∧ ∃ front rest clock assembler,
      s.link.serial.incoming = front ++ rest ∧
      (s.begin o).session.link = ⟨{ s.link.serial with clock, incoming := rest }, assembler⟩ := by
  cases hreset : o.resetTimeout with
  | none =>
    simp only [begin, hreset]
    exact ⟨trivial, [], s.link.serial.incoming, _, _, rfl, rfl⟩
  | some timeout =>
    obtain ⟨front, rest, clock, assembler, heard, hsplit, hresult, hlink⟩ :=
      Link.listen_lossless false Link.isReset (s.link.serial.clock + micros timeout)
        s.link.serial s.link.assembler hl
    have hawait : (s.link.awaitReset (micros timeout)).result = .ok heard.isSome :=
      congrArg (Except.map Option.isSome) hresult
    simp only [begin, hreset, hawait]
    cases heard with
    | none => exact ⟨rfl, front, rest, clock, assembler, hsplit, hlink⟩
    | some p => exact ⟨rfl, front, rest, clock, assembler, hsplit, hlink⟩

def recorded (s : Session) (r : Record) : Session :=
  { s with
    summary := s.summary.add r.category
    records := s.records ++ [r]
    log := s.log ++ divergence r
    output := s.output.took r.line
    trace := s.trace ++ r.json.pieces.flatMap s.output.copies ++ s.output.copies ['\n'] }

lemma record_accepting (h : s.output.Accepting) (r : Record) :
    s.record r = ⟨.ok (), s.recorded r⟩ := by
  simp only [record, write, wrote, h.writeAll, (h.took _).write, Output.took_took,
    Output.copies_took, Text.Json.flatten_pieces, recorded, Record.line]
  rfl

/-- A cycle that comes to a response leaves its record. -/
lemma cycle_eq_recorded (p : Profile) (number : ℕ) (h : s.output.Accepting)
    (hr : (s.link.cycle (micros o.ackTimeout) (micros o.responseTimeout)).result = .ok response) :
    s.cycle p o number =
      let r := s.link.cycle (micros o.ackTimeout) (micros o.responseTimeout)
      ⟨.ok (), (s.reached r).recorded (.of number response p o.workload
        (r.link.serial.clock - s.link.serial.clock))⟩ := by
  simp only [cycle, hr]
  exact record_accepting (s := s.reached _) h _

theorem cycle_of_response (p : Profile) (number : ℕ) (h : s.output.Accepting)
    (hr : (s.link.cycle (micros o.ackTimeout) (micros o.responseTimeout)).result = .ok response) :
    ∃ elapsed, s.cycle p o number =
      ⟨.ok (), (s.reached (s.link.cycle (micros o.ackTimeout) (micros o.responseTimeout))).recorded
        (.of number response p o.workload elapsed)⟩ :=
  ⟨_, cycle_eq_recorded p number h hr⟩

end Session
end FaultBench.Host
