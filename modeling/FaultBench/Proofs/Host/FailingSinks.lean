import FaultBench.Proofs.Host.Copies
import FaultBench.Proofs.Host.Results
import FaultBench.Proofs.Text.Ascii

/-! Sessions that write to two sinks, each of which may fail at any character or at the flush. What
the sinks have is at every moment the beginning of the log, and a session that one of them fails ends
there: it asks for nothing more and starts no further execution. -/
namespace FaultBench.Host
open Event Text

/-! ### Lines -/

lemma Category.ascii_name (c : Category) : Ascii c.name.toList := by
  cases c <;> decide +kernel

lemma CrashKind.ascii_message (why : CrashKind) : Ascii why.message.toList := by
  cases why with
  | ackTimeout => decide +kernel
  | responseTimeout => decide +kernel
  | unexpected cmd =>
    change Ascii ("unexpected packet " ++ hexLiteral cmd).toList
    rw [String.toList_append, ascii_append]
    exact ⟨by decide +kernel, ascii_hexLiteral cmd⟩

lemma Interpretation.asciiStrings (i : Interpretation) : i.json.AsciiStrings := by
  have hnames : ∀ s ∈ ["kind", "counter", "observed", "expected", "buffer", "differing",
      "untouched", "malformed", "len", "expected_len"], Ascii s.toList := by decide +kernel
  simp only [List.forall_mem_cons] at hnames
  cases i <;> simp [json, hnames, -String.reduceToList]

/-- A line takes one byte a character. -/
lemma Record.ascii_line (number : ℕ) (response : Response) (p : Profile) (k : Workload.Kind)
    (elapsed : ℕ) : Ascii (Record.of number response p k elapsed).line := by
  have hnames : ∀ s ∈ ["cycle", "category", "detail", "payload", "interpretation", "elapsed_us"],
      Ascii s.toList := by decide +kernel
  simp only [List.forall_mem_cons] at hnames
  have hstrings : (Record.of number response p k elapsed).json.AsciiStrings := by
    cases response <;> simp [json, of, Json.member?, Response.detail?, Response.payload?, hnames,
      Category.ascii_name, CrashKind.ascii_message, Interpretation.asciiStrings,
      -String.reduceToList]
  rw [line, ascii_append]
  exact ⟨Json.ascii_print _ hstrings, by decide⟩

/-! ### Parts -/

/-- The output failed, and not the line. -/
def SessionError.OfOutput : SessionError → Prop
  | .link _ => False
  | _ => True

namespace Session

variable {s : Session} {p : Profile} {o : SessionOptions} {e next : Ended}
  {text later : List Char} {result result' : Except LinkError Unit} {seen more : List Event}

/-- A part of a session that has a text to write and, unless the output fails, ends as its line
does. -/
structure Part (s : Session) (text : List Char) (result : Except LinkError Unit) (e : Ended)
    (seen : List Event) : Prop where
  trace : e.session.trace = s.trace ++ seen
  copied : Copied text seen
  sent : e.session.link.serial.sent = s.link.serial.sent ++ sentBytes seen
  took : s.output.Took e.session.output seen
  failed (h : ∃ ev ∈ seen, ev.Fails) : ∃ f, e.result = .error f ∧ f.OfOutput
  carriedOn (h : ∀ ev ∈ seen, ¬ ev.Fails) : e.result = result.mapError .link

namespace Part

lemma nil (s : Session) : Part s [] (.ok ()) ⟨.ok (), s⟩ [] where
  trace := (List.append_nil _).symm
  copied := .unwritten rfl rfl (by simp)
  sent := (List.append_nil _).symm
  took := .unwritten rfl rfl
  failed hbad := by simp at hbad
  carriedOn _ := rfl

lemma not_fails (h : Part s text result e seen) (hok : e.result = .ok ()) :
    ∀ ev ∈ seen, ¬ ev.Fails := by
  intro ev hev hfails
  obtain ⟨f, hf, -⟩ := h.failed ⟨ev, hev, hfails⟩
  rw [hok] at hf
  cases hf

lemma result_of_ok (h : Part s text result e seen) (hok : e.result = .ok ()) :
    result = .ok () := by
  have hend := h.carriedOn (h.not_fails hok)
  cases result with
  | error f =>
    rw [hok] at hend
    cases hend
  | ok u => rfl

lemma append (h : Part s text result e seen) (hok : e.result = .ok ())
    (hmore : Part e.session later result' next more) :
    Part s (text ++ later) result' next (seen ++ more) where
  trace := by rw [hmore.trace, h.trace, List.append_assoc]
  copied := h.copied.append (h.not_fails hok) hmore.copied
  sent := by rw [hmore.sent, h.sent, sentBytes_append, List.append_assoc]
  took := h.took.append hmore.took
  failed hbad := by
    obtain ⟨ev, hev, hfails⟩ := hbad
    obtain hev | hev := List.mem_append.mp hev
    · exact absurd hfails (h.not_fails hok ev hev)
    · exact hmore.failed ⟨ev, hev, hfails⟩
  carriedOn hgood := hmore.carriedOn fun ev hev => hgood ev (List.mem_append_right _ hev)

lemma stopped (h : Part s text result e seen) (hbad : ∃ ev ∈ seen, ev.Fails) (later : List Char)
    (result' : Except LinkError Unit) : Part s (text ++ later) result' e seen :=
  { h with
    copied := h.copied.stopped hbad later
    carriedOn := fun hgood => by
      obtain ⟨ev, hev, hfails⟩ := hbad
      exact absurd hfails (hgood ev hev) }

/-- One part after the other, unless the first does not end well. Behind a failure of the line there
is nothing more to write. -/
lemma andThen (h : Part s text result e seen)
    (hnext : e.result = .ok () → ∃ more, Part e.session later result' next more)
    (hline : ∀ f, result = .error f → later = [] ∧ result' = .error f) :
    ∃ seen', Part s (text ++ later) result' (match e.result with
      | .error _ => e
      | .ok () => next) seen' := by
  by_cases hbad : ∃ ev ∈ seen, ev.Fails
  · obtain ⟨f, hf, -⟩ := h.failed hbad
    rw [hf]
    exact ⟨seen, h.stopped hbad later result'⟩
  · push Not at hbad
    have hend := h.carriedOn hbad
    cases result with
    | error f =>
      obtain ⟨rfl, rfl⟩ := hline f rfl
      rw [hend, List.append_nil]
      exact ⟨seen, h⟩
    | ok u =>
      have hok : e.result = .ok () := hend
      obtain ⟨more, hmore⟩ := hnext hok
      rw [hok]
      exact ⟨seen ++ more, h.append hok hmore⟩

/-- An attempt at the output, as a part of a session. -/
lemma ofWrote {a : Output.Attempt} (h : Output.Wrote s.output text a) {g : IoFailure → SessionError}
    (hg : ∀ f, (g f).OfOutput) :
    Part s text (.ok ()) ⟨a.result.mapError g, s.wrote a⟩ a.events where
  trace := rfl
  copied := h.copied
  sent := by rw [h.unsent, List.append_nil]; rfl
  took := h.took
  failed hfails := by
    cases hresult : a.result with
    | error f => exact ⟨g f, rfl, hg f⟩
    | ok u =>
      obtain ⟨ev, hev, hfails⟩ := hfails
      exact absurd hfails (h.result.mp hresult ev hev)
  carriedOn hgood := by
    rw [h.result.mpr hgood]
    rfl

end Part

/-! ### The parts of a session -/

/-- A record and the end of its line, as one attempt. -/
lemma write_eq_wrote (s : Session) (r : Record) :
    ∃ g : IoFailure → SessionError, (∀ f, (g f).OfOutput) ∧
      let a := (s.output.writeAll r.json.pieces).andThen (·.write ['\n'])
      s.write r = ⟨a.result.mapError g, s.wrote a⟩ := by
  cases hresult : (s.output.writeAll r.json.pieces).result with
  | error f =>
    refine ⟨.recordNotWritten, fun _ => trivial, ?_⟩
    simp only [write, Output.Attempt.andThen, hresult]
    rfl
  | ok u =>
    refine ⟨.lineNotEnded, fun _ => trivial, ?_⟩
    simp only [write, Output.Attempt.andThen, hresult, wrote, List.append_assoc]

lemma write_part (hs : s.output.second.isSome) (r : Record) :
    ∃ seen, Part s r.line (.ok ()) (s.write r) seen := by
  have hrecord : Output.Wrote s.output r.json.print (s.output.writeAll r.json.pieces) := by
    rw [← Json.flatten_pieces]
    exact Output.writeAll_wrote hs _
  have hend := Output.write_wrote (hrecord.took.isSome_second hs) ['\n']
  obtain ⟨g, hg, hwrite⟩ := s.write_eq_wrote r
  rw [hwrite]
  exact ⟨_, .ofWrote (hrecord.andThen hend) hg⟩

lemma record_part (hs : s.output.second.isSome) (r : Record) :
    ∃ seen, Part s r.line (.ok ()) (s.record r) seen := by
  obtain ⟨seen, h⟩ := write_part (s := { s with
    summary := s.summary.add r.category
    records := s.records ++ [r]
    log := s.log ++ divergence r }) hs r
  exact ⟨seen, h.trace, h.copied, h.sent, h.took, h.failed, h.carriedOn⟩

lemma finish_part (hs : s.output.second.isSome) : ∃ seen, Part s [] (.ok ()) s.finish seen :=
  ⟨_, .ofWrote (Output.flush_wrote hs) fun _ => trivial⟩

/-- Whatever is done on the line. -/
lemma reached_part {α : Type} {r : Reached α} (h : s.link.serial.sent <+: r.link.serial.sent)
    (result : Except LinkError Unit) :
    ∃ seen, Part s [] result ⟨result.mapError .link, s.reached r⟩ seen := by
  let bytes := r.link.serial.sent.drop s.link.serial.sent.length
  have hsent : r.link.serial.sent = s.link.serial.sent ++ bytes := by
    obtain ⟨more, hmore⟩ := h
    simp [bytes, ← hmore]
  have hgood : ∀ ev ∈ bytes.map Event.sent, ¬ ev.Fails := by simp [Fails]
  refine ⟨bytes.map .sent, rfl, ?_, ?_, .unwritten (taken_sent _) (taken_sent _),
    fun hbad => ?_, fun _ => rfl⟩
  · exact .unwritten (taken_sent _) (taken_sent _) fun ev hev =>
      hgood ev ((List.dropLast_sublist _).subset hev)
  · rw [sentBytes_sent]
    exact hsent
  · obtain ⟨ev, hev, hfails⟩ := hbad
    exact absurd hfails (hgood ev hev)

/-! ### Cycles -/

lemma link_record (s : Session) (r : Record) : (s.record r).session.link = s.link := by
  rw [record, write]
  dsimp only
  split <;> rfl

/-- A cycle that comes to a response writes its line. -/
lemma cycle_part (hs : s.output.second.isSome) (p : Profile) (number : ℕ) {response : Response}
    (hr : (s.link.cycle (micros o.ackTimeout) (micros o.responseTimeout)).result = .ok response) :
    let r := s.link.cycle (micros o.ackTimeout) (micros o.responseTimeout)
    let record := Record.of number response p o.workload
      (r.link.serial.clock - s.link.serial.clock)
    (s.cycle p o number).session.link = r.link ∧
      ∃ seen, Part s record.line (.ok ()) (s.cycle p o number) seen := by
  intro r record
  have hcycle : s.cycle p o number = (s.reached r).record record := by
    simp only [cycle, hr, r, record]
  rw [hcycle]
  obtain ⟨seen, hreached⟩ := reached_part (r := r) (s.link.sent_prefix_cycle _ _) (.ok ())
  obtain ⟨more, hrecord⟩ := record_part (s := s.reached r) hs record
  exact ⟨link_record _ _, seen ++ more, hreached.append rfl hrecord⟩

/-- The lines of the records of exchanges. -/
def logOf (x : Exchanges) (p : Profile) (o : SessionOptions) (number : ℕ) : List Char :=
  (x.records p o.workload number).flatMap Record.line

/-- Cycle by cycle. A cycle in which a sink fails is the last one, whatever the line would bring. -/
theorem cyclesFrom_part (hs : s.output.second.isSome) (p : Profile) (o : SessionOptions)
    (number n : ℕ) :
    let x := s.link.exchange (micros o.ackTimeout) (micros o.responseTimeout) n
    ∃ seen, Part s (logOf x p o number) x.result (s.cyclesFrom p o number n) seen := by
  induction n generalizing s number with
  | zero =>
    exact ⟨[], .nil s⟩
  | succ n ih =>
    cases hr : (s.link.cycle (micros o.ackTimeout) (micros o.responseTimeout)).result with
    | error f =>
      simp only [cyclesFrom, cycle, hr, Link.exchange]
      exact reached_part (s.link.sent_prefix_cycle _ _) (.error f)
    | ok response =>
      obtain ⟨hlink, seen, hcycle⟩ := cycle_part hs p number hr
      have hlater := ih (hcycle.took.isSome_second hs) (number + 1)
      rw [hlink] at hlater
      simp only [Link.exchange, hr, logOf, Exchanges.records_cons, List.flatMap_cons]
      exact hcycle.andThen (fun _ => hlater) fun f hf => by cases hf

/-! ### Runs -/

lemma begin_part (s : Session) (o : SessionOptions) :
    Part s [] (s.link.boot o).result (s.begin o) [] := by
  obtain ⟨hresult, log, hsession⟩ := s.begin_at o
  refine ⟨?_, .unwritten rfl rfl (by simp), ?_, ?_, by simp, fun _ => hresult⟩
  · simp [hsession]
  · rw [hsession]
    exact (sent_boot s.link o).trans (List.append_nil _).symm
  · rw [hsession]
    exact .unwritten rfl rfl

/-- The wait for the target, the cycles and the flush, each if what comes before it ended well. -/
theorem run_part (hs : s.output.second.isSome) (p : Profile) (o : SessionOptions) :
    ∃ seen, Part s (logOf (s.link.exchanges o) p o 0) (s.link.exchanges o).result (s.run p o)
      seen := by
  have hbegin := s.begin_part o
  have hfailed (f : LinkError) (hf : (s.link.boot o).result = .error f) :
      s.link.exchanges o = ⟨[], .error f, (s.link.boot o).link⟩ := by
    simp only [Link.exchanges, hf]
  have hbooted (hok : (s.begin o).result = .ok ()) :
      s.link.exchanges o = (s.begin o).session.link.exchange (micros o.ackTimeout)
        (micros o.responseTimeout) o.cycles := by
    obtain ⟨-, log, hsession⟩ := s.begin_at o
    simp only [Link.exchanges, hbegin.result_of_ok hok, hsession]
  rw [← List.nil_append (logOf _ p o 0)]
  refine hbegin.andThen (fun hok => ?_) fun f hf => ?_
  · obtain ⟨seen, hcycles⟩ := cyclesFrom_part (hbegin.took.isSome_second hs) p o 0 o.cycles
    rw [← hbooted hok] at hcycles
    rw [← List.append_nil (logOf _ p o 0)]
    refine hcycles.andThen (fun hok => ?_) fun f hf => ⟨rfl, hf⟩
    rw [hcycles.result_of_ok hok]
    exact finish_part (hcycles.took.isSome_second (hbegin.took.isSome_second hs))
  · rw [hfailed f hf]
    exact ⟨rfl, rfl⟩

/-- A session that ends well ends with its flush. -/
lemma flushFails_of_run (hok : (s.run p o).result = .ok ()) :
    (s.run p o).session.output.first.flushFails = false ∧
      ∀ t, (s.run p o).session.output.second = some t → t.flushFails = false := by
  have hlast : ∃ s' : Session, s.run p o = s'.finish := by
    cases hbegin : (s.begin o).result with
    | error f => simp [run, hbegin] at hok
    | ok u =>
      cases hcycles : ((s.begin o).session.cyclesFrom p o 0 o.cycles).result with
      | error f => simp [run, hbegin, hcycles] at hok
      | ok u =>
        refine ⟨((s.begin o).session.cyclesFrom p o 0 o.cycles).session, ?_⟩
        simp only [run, hbegin, hcycles]
  obtain ⟨s', hrun⟩ := hlast
  rw [hrun] at hok ⊢
  have hkept : s'.finish.session.output = s'.output := s'.output.flush_output
  have hflush : s'.output.flush.result = .ok () := by
    cases hresult : s'.output.flush.result with
    | error f =>
      simp only [finish, hresult] at hok
      cases hok
    | ok u => rfl
  rw [hkept]
  exact Output.flushFails_of_flush hflush

/-! ### What the sinks have -/

/-- The trace of a session tells what its sinks took and what went out on its line, and both sinks
have a beginning of the log, whatever becomes of them. -/
structure Kept (l : Link) (first second : Sink) (o : SessionOptions) (e : Ended) (x : Exchanges)
    (records : List Record) : Prop where
  tookFirst : first.Took e.session.output.first (taken .first e.session.trace)
  tookSecond : ∃ t, e.session.output.second = some t ∧
    second.Took t (taken .second e.session.trace)
  sent : e.session.link.serial.sent = l.serial.sent ++ sentBytes e.session.trace
  /-- At every moment. -/
  ordered {past : List Event} (h : past <+: e.session.trace) :
    taken .second past <+: taken .first past ∧
      taken .first past <+: records.flatMap Record.line
  /-- Nothing is seen of a session behind a write or a flush that failed. -/
  stopped {past later : List Event} {ev : Event} (h : e.session.trace = past ++ ev :: later)
    (hfails : ev.Fails) : later = [] ∧ ∃ f, e.result = .error f ∧ f.OfOutput
  /-- Without such a failure it ends as its line does. -/
  carriedOn (h : ∀ ev ∈ e.session.trace, ¬ ev.Fails) : e.result = x.result.mapError .link ∧
    taken .first e.session.trace = records.flatMap Record.line ∧
    taken .second e.session.trace = records.flatMap Record.line
  completed (h : e.result = .ok ()) : records.length = o.cycles ∧
    taken .first e.session.trace = records.flatMap Record.line ∧
    taken .second e.session.trace = records.flatMap Record.line
  flushed (h : e.result = .ok ()) : first.flushFails = false ∧ second.flushFails = false
  numbered : records.map Record.cycle = List.range records.length
  /-- Each record takes one line, and each character of it one byte. -/
  lines {r : Record} (h : r ∈ records) : '\n' ∉ r.json.print ∧ Ascii r.line

lemma numbered_records (x : Exchanges) (p : Profile) (k : Workload.Kind) :
    (x.records p k 0).map Record.cycle = List.range (x.records p k 0).length := by
  refine List.ext_getElem (by simp) fun i h _ => ?_
  simp [Exchanges.records, Record.of]

lemma ascii_records {x : Exchanges} {p : Profile} {k : Workload.Kind} {number : ℕ} {r : Record}
    (h : r ∈ x.records p k number) : Ascii r.line := by
  obtain ⟨i, hi, rfl⟩ := List.mem_iff_getElem.mp h
  simp only [Exchanges.records, List.getElem_mapIdx]
  exact Record.ascii_line _ _ _ _ _

/-- For all sinks, wherever they begin to fail, the second one never has more than the first and the
first never anything but the beginning of the log; the first failure ends the session at once; and a
session that ends well leaves the whole log, a line for each cycle, in both of them. -/
theorem log_kept (l : Link) (first second : Sink) (p : Profile) (o : SessionOptions) :
    Kept l first second o (({ link := l, output := ⟨first, some second⟩ } : Session).run p o)
      (l.exchanges o) ((l.exchanges o).records p o.workload 0) := by
  let s : Session := { link := l, output := ⟨first, some second⟩ }
  have hs : s.output.second.isSome := rfl
  obtain ⟨seen, h⟩ := run_part hs p o
  have htrace : (s.run p o).session.trace = seen := h.trace
  rw [← htrace] at h
  refine ⟨h.took.first, h.took.second rfl, h.sent, h.copied.ordered,
    fun {past later ev} hsplit hfails => ?_,
    fun hgood => ⟨h.carriedOn hgood, h.copied.whole hgood⟩,
    fun hok => ⟨?_, h.copied.whole (h.not_fails hok)⟩, fun hok => ?_, numbered_records _ _ _,
    fun hr => ?_⟩
  · refine ⟨?_, h.failed ⟨ev, by rw [hsplit]; simp, hfails⟩⟩
    by_contra hne
    refine h.copied.last ev ?_ hfails
    rw [hsplit, List.dropLast_append_of_ne_nil (List.cons_ne_nil _ _),
      List.dropLast_cons_of_ne_nil hne]
    simp
  · rw [Exchanges.length_records]
    exact (exchanges_completed (h.result_of_ok hok)).1
  · obtain ⟨hfirst, hsecond⟩ := flushFails_of_run hok
    obtain ⟨t, ht, htook⟩ := h.took.second rfl
    exact ⟨h.took.first.flushFails.symm.trans hfirst, htook.flushFails.symm.trans (hsecond t ht)⟩
  · exact ⟨Json.newline_not_mem_print _, ascii_records hr⟩

-- The first sink fails inside of a piece, which the second one then never sees.
example :
    let arrivals : List Arrival := [.byte 0x73, .byte 0, .byte 0x65, .byte 0]
    let s : Session :=
      { link := { serial := { incoming := arrivals } }, output := ⟨{ left := some 5 }, some {}⟩ }
    let e := s.run {} { workload := .countedLoop, cycles := 2, ackTimeout := 20,
                        responseTimeout := 20 }
    e.session.output.first.accepted = "\x7b\"cyc".toList ∧
      e.session.output.second.map Sink.accepted = some "\x7b\"".toList ∧
      e.session.trace.getLast? = some (.refused .first "le".toList) ∧
      e.session.link.serial.sent = [0x73, 0] := by
  decide +kernel

end Session
end FaultBench.Host
