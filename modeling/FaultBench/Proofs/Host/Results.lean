import FaultBench.Proofs.Host.Exchanges
import FaultBench.Proofs.Host.Recording
import FaultBench.Proofs.Text.Json

/-! The results of a session on a port of any kind, in sinks that take everything: a line for each
exchange that came to a response, a summary that counts the lines, and the starts that were sent. -/
namespace FaultBench.Host
open Text

/-! ### Counting -/

/-- A summary as it is kept while cycles come in: the number of them, and under its name an entry
for each category that came up. -/
structure Tally where
  cycles : ℕ := 0
  categories : Std.TreeMap String ℕ := {}

namespace Tally

def count (t : Tally) (name : String) : ℕ := t.categories.getD name 0

def record (t : Tally) (name : String) : Tally where
  cycles := t.cycles + 1
  categories := t.categories.insert name (t.count name + 1)

def recordAll (t : Tally) (names : List String) : Tally := names.foldl record t

lemma count_record (t : Tally) (c d : String) :
    (t.record c).count d = t.count d + if c == d then 1 else 0 := by
  by_cases hcd : c = d
  · subst hcd
    simp [count, record]
  · simp [count, record, Std.TreeMap.getD_insert, hcd]

lemma cycles_recordAll (t : Tally) (names : List String) :
    (t.recordAll names).cycles = t.cycles + names.length := by
  induction names generalizing t with
  | nil => rfl
  | cons c names ih =>
    have hstep : (t.record c).cycles = t.cycles + 1 := rfl
    rw [recordAll, List.foldl_cons, ← recordAll, ih, hstep, List.length_cons]
    omega

lemma count_recordAll (t : Tally) (names : List String) (c : String) :
    (t.recordAll names).count c = t.count c + names.count c := by
  induction names generalizing t with
  | nil => rfl
  | cons d names ih =>
    rw [recordAll, List.foldl_cons, ← recordAll, ih, count_record, List.count_cons]
    omega

end Tally

/-! ### Lines -/

/-- An object with these members tells an interpretation. -/
def Interpretation.ToldBy (members : List (String × Json)) : Interpretation → Prop
  | .counter observed expected =>
    members.lookup "kind" = some (.text "counter") ∧
      members.lookup "observed" = some (.number observed.toNat) ∧
      members.lookup "expected" = some (.number expected.toNat)
  | .buffer differing untouched =>
    members.lookup "kind" = some (.text "buffer") ∧
      members.lookup "differing" = some (.list (differing.map .number)) ∧
      members.lookup "untouched" = some (.boolean untouched)
  | .malformed length expected =>
    members.lookup "kind" = some (.text "malformed") ∧
      members.lookup "len" = some (.number length) ∧
      members.lookup "expected_len" = some (.number expected)

/-- An object with these members stands on one line and tells of a response. Names and texts are
spelled as they are read from the results. -/
structure LineOf (p : Profile) (k : Workload.Kind) (number : ℕ) (response : Response)
    (members : List (String × Json)) : Prop where
  oneLine : '\n' ∉ (Json.object members).print
  /-- No other value has this text. -/
  only (j : Json) (h : j.print = (Json.object members).print) : j = .object members
  names : (members.map Prod.fst).Nodup
  cycle : members.lookup "cycle" = some (.number number)
  category : members.lookup "category" =
    match response with
    | .expected => some (.text "nofault")
    | .fault _ => some (.text "fault")
    | .reset => some (.text "reset")
    | .crash _ => some (.text "crash")
  detail : members.lookup "detail" =
    match response with
    | .crash .ackTimeout => some (.text "ack timeout")
    | .crash .responseTimeout => some (.text "response timeout")
    | .crash (.unexpected cmd) => some (.text ("unexpected packet 0x" ++ hex [cmd]))
    | _ => none
  payload :
    match response with
    | .fault bytes => ∃ t, members.lookup "payload" = some (.text t) ∧ readHex t = .ok bytes
    | _ => members.lookup "payload" = none
  interpretation :
    match response with
    | .fault bytes => ∃ told, members.lookup "interpretation" = some (.object told) ∧
      (interpret p k bytes).ToldBy told
    | _ => members.lookup "interpretation" = none

/-- The line in which an object stands. -/
def lineText (members : List (String × Json)) : List Char := (Json.object members).print ++ ['\n']

/-- The category that an object tells, if it tells one. -/
def category? (members : List (String × Json)) : Option String :=
  match members.lookup "category" with
  | some (.text name) => some name
  | _ => none

/-- How many of the objects tell the category with a name. -/
def linesOf (objects : List (List (String × Json))) (name : String) : ℕ :=
  objects.countP fun members => category? members == some name

/-- A tally of the lines counts those of each category. -/
lemma Tally.count_categories (objects : List (List (String × Json))) (name : String) :
    (({} : Tally).recordAll (objects.filterMap category?)).count name = linesOf objects name := by
  rw [count_recordAll, List.count_filterMap]
  exact Nat.zero_add _

/-- A summary counts each category as it is counted by its name. -/
structure Summary.Counts (s : Summary) (count : String → ℕ) : Prop where
  noFault : s.count .noFault = count "nofault"
  fault : s.count .fault = count "fault"
  reset : s.count .reset = count "reset"
  crash : s.count .crash = count "crash"

lemma Interpretation.json_eq_object (i : Interpretation) :
    ∃ members, i.json = .object members ∧ i.ToldBy members := by
  cases i <;> exact ⟨_, rfl, rfl, rfl, rfl⟩

lemma CrashKind.message_unexpected (cmd : UInt8) :
    (CrashKind.unexpected cmd).message = "unexpected packet 0x" ++ hex [cmd] := by
  have hmark : "unexpected packet " ++ "0x" = "unexpected packet 0x" := rfl
  calc
    _ = "unexpected packet " ++ ("0x" ++ hex [cmd]) := congrArg _ (hexLiteral_eq cmd)
    _ = "unexpected packet " ++ "0x" ++ hex [cmd] := String.append_assoc.symm
    _ = "unexpected packet 0x" ++ hex [cmd] := congrArg (· ++ hex [cmd]) hmark

/-- The members of a record's object. -/
def Record.members (r : Record) : List (String × Json) :=
  [("cycle", .number r.cycle), ("category", .text r.category.name)] ++
    Json.member? "detail" .text r.detail ++
    Json.member? "payload" (fun b => .text (hex b)) r.payload ++
    Json.member? "interpretation" Interpretation.json r.interpretation ++
    [("elapsed_us", .number r.elapsed)]

theorem lineOf_record (p : Profile) (k : Workload.Kind) (number : ℕ) (response : Response)
    (elapsed : ℕ) :
    LineOf p k number response (Record.of number response p k elapsed).members where
  oneLine := Json.newline_not_mem_print _
  only _ h := Json.print_injective h
  names := by
    cases response <;> simp [Record.members, Record.of, Response.detail?, Response.payload?,
      Json.member?]
  cycle := rfl
  category := by cases response <;> rfl
  detail := by
    cases response with
    | crash why =>
      have hdetail : (Record.of number (.crash why) p k elapsed).members.lookup "detail" =
          some (.text why.message) := rfl
      rw [hdetail]
      cases why with
      | unexpected cmd => rw [CrashKind.message_unexpected]
      | _ => rfl
    | _ => rfl
  payload := by
    cases response with
    | fault bytes => exact ⟨hex bytes, rfl, readHex_hex bytes⟩
    | _ => rfl
  interpretation := by
    cases response with
    | fault bytes =>
      obtain ⟨told, hjson, htold⟩ := (interpret p k bytes).json_eq_object
      exact ⟨told, congrArg some hjson, htold⟩
    | _ => rfl

lemma flatMap_lineText (records : List Record) :
    (records.map Record.members).flatMap lineText = records.flatMap Record.line :=
  List.flatMap_map ..

lemma Category.name_injective : Function.Injective Category.name := by
  intro c d h
  cases c <;> cases d <;> first | rfl | exact absurd h (by decide)

lemma filterMap_category? (records : List Record) :
    (records.map Record.members).filterMap category? = records.map fun r => r.category.name := by
  rw [List.filterMap_map]
  exact congrFun List.filterMap_eq_map records

/-- Each record is counted in the line that it leaves. -/
lemma linesOf_members (records : List Record) (c : Category) :
    linesOf (records.map Record.members) c.name = Record.countOf c records := by
  rw [linesOf, List.countP_map, Record.countOf]
  refine List.countP_congr fun r _ => ?_
  have hcategory : category? r.members = some r.category.name := rfl
  simp [hcategory, Category.name_injective.eq_iff]

/-- The records of exchanges, numbered from `number` on. -/
def Exchanges.records (x : Exchanges) (p : Profile) (k : Workload.Kind) (number : ℕ) :
    List Record :=
  x.responses.mapIdx fun i y => .of (number + i) y.1 p k y.2

lemma Exchanges.records_cons (x : Exchanges) (response : Response) (time : ℕ) (p : Profile)
    (k : Workload.Kind) (number : ℕ) :
    { x with responses := (response, time) :: x.responses }.records p k number =
      .of number response p k time :: x.records p k (number + 1) := by
  have hshift (i : ℕ) : number + 1 + i = number + (i + 1) := by omega
  simp only [records, List.mapIdx_cons, Nat.add_zero, hshift]

@[simp] lemma Exchanges.length_records (x : Exchanges) (p : Profile) (k : Workload.Kind)
    (number : ℕ) : (x.records p k number).length = x.responses.length := by
  simp [records]

/-! ### Sessions -/

/-- The wait for the target to boot, if that is asked for. -/
def Link.boot (l : Link) (o : SessionOptions) : Reached Unit :=
  match o.resetTimeout with
  | none => ⟨.ok (), l, []⟩
  | some timeout => (l.awaitReset (Session.micros timeout)).map fun _ => ()

/-- What a session does on its link. -/
def Link.exchanges (l : Link) (o : SessionOptions) : Exchanges :=
  match (l.boot o).result with
  | .error e => ⟨[], .error e, (l.boot o).link⟩
  | .ok () => (l.boot o).link.exchange (Session.micros o.ackTimeout)
      (Session.micros o.responseTimeout) o.cycles

namespace Session

variable {s : Session} {o : SessionOptions} {p : Profile}

/-- Where a run of a session is with its link, its output and its summary. -/
structure At (e : Ended) (x : Exchanges) (output : Output) (summary : Summary) : Prop where
  result : e.result = x.result.mapError .link
  link : e.session.link = x.link
  output : e.session.output = output
  summary : e.session.summary = summary

lemma cyclesFrom_at (h : s.output.Accepting) (number n : ℕ) :
    let x := s.link.exchange (micros o.ackTimeout) (micros o.responseTimeout) n
    At (s.cyclesFrom p o number n) x
      (s.output.took ((x.records p o.workload number).flatMap Record.line))
      (s.summary.addAll (x.records p o.workload number)) := by
  induction n generalizing s number with
  | zero => exact ⟨rfl, rfl, by simp [cyclesFrom, Link.exchange, Exchanges.records], rfl⟩
  | succ n ih =>
    cases hr : (s.link.cycle (micros o.ackTimeout) (micros o.responseTimeout)).result with
    | error e =>
      have hcycle : s.cycle p o number = ⟨.error (.link e),
          s.reached (s.link.cycle (micros o.ackTimeout) (micros o.responseTimeout))⟩ := by
        simp only [cycle, hr]
      simp only [cyclesFrom, hcycle, Link.exchange, hr]
      exact ⟨rfl, rfl, by simp [Exchanges.records, reached], rfl⟩
    | ok response =>
      let r := s.link.cycle (micros o.ackTimeout) (micros o.responseTimeout)
      let record := Record.of number response p o.workload
        (r.link.serial.clock - s.link.serial.clock)
      have hlater := ih (s := (s.reached r).recorded record) (h.took record.line) (number + 1)
      simp only [cyclesFrom, cycle_eq_recorded p number h hr, Link.exchange, hr]
      refine ⟨hlater.result, hlater.link, ?_, ?_⟩
      · rw [Exchanges.records_cons, List.flatMap_cons, ← Output.took_took]
        exact hlater.output
      · rw [Exchanges.records_cons]
        exact hlater.summary

lemma begin_at (s : Session) (o : SessionOptions) :
    (s.begin o).result = (s.link.boot o).result.mapError .link ∧
      ∃ log, (s.begin o).session = { s with link := (s.link.boot o).link, log } := by
  cases hreset : o.resetTimeout with
  | none => simp only [begin, Link.boot, hreset]; exact ⟨rfl, s.log, rfl⟩
  | some timeout =>
    simp only [begin, Link.boot, hreset, Reached.map, reached_awaitReset]
    cases (s.link.awaitReset (micros timeout)).result with
    | error e => exact ⟨rfl, _, rfl⟩
    | ok heard => cases heard <;> exact ⟨rfl, _, rfl⟩

lemma At.finish {e : Ended} {x : Exchanges} {output : Output} {summary : Summary}
    (h : At e x output summary) (ha : output.Accepting) :
    At (match e.result with
      | .error _ => e
      | .ok () => e.session.finish) x output summary := by
  cases he : e.result with
  | error _ => exact h
  | ok u =>
    have hflush : e.session.finish.result = .ok () := by
      simp only [Session.finish, h.output, ha.flush]
      rfl
    have hkept : e.session.finish.session.output = e.session.output :=
      e.session.output.flush_output
    exact ⟨hflush.trans (he.symm.trans h.result), h.link, hkept.trans h.output, h.summary⟩

/-- A session fails only if its port does, and the complete lines until then are all that is
written. -/
theorem run_at (h : s.output.Accepting) (p : Profile) (o : SessionOptions) :
    At (s.run p o) (s.link.exchanges o)
      (s.output.took (((s.link.exchanges o).records p o.workload 0).flatMap Record.line))
      (s.summary.addAll ((s.link.exchanges o).records p o.workload 0)) := by
  obtain ⟨hbegin, log, hsession⟩ := s.begin_at o
  cases hboot : (s.link.boot o).result with
  | error e =>
    rw [hboot] at hbegin
    have hrun : s.run p o = s.begin o := by
      simp only [run, hbegin, Except.mapError]
    have hexchanges : s.link.exchanges o = ⟨[], .error e, (s.link.boot o).link⟩ := by
      simp only [Link.exchanges, hboot]
    rw [hrun, hexchanges]
    refine ⟨hbegin, ?_, ?_, ?_⟩
    · rw [hsession]
    · rw [hsession]
      simp [Exchanges.records]
    · rw [hsession]
      rfl
  | ok u =>
    rw [hboot] at hbegin
    have hexchanges : s.link.exchanges o = (s.link.boot o).link.exchange (micros o.ackTimeout)
        (micros o.responseTimeout) o.cycles := by
      simp only [Link.exchanges, hboot]
    have hcycles := cyclesFrom_at (s := { s with link := (s.link.boot o).link, log }) (o := o)
      (p := p) h 0 o.cycles
    rw [hexchanges]
    simp only [run, hbegin, Except.mapError, hsession]
    exact hcycles.finish (h.took _)

lemma sent_boot (l : Link) (o : SessionOptions) :
    (l.boot o).link.serial.sent = l.serial.sent := by
  rw [Link.boot]
  split
  · rfl
  · exact l.sent_awaitReset _

/-- What a session on a link comes to if all of its cycles come to responses. -/
structure Complete (s : Session) (o : SessionOptions) (e : Ended)
    (objects : List (List (String × Json))) : Prop where
  cycles : objects.length = o.cycles
  counts : e.session.summary.Counts (linesOf objects)
  sum : e.session.summary.cycles = o.cycles ∧
    e.session.summary.count .noFault + e.session.summary.count .fault +
      e.session.summary.count .reset + e.session.summary.count .crash = o.cycles
  /-- A tally that is kept line by line comes to the same. -/
  tallied : (({} : Tally).recordAll (objects.filterMap category?)).cycles =
      e.session.summary.cycles ∧
    e.session.summary.Counts (({} : Tally).recordAll (objects.filterMap category?)).count
  sent : e.session.link.serial.sent =
    s.link.serial.sent ++ (List.replicate o.cycles startBytes).flatten

/-- The results of a session with these exchanges are lines with these objects. -/
structure Results (s : Session) (p : Profile) (o : SessionOptions) (x : Exchanges)
    (objects : List (List (String × Json))) : Prop where
  /-- A session fails exactly if its port does. -/
  result : (s.run p o).result = x.result.mapError .link
  /-- Nothing is written but complete lines. -/
  output : (s.run p o).session.output = s.output.took (objects.flatMap lineText)
  length : objects.length = x.responses.length
  lines {i time : ℕ} {response : Response} (h : x.responses[i]? = some (response, time)) :
    ∃ members, objects[i]? = some members ∧ LineOf p o.workload i response members
  completed (h : (s.run p o).result = .ok ()) : Complete s o (s.run p o) objects
  /-- The port failed during the wait, or in the cycle behind those of the lines. -/
  failed {e : LinkError} (h : x.result = .error e) :
    (s.link.boot o).result = .error e ∧ objects = [] ∨
      objects.length < o.cycles ∧ ∃ last,
        (s.link.boot o).link.exchange (micros o.ackTimeout) (micros o.responseTimeout)
          objects.length = ⟨x.responses, .ok (), last⟩ ∧
        (last.cycle (micros o.ackTimeout) (micros o.responseTimeout)).result = .error e

/-- The exchanges of a session are those of a number of cycles, unless the wait failed. -/
lemma exchanges_cases (l : Link) (o : SessionOptions) :
    (∃ e, (l.boot o).result = .error e ∧ l.exchanges o = ⟨[], .error e, (l.boot o).link⟩) ∨
      l.exchanges o = (l.boot o).link.exchange (micros o.ackTimeout) (micros o.responseTimeout)
        o.cycles := by
  rw [Link.exchanges]
  split
  · next e he => exact .inl ⟨e, he, rfl⟩
  · exact .inr rfl

/-- If the port does not fail, there are as many exchanges as cycles, each with its start. -/
lemma exchanges_completed {l : Link} (hok : (l.exchanges o).result = .ok ()) :
    (l.exchanges o).responses.length = o.cycles ∧
      (l.exchanges o).link.serial.sent =
        l.serial.sent ++ (List.replicate o.cycles startBytes).flatten := by
  obtain ⟨e, -, hexchanges⟩ | hexchanges := exchanges_cases l o
  · rw [hexchanges] at hok
    cases hok
  · rw [hexchanges] at hok ⊢
    rw [← sent_boot l o]
    exact Link.exchange_completed hok

/-- The objects in the lines of a session's exchanges. -/
def objects (s : Session) (p : Profile) (o : SessionOptions) : List (List (String × Json)) :=
  ((s.link.exchanges o).records p o.workload 0).map Record.members

lemma length_objects (s : Session) (p : Profile) (o : SessionOptions) :
    (s.objects p o).length = (s.link.exchanges o).responses.length := by
  rw [objects, List.length_map, Exchanges.length_records]

lemma complete (h : s.output.Accepting) (hsummary : s.summary = {})
    (hok : (s.link.exchanges o).result = .ok ()) :
    Complete s o (s.run p o) (s.objects p o) := by
  have hat := run_at h p o
  obtain ⟨hlength, hsent⟩ := exchanges_completed hok
  have hobjects : (s.objects p o).length = o.cycles := (s.length_objects p o).trans hlength
  have hcounts (c : Category) :
      (s.run p o).session.summary.count c = linesOf (s.objects p o) c.name := by
    rw [hat.summary, hsummary, Summary.count_addAll, objects, linesOf_members]
    cases c <;> exact Nat.zero_add _
  have hcycles : (s.run p o).session.summary.cycles = o.cycles := by
    rw [hat.summary, hsummary, Summary.cycles_addAll, Exchanges.length_records, hlength]
    exact Nat.zero_add _
  have hcounted : (s.run p o).session.summary.Counts (linesOf (s.objects p o)) :=
    ⟨hcounts .noFault, hcounts .fault, hcounts .reset, hcounts .crash⟩
  refine ⟨hobjects, hcounted, ⟨hcycles, hcycles⟩, ⟨?_, ?_⟩, ?_⟩
  · rw [Tally.cycles_recordAll, objects, filterMap_category?, List.length_map,
      Exchanges.length_records, hlength, hcycles]
    exact Nat.zero_add _
  · rwa [funext (Tally.count_categories _)]
  · rw [hat.link, hsent]

/-- In sinks that take everything a session leaves a line for each exchange that came to a
response, up to the first failure of its port. -/
theorem results_complete (h : s.output.Accepting) (hsummary : s.summary = {}) (p : Profile)
    (o : SessionOptions) : ∃ objects, Results s p o (s.link.exchanges o) objects := by
  have hat := run_at h p o
  refine ⟨s.objects p o, hat.result, ?_, s.length_objects p o, fun {i time response} hi => ?_,
    fun hok => ?_, fun {e} he => ?_⟩
  · rw [objects, flatMap_lineText]
    exact hat.output
  · refine ⟨_, ?_, lineOf_record p o.workload i response time⟩
    simp [objects, Exchanges.records, hi]
  · refine complete h hsummary ?_
    rw [hat.result] at hok
    cases hx : (s.link.exchanges o).result with
    | error e =>
      rw [hx] at hok
      cases hok
    | ok u => rfl
  · obtain ⟨e', hboot, hexchanges⟩ | hexchanges := exchanges_cases s.link o
    · rw [objects, hexchanges]
      rw [hexchanges] at he
      cases he
      exact .inl ⟨hboot, rfl⟩
    · rw [length_objects, hexchanges]
      rw [hexchanges] at he
      exact .inr (Link.exchange_failed he)

/-- Three cycles behind a good run and one that lost 37 increments: the third hears nothing, or its
port is closed. -/
theorem results_complete_closed :
    let bytes : List UInt8 := [0x73, 0, 0x65, 0, 0x73, 0, 0x66, 4, 0x6B, 0xD0, 3, 2, 0x27, 0]
    let s (arrivals : List Arrival) : Session := { link := { serial := { incoming := arrivals } } }
    let o : SessionOptions :=
      { workload := .countedLoop, cycles := 3, ackTimeout := 20, responseTimeout := 20 }
    let silent := s (bytes.map .byte)
    let closed := s (bytes.map .byte ++ [.hangUp])
    silent.output.Accepting ∧ silent.summary = {} ∧ (silent.run {} o).result = .ok () ∧
      (∃ objects : List (List (String × Json)), objects.length = 3 ∧
        (silent.run {} o).session.output = silent.output.took (objects.flatMap lineText) ∧
        linesOf objects "nofault" = 1 ∧ linesOf objects "fault" = 1 ∧
        linesOf objects "reset" = 0 ∧ linesOf objects "crash" = 1) ∧
      closed.output.Accepting ∧ closed.summary = {} ∧
      (closed.run {} o).result = .error (.link .closed) ∧
      ∃ objects : List (List (String × Json)), objects.length = 2 ∧
        (closed.run {} o).session.output = closed.output.took (objects.flatMap lineText) ∧
        ∃ members, objects[1]? = some members ∧
          LineOf {} .countedLoop 1 (.fault [0x6B, 0xD0, 0x03, 0]) members := by
  intro bytes s o silent closed
  have hsilent : silent.output.Accepting := ⟨⟨rfl, rfl⟩, by simp [silent, s]⟩
  have hclosed : closed.output.Accepting := ⟨⟨rfl, rfl⟩, by simp [closed, s]⟩
  have hok : (silent.run {} o).result = .ok () := by decide +kernel
  have hfailed : (closed.run {} o).result = .error (.link .closed) := by decide +kernel
  have hsummary : (silent.run {} o).session.summary = ⟨1, 1, 0, 1⟩ := by decide +kernel
  have hresponses : (closed.link.exchanges o).responses =
      [(.expected, 0), (.fault [0x6B, 0xD0, 0x03, 0], 0)] := by decide +kernel
  obtain ⟨objects, hwritten⟩ := results_complete hsilent rfl {} o
  obtain ⟨hlength, hcounts, -⟩ := hwritten.completed hok
  rw [hsummary] at hcounts
  refine ⟨hsilent, rfl, hok, ⟨objects, hlength, hwritten.output, hcounts.noFault.symm,
    hcounts.fault.symm, hcounts.reset.symm, hcounts.crash.symm⟩, hclosed, rfl, hfailed, ?_⟩
  obtain ⟨objects, hwritten⟩ := results_complete hclosed rfl {} o
  obtain ⟨members, hmembers, hline⟩ := hwritten.lines (i := 1) (by rw [hresponses]; rfl)
  refine ⟨objects, ?_, hwritten.output, members, hmembers, hline⟩
  rw [hwritten.length, hresponses]
  rfl

end Session
end FaultBench.Host
