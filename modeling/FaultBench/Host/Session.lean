import FaultBench.Host.Link
import FaultBench.Host.Output
import FaultBench.Text.Duration

/-! Sessions: cycle after cycle over one link, with a line of results for each. -/
namespace FaultBench.Host

structure SessionOptions where
  workload : Workload.Kind
  cycles : Nat
  /-- All times are in milliseconds. -/
  ackTimeout : Nat
  responseTimeout : Nat
  /-- How long to wait for the target to announce itself before the first cycle. -/
  resetTimeout : Option Nat := none
  deriving DecidableEq, Repr

inductive SessionError where
  | link (e : LinkError)
  | recordNotWritten (e : IoFailure)
  | lineNotEnded (e : IoFailure)
  | notFlushed (e : IoFailure)
  deriving DecidableEq, Repr

def SessionError.message : SessionError → String
  | .link e => e.message
  | .recordNotWritten e => "Failed to serialize cycle record: " ++ e.message
  | .lineNotEnded e => "Failed to write cycle record: " ++ e.message
  | .notFlushed e => "Failed to flush results: " ++ e.message

structure Session where
  link : Link
  output : Output := {}
  summary : Summary := {}
  records : List Record := []
  log : List Log.Entry := []
  /-- What was seen of it from outside. -/
  trace : List Event := []
  deriving DecidableEq, Repr

structure Ended where
  result : Except SessionError Unit
  session : Session

namespace Session

def micros (milliseconds : Nat) : Nat := milliseconds * 1000

def reached {α : Type} (s : Session) (r : Reached α) : Session :=
  { s with
    link := r.link
    log := s.log ++ r.log
    trace := s.trace ++ (r.link.serial.sent.drop s.link.serial.sent.length).map .sent }

/-- The session after something was done with its output. -/
def wrote (s : Session) (a : Output.Attempt) : Session :=
  { s with output := a.output, trace := s.trace ++ a.events }

def logs (s : Session) (entries : List Log.Entry) : Session := { s with log := s.log ++ entries }

/-- Writes a record as it comes about, and then ends its line. -/
def write (s : Session) (r : Record) : Ended :=
  let a := s.output.writeAll r.json.pieces
  let s := s.wrote a
  match a.result with
  | .error e => ⟨.error (.recordNotWritten e), s⟩
  | .ok () =>
    let a := s.output.write ['\n']
    ⟨a.result.mapError .lineNotEnded, s.wrote a⟩

def divergence (r : Record) : List Log.Entry :=
  if r.category = .noFault then []
  else [Log.debug "cycle diverged" [Log.count "cycle" r.cycle, ("category", r.category.title)]]

/-- Counts a cycle, logs it if it diverged, and writes its line. -/
def record (s : Session) (r : Record) : Ended :=
  { s with
    summary := s.summary.add r.category
    records := s.records ++ [r]
    log := s.log ++ divergence r }.write r

def cycle (s : Session) (p : Profile) (o : SessionOptions) (number : Nat) : Ended :=
  let started := s.link.serial.clock
  let r := s.link.cycle (micros o.ackTimeout) (micros o.responseTimeout)
  let s := s.reached r
  match r.result with
  | .error e => ⟨.error (.link e), s⟩
  | .ok response =>
    s.record (.of number response p o.workload (r.link.serial.clock - started))

def cyclesFrom (s : Session) (p : Profile) (o : SessionOptions) (number : Nat) : Nat → Ended
  | 0 => ⟨.ok (), s⟩
  | more + 1 =>
    let e := s.cycle p o number
    match e.result with
    | .error _ => e
    | .ok () => e.session.cyclesFrom p o (number + 1) more

/-- Waits for the target to boot, if that is asked for. -/
def begin (s : Session) (o : SessionOptions) : Ended :=
  match o.resetTimeout with
  | none => ⟨.ok (), s⟩
  | some timeout =>
    let r := s.link.awaitReset (micros timeout)
    let s := s.reached r
    match r.result with
    | .error e => ⟨.error (.link e), s⟩
    | .ok true => ⟨.ok (), s.logs [Log.info "target announced reset"]⟩
    | .ok false =>
      ⟨.ok (), s.logs [Log.warn ("no reset marker within " ++ Text.milliseconds timeout ++
        ", starting anyway")]⟩

def finish (s : Session) : Ended :=
  let a := s.output.flush
  ⟨a.result.mapError .notFlushed, s.wrote a⟩

def run (s : Session) (p : Profile) (o : SessionOptions) : Ended :=
  let e := s.begin o
  match e.result with
  | .error _ => e
  | .ok () =>
    let e := e.session.cyclesFrom p o 0 o.cycles
    match e.result with
    | .error _ => e
    | .ok () => e.session.finish

end Session
end FaultBench.Host
