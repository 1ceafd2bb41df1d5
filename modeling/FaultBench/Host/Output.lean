import FaultBench.Host.Serial

/-! Where results go: one sink or two, each of which may stop accepting characters. What is written
to two sinks reaches the second only when the first took all of it. -/
namespace FaultBench.Host

/-- A sink by its place in an output. -/
inductive Place where
  | first
  | second
  deriving DecidableEq, Repr

/-- What is seen of a session from outside, on its line and at its sinks. -/
inductive Event where
  | sent (b : UInt8)
  | took (place : Place) (c : Char)
  /-- A write failed, with this text still to go. -/
  | refused (place : Place) (text : List Char)
  | flushed (place : Place) (done : Bool)
  deriving DecidableEq, Repr

structure Sink where
  accepted : List Char := []
  /-- The number of characters still accepted, once writes begin to fail. -/
  left : Option Nat := none
  flushFails : Bool := false
  deriving DecidableEq, Repr

namespace Sink

def write (s : Sink) (text : List Char) : Except IoFailure Unit × Sink :=
  match s.left with
  | none => (.ok (), { s with accepted := s.accepted ++ text })
  | some n =>
    (if text.length ≤ n then .ok () else .error .brokenPipe,
      { s with accepted := s.accepted ++ text.take n, left := some (n - text.length) })

/-- What is seen of a write. -/
def events (s : Sink) (place : Place) (text : List Char) : List Event :=
  match s.left with
  | none => text.map (.took place)
  | some n =>
    (text.take n).map (.took place) ++
      if text.length ≤ n then [] else [.refused place (text.drop n)]

def flush (s : Sink) : Except IoFailure Unit := if s.flushFails then .error .brokenPipe else .ok ()

end Sink

structure Output where
  first : Sink := {}
  second : Option Sink := none
  deriving DecidableEq, Repr

namespace Output

/-- The end of what is done with an output: its result, the output behind it and what was seen. -/
structure Attempt where
  result : Except IoFailure Unit
  output : Output
  events : List Event

def Attempt.andThen (a : Attempt) (next : Output → Attempt) : Attempt :=
  match a.result with
  | .error _ => a
  | .ok () =>
    let b := next a.output
    { b with events := a.events ++ b.events }

def write (o : Output) (text : List Char) : Attempt :=
  let written := o.first.events .first text
  match o.first.write text with
  | (.error e, first) => ⟨.error e, { o with first }, written⟩
  | (.ok (), first) =>
    match o.second with
    | none => ⟨.ok (), { o with first }, written⟩
    | some s =>
      let (result, second) := s.write text
      ⟨result, ⟨first, some second⟩, written ++ s.events .second text⟩

/-- Writes one piece after the other, up to the first failure. -/
def writeAll (o : Output) : List (List Char) → Attempt
  | [] => ⟨.ok (), o, []⟩
  | piece :: rest => (o.write piece).andThen fun o => o.writeAll rest

def flush (o : Output) : Attempt :=
  match o.first.flush, o.second with
  | .error e, _ => ⟨.error e, o, [.flushed .first false]⟩
  | .ok (), none => ⟨.ok (), o, [.flushed .first true]⟩
  | .ok (), some s => ⟨s.flush, o, [.flushed .first true, .flushed .second s.flush.isOk]⟩

end Output
end FaultBench.Host
