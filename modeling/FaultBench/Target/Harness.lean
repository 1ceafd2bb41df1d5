import FaultBench.Log
import FaultBench.Target.Channel
import FaultBench.Workload.Basic

/-! The target's cycle: wait for a start, acknowledge it, run the workload between the trigger's
edges, report. Everything that takes time on the line happens outside the edges. -/
namespace FaultBench.Target
open Wire

inductive Phase where
  /-- The trigger was not driven and the reset marker not sent yet. -/
  | boot
  | idle
  /-- A start arrived and is to be acknowledged. -/
  | armed
  /-- The start was acknowledged and the workload is to be run. -/
  | executing
  deriving DecidableEq, Repr

inductive Outcome where
  | expected
  | fault
  deriving DecidableEq, Repr

structure Harness (capacity : Nat) where
  channel : Channel capacity
  workload : Workload
  disturbance : Disturbance := {}
  /-- The board has an indicator. -/
  showsCycles : Bool := true
  phase : Phase := .boot
  /-- The number of runs so far, modulo 2^32. -/
  cycles : UInt32 := 0
  deriving DecidableEq, Repr

/-- What a harness did: its next state, the outcome of a completed cycle, what was seen from
outside and what was logged. -/
structure Progress (capacity : Nat) where
  harness : Harness capacity
  outcome : Option Outcome := none
  events : List Event := []
  log : List Log.Entry := []

namespace Harness

variable {capacity : Nat}

/-- Logs a failed write and nothing else. -/
def complain (what : String) : Except ChannelError Unit → List Log.Entry
  | .ok () => []
  | .error e => [Log.warn (what ++ ": " ++ e.message)]

def startUp (h : Harness capacity) : Progress capacity :=
  let sent := h.channel.announceReset
  { harness := { h with channel := sent.channel, phase := .idle }
    events := .triggerLow :: sent.events
    log := complain "reset marker not sent" sent.result ++ [Log.debug "harness ready"] }

/-- Takes one packet; a start arms the harness. -/
def listen (h : Harness capacity) : Progress capacity :=
  match h.channel.read with
  | (.error e, channel) =>
    { harness := { h with channel }
      log := [Log.trace ("discarding input: " ++ e.message)] }
  | (.ok p, channel) =>
    if p.cmd = Command.start.byte then { harness := { h with channel, phase := .armed } }
    else
      { harness := { h with channel }
        log := [Log.trace "ignoring command" [Log.count "cmd" p.cmd.toNat]] }

/-- Acknowledges the start. Without acknowledgment the cycle does not happen. -/
def acknowledge (h : Harness capacity) : Progress capacity :=
  let sent := h.channel.acknowledge Command.start.byte
  let phase := match sent.result with
    | .ok () => .executing
    | .error _ => .idle
  { harness := { h with channel := sent.channel, phase }
    events := sent.events
    log := complain "ack not sent, cycle skipped" sent.result }

def report : Verdict → Packet
  | .expected => .bare Command.finish.byte
  | .fault diagnostic => ⟨Command.fault.byte, diagnostic.bytes⟩

def outcome : Verdict → Outcome
  | .expected => .expected
  | .fault _ => .fault

def indication (cycle : UInt32) : Outcome → Event
  | .expected => .shownGood cycle
  | .fault => .shownBad cycle

def divergence (cycle : UInt32) : Outcome → List Log.Entry
  | .expected => []
  | .fault => [Log.debug "workload diverged" [Log.count "cycle" cycle.toNat]]

def execute (h : Harness capacity) : Progress capacity :=
  let (observation, workload) := h.workload.prepare.run h.disturbance
  let verdict := workload.evaluate observation
  let sent := h.channel.write (report verdict)
  { harness := { h with channel := sent.channel, workload, phase := .idle, cycles := h.cycles + 1 }
    outcome := some (outcome verdict)
    events := [.prepared, .triggerHigh, .ran, .triggerLow] ++ sent.events ++
      if h.showsCycles then [indication h.cycles (outcome verdict)] else []
    log := complain "response not sent" sent.result ++ divergence h.cycles (outcome verdict) }

def step (h : Harness capacity) : Progress capacity :=
  match h.phase with
  | .boot => h.startUp
  | .idle => h.listen
  | .armed => h.acknowledge
  | .executing => h.execute

end Harness

namespace Progress

variable {capacity : Nat}

/-- Goes on from where a harness is now; the last outcome counts. -/
def andThen (p : Progress capacity) (next : Harness capacity → Progress capacity) :
    Progress capacity :=
  let q := next p.harness
  { q with events := p.events ++ q.events, log := p.log ++ q.log }

end Progress

namespace Harness

variable {capacity : Nat}

/-- One transition, and at most `more` further ones until the harness is idle. -/
def stepUntilIdle (h : Harness capacity) : Nat → Progress capacity
  | 0 => h.step
  | more + 1 =>
    let p := h.step
    if p.harness.phase = .idle then p else p.andThen fun h => h.stepUntilIdle more

/-- Steps until the harness is idle again. From idle it takes one transition when no start
arrives, and three when one does: arming, acknowledging, running. -/
def cycle (h : Harness capacity) : Progress capacity :=
  if h.phase = .boot then h.step.andThen fun h => h.stepUntilIdle 2 else h.stepUntilIdle 2

end Harness
end FaultBench.Target
