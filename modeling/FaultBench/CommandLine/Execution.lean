import FaultBench.CommandLine.Invocation
import FaultBench.Host.Session
import FaultBench.Profile.File
import FaultBench.Text.HexInput

/-! What the commands do: the lines they print, what they log, and what becomes of the files and
the devices around them. -/
namespace FaultBench.CommandLine
open Host Text

/-- The files and, by their names, the serial devices that a command finds. -/
structure Environment where
  files : Files := {}
  devices : List (String × Serial) := []
  deriving DecidableEq, Repr

/-- The name and the state of the device that a path leads to. -/
def Environment.device (env : Environment) (path : String) :
    Except Files.DeviceError (String × Serial) := do
  let name ← env.files.deviceAt path
  return (name, (env.devices.lookup name).getD {})

inductive ExitStatus where
  | pass
  | badInput
  /-- The target could not be driven to the end. -/
  | failed
  deriving DecidableEq, Repr

def ExitStatus.code : ExitStatus → Nat
  | .pass => 0
  | .badInput => 2
  | .failed => 3

structure Outcome where
  status : ExitStatus
  lines : List String := []
  log : List Log.Entry := []
  environment : Environment
  deriving DecidableEq, Repr

inductive Finish where
  | exited (o : Outcome)
  /-- It ended while it validated a profile. -/
  | crashed
  deriving DecidableEq, Repr

def refuse (env : Environment) (message : String) : Outcome :=
  { status := .badInput, log := [Log.error message], environment := env }

def withProfile (env : Environment) (path : Option String) (next : Profile → Outcome) : Finish :=
  match path with
  | none => .exited (next {})
  | some path =>
    match Profile.ofFile env.files path with
    | .ok p => .exited (next p)
    | .error e => if e.crashes then .crashed else .exited (refuse env e.message)

def padded (width : Nat) (s : String) : String :=
  s ++ String.ofList (List.replicate (width - s.length) ' ')

/-- What a fault-free run of a workload shows. -/
def expectation (p : Profile) (k : Workload.Kind) : String :=
  match p.expectedCounter? k with
  | some n => "counter " ++ decimal n.toNat
  | none => "destination " ++ hex p.bufferCopy.sourceImage

def checkLine (p : Profile) (k : Workload.Kind) : String :=
  padded 13 k.name ++ " binary=" ++ padded 17 k.binary ++ " expected=" ++ expectation p k ++
    " fault_payload=" ++ decimal (p.faultPayloadLength k) ++ "B"

def check (env : Environment) (p : Profile) : Outcome :=
  { status := .pass
    lines := Workload.Kind.all.map (checkLine p) ++
      ["serial baud=" ++ decimal p.serial.baud.toNat]
    environment := env }

def letter (b : UInt8) : String := String.singleton (Char.ofNat b.toNat)

/-- A packet of a capture. Only fault reports are interpreted. -/
def packetJson (p : Profile) (k : Workload.Kind) (packet : Wire.Packet) : Json :=
  .object ([("cmd", .text (letter packet.cmd)), ("payload", .text (hex packet.payload))] ++
    if packet.command? = some .fault then
      [("interpretation", (interpret p k packet.payload).json)]
    else [])

def frameJson (p : Profile) (k : Workload.Kind) : Except Wire.FrameError Wire.Packet → Json
  | .ok packet => packetJson p k packet
  | .error e => .object [("error", .text e.message)]

def decode (env : Environment) (k : Workload.Kind) (words : List String) (p : Profile) : Outcome :=
  match readHex (" ".intercalate words) with
  | .error e => refuse env e.message
  | .ok bytes =>
    { status := .pass
      lines := (Wire.split bytes).map fun r => (frameJson p k r).sorted.render
      environment := env }

def linesOf (text : List Char) : List String := ((String.ofList text).splitOn "\n").dropLast

def finishLog (s : Summary) : List Log.Entry :=
  Log.info "run finished"
      [Log.count "cycles" s.cycles, Log.count "nofault" s.noFault, Log.count "fault" s.fault,
        Log.count "reset" s.reset, Log.count "crash" s.crash] ::
    if s.crash = s.cycles ∧ 0 < s.cycles then
      [Log.warn "every cycle crashed; check wiring, baud rate and the flashed workload"]
    else []

def sessionOptions (o : RunOptions) : SessionOptions :=
  { workload := o.workload
    cycles := o.cycles
    ackTimeout := o.ackTimeout
    responseTimeout := o.responseTimeout
    resetTimeout := if o.awaitsReset then some o.responseTimeout else none }

/-- Stores what reached the second sink of an output. -/
def saved (files : Files) (path : Option String) (output : Output) : Files :=
  match path, output.second with
  | some path, some sink =>
    ((files.create path (.text (String.ofList sink.accepted))).toOption).getD files
  | _, _ => files

/-- Runs a session over an open device and into the prepared output. -/
def drive (env : Environment) (o : RunOptions) (p : Profile) (device : String × Serial)
    (output : Output) : Outcome :=
  let e := ({ link := ⟨device.2, {}⟩, output } : Session).run p (sessionOptions o)
  let s := e.session
  let environment : Environment :=
    { files := saved env.files o.output s.output
      devices := env.devices.map fun q => if q.1 = device.1 then (q.1, s.link.serial) else q }
  let (status, closing) : ExitStatus × List Log.Entry := match e.result with
    | .ok () => (.pass, finishLog s.summary)
    | .error f => (.failed, [Log.error f.message])
  { status, lines := linesOf s.output.first.accepted, log := s.log ++ closing, environment }

def connectLog (o : RunOptions) (p : Profile) : Log.Entry :=
  Log.info "connected"
    [("port", o.device), Log.count "baud" (o.baud.getD p.serial.baud).toNat,
      ("workload", o.workload.name)]

def fail (env : Environment) (log : List Log.Entry) (message : String) : Outcome :=
  { status := .failed, log := log ++ [Log.error message], environment := env }

def Outcome.after (o : Outcome) (log : List Log.Entry) : Outcome := { o with log := log ++ o.log }

/-- Opens the device, then creates the output file, and then drives the target. -/
def run (env : Environment) (o : RunOptions) (p : Profile) : Outcome :=
  match env.device o.device with
  | .error e => fail env [] ("Failed to open serial port " ++ o.device ++ ": " ++ e.message)
  | .ok device =>
    match o.output with
    | none => (drive env o p device {}).after [connectLog o p]
    | some path =>
      match env.files.create path (.text "") with
      | .error e =>
        fail env [connectLog o p]
          ("Failed to create output file " ++ quotedPath path ++ ": " ++ e.message)
      | .ok files =>
        (drive { env with files } o p device { second := some {} }).after [connectLog o p]

def execute (env : Environment) : Command → Finish
  | .check path => withProfile env path (check env)
  | .decode k path words => withProfile env path (decode env k words)
  | .run o => withProfile env o.profile (run env o)

end FaultBench.CommandLine
