import FaultBench.CommandLine.Execution

/-! The program. It reads the files that a command names, carries the command out and writes what
it came to. A device is replayed from a file with what a target sent. -/
namespace FaultBench.Program
open CommandLine

def ofBytes (bytes : ByteArray) : FileContents :=
  (String.fromUTF8? bytes).elim (.binary bytes.toList) .text

/-- Adds a file under its path, if it can be read. -/
def addFile (files : Files) (path : String) : IO Files := do
  try
    let bytes ← IO.FS.readBinFile path
    return { files with elsewhere := (path, ofBytes bytes) :: files.elsewhere }
  catch _ => return files

/-- Adds a device that replays a file, if the file can be read. -/
def addDevice (env : Environment) (path : String) : IO Environment := do
  try
    let bytes ← IO.FS.readBinFile path
    return {
      files := { env.files with elsewhere := (path, .device path) :: env.files.elsewhere }
      devices := (path, { incoming := bytes.toList.map .byte }) :: env.devices }
  catch _ => return env

/-- Creates the output file of a run, if it can be created. -/
def addOutput (files : Files) (path : String) : IO Files := do
  try
    IO.FS.writeFile path ""
    return { files with elsewhere := (path, .text "") :: files.elsewhere }
  catch _ => return files

def surroundings (command : Command) : IO Environment := do
  let profile := match command with
    | .check path => path
    | .decode _ path _ => path
    | .run o => o.profile
  let files ← match profile with
    | some path => addFile {} path
    | none => pure {}
  match command with
  | .run o =>
    let env ← addDevice { files } o.device
    match o.output, env.devices with
    | some path, _ :: _ => return { env with files := ← addOutput env.files path }
    | _, _ => return env
  | _ => return { files }

def shown (trace : Bool) (log : List Log.Entry) : List Log.Entry :=
  let least : Log.Level := if trace then .debug else .info
  log.filter fun e => least.rank ≤ e.level.rank

def saveOutput (command : Command) (files : Files) : IO Unit := do
  match command with
  | .run o =>
    match o.output.map fun path => (path, files.read path) with
    | some (path, .ok text) => try IO.FS.writeFile path text catch _ => return
    | _ => return
  | _ => return

def usage : String :=
  "Usage: faultbench [--trace] check [-p PROFILE]\n" ++
    "       faultbench [--trace] decode -w WORKLOAD [-p PROFILE] HEX...\n" ++
    "       faultbench [--trace] run --port DEVICE -w WORKLOAD [-p PROFILE] [-o OUTPUT]"

def carryOut (i : Invocation) : IO UInt32 := do
  match execute (← surroundings i.command) i.command with
  | .crashed =>
    IO.eprintln Profile.Invalid.crash.message
    return 101
  | .exited o =>
    for line in o.lines do IO.println line
    for e in shown i.trace o.log do IO.eprintln e.render
    saveOutput i.command o.environment.files
    return UInt32.ofNat o.status.code

end FaultBench.Program

def main (args : List String) : IO UInt32 := do
  match FaultBench.CommandLine.Invocation.ofArguments args with
  | .error e =>
    IO.eprintln FaultBench.Program.usage
    return UInt32.ofNat e.exitCode
  | .ok i => FaultBench.Program.carryOut i
