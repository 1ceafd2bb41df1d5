import FaultBench.CommandLine.Grammar
import FaultBench.Text.Digits
import FaultBench.Workload.Kind

/-! What the program is asked to do: the commands, their options and the values that options have
when they are not given. -/
namespace FaultBench.CommandLine

structure RunOptions where
  device : String
  workload : Workload.Kind
  profile : Option String := none
  cycles : Nat := 100
  /-- In milliseconds, as is the next. -/
  ackTimeout : Nat := 500
  responseTimeout : Nat := 2000
  awaitsReset : Bool := false
  baud : Option UInt32 := none
  output : Option String := none
  deriving DecidableEq, Repr

inductive Command where
  | check (profile : Option String)
  | decode (workload : Workload.Kind) (profile : Option String) (words : List String)
  | run (o : RunOptions)
  deriving DecidableEq, Repr

structure Invocation where
  trace : Bool
  command : Command
  deriving DecidableEq, Repr

inductive Setting where
  | trace
  | profile (path : String)
  | workload (k : Workload.Kind)
  | device (name : String)
  | cycles (n : Nat)
  | ackTimeout (n : Nat)
  | responseTimeout (n : Nat)
  | awaitsReset
  | baud (n : UInt32)
  | output (path : String)
  | word (s : String)
  deriving DecidableEq, Repr

namespace Setting

def path (setting : String → Setting) (s : String) : Except UsageError Setting :=
  if s = "" then .error .missingValue else .ok (setting s)

/-- A number of 64 bits, with or without a plus sign. -/
def number? (s : String) : Option Nat :=
  let n := match s.toList with
    | '+' :: ds => Text.digits? 10 ds
    | ds => Text.digits? 10 ds
  n.filter (· < UInt64.size)

def number (setting : Nat → Setting) (s : String) : Except UsageError Setting :=
  (number? s).elim (.error .invalidValue) fun n => .ok (setting n)

/-- A rate of 32 bits. The zero may have a minus sign. -/
def rate (s : String) : Except UsageError Setting :=
  let n := match s.toList with
    | '-' :: ds => (Text.digits? 10 ds).filter (· = 0)
    | _ => (number? s).filter (· < UInt32.size)
  n.elim (.error .invalidValue) fun n => .ok (.baud (UInt32.ofNat n))

def kind (s : String) : Except UsageError Setting :=
  (Workload.Kind.ofText? s).elim (.error .invalidValue) fun k => .ok (.workload k)

def profile? : Setting → Option String
  | .profile path => some path
  | _ => none

def workload? : Setting → Option Workload.Kind
  | .workload k => some k
  | _ => none

def device? : Setting → Option String
  | .device name => some name
  | _ => none

def word? : Setting → Option String
  | .word s => some s
  | _ => none

def apply (o : RunOptions) : Setting → RunOptions
  | .profile path => { o with profile := some path }
  | .cycles n => { o with cycles := n }
  | .ackTimeout n => { o with ackTimeout := n }
  | .responseTimeout n => { o with responseTimeout := n }
  | .awaitsReset => { o with awaitsReset := true }
  | .baud n => { o with baud := some n }
  | .output path => { o with output := some path }
  | _ => o

end Setting

namespace Invocation

def traceOption : OptionSpec Setting := ⟨"trace", some 't', .flag .trace⟩
def helpOption : OptionSpec Setting := ⟨"help", some 'h', .message .helpWanted⟩
def versionOption : OptionSpec Setting := ⟨"version", some 'V', .message .versionWanted⟩
def profileOption : OptionSpec Setting := ⟨"profile", some 'p', .value (Setting.path .profile)⟩
def workloadOption : OptionSpec Setting := ⟨"workload", some 'w', .value Setting.kind⟩

def general : Grammar Setting := { options := [traceOption, helpOption, versionOption] }

def checkGrammar : Grammar Setting := { options := [profileOption, traceOption, helpOption] }

def decodeGrammar : Grammar Setting :=
  { options := [workloadOption, profileOption, traceOption, helpOption]
    operand := some .word }

def runGrammar : Grammar Setting :=
  { options :=
      [⟨"port", none, .value fun s => .ok (.device s)⟩, workloadOption, profileOption,
        ⟨"cycles", none, .value (Setting.number .cycles)⟩,
        ⟨"ack-timeout-ms", none, .value (Setting.number .ackTimeout)⟩,
        ⟨"response-timeout-ms", none, .value (Setting.number .responseTimeout)⟩,
        ⟨"wait-reset", none, .flag .awaitsReset⟩, ⟨"baud", none, .value Setting.rate⟩,
        ⟨"output", some 'o', .value (Setting.path .output)⟩, traceOption, helpOption] }

def checkCommand (settings : List Setting) : Except UsageError Command :=
  .ok (.check (settings.findSome? Setting.profile?))

def decodeCommand (settings : List Setting) : Except UsageError Command :=
  match settings.findSome? Setting.workload?, settings.filterMap Setting.word? with
  | some k, w :: ws => .ok (.decode k (settings.findSome? Setting.profile?) (w :: ws))
  | _, _ => .error .missingRequired

def runCommand (settings : List Setting) : Except UsageError Command :=
  match settings.findSome? Setting.device?, settings.findSome? Setting.workload? with
  | some device, some workload => .ok (.run (settings.foldl Setting.apply { device, workload }))
  | _, _ => .error .missingRequired

/-- The commands: what their arguments look like and what the settings come to. -/
def commands : List (String × Grammar Setting × (List Setting → Except UsageError Command)) :=
  [("check", checkGrammar, checkCommand), ("decode", decodeGrammar, decodeCommand),
    ("run", runGrammar, runCommand)]

def isCommand (word : String) : Bool := (commands.lookup word).isSome || word = "help"

/-- The answer to a request for help on commands. -/
def help : List String → UsageError
  | [] => .helpWanted
  | [word] => if isCommand word then .helpWanted else .unknownCommand
  | _ => .unknownCommand

/-- The failure when there is no command. -/
def withoutCommand (r : Reading Setting) : UsageError :=
  if r.settings.isEmpty then .nothingGiven else .missingCommand

/-- The failure behind a mark for operands, since a command cannot come there. -/
def behindMark (r : Reading Setting) : List String → UsageError
  | [] => withoutCommand r
  | word :: _ => if isCommand word then .unknownArgument else .unknownCommand

def arguments (r : Reading Setting) : List String → Except UsageError Invocation
  | [] => .error (withoutCommand r)
  | word :: rest =>
    match commands.lookup word with
    | some (grammar, command) => do
      let s ← Reading.arguments grammar {} rest
      let command ← command s.settings
      return { trace := .trace ∈ r.settings ++ s.settings, command }
    | none =>
      if word = "help" then .error (help rest)
      else
        match word.toList with
        | ['-', '-'] => .error (behindMark r rest)
        | '-' :: '-' :: cs => do arguments (← r.named general cs) rest
        | '-' :: c :: cs => do arguments (← r.letters general (c :: cs)) rest
        | _ => .error .unknownCommand

def ofArguments (args : List String) : Except UsageError Invocation := arguments {} args

end Invocation
end FaultBench.CommandLine
