/-! Command lines: options with and without values, by their names or by single letters, operands,
and the mark behind which there are only operands. The value of an option is looked at only when
the next argument shows that it is complete. -/
namespace FaultBench.CommandLine

inductive UsageError where
  | helpWanted
  | versionWanted
  /-- No argument at all, where a command is needed. -/
  | nothingGiven
  | missingCommand
  | unknownCommand
  | unknownArgument
  | missingValue
  | unwantedValue
  | invalidValue
  | repeated
  | missingRequired
  deriving DecidableEq, Repr

/-- The exit status of a program that is given such arguments. -/
def UsageError.exitCode : UsageError → Nat
  | .helpWanted => 0
  | .versionWanted => 0
  | _ => 2

inductive OptionKind (σ : Type) where
  | flag (setting : σ)
  | value (read : String → Except UsageError σ)
  | message (e : UsageError)

structure OptionSpec (σ : Type) where
  name : String
  letter : Option Char := none
  kind : OptionKind σ

/-- The options of a command, and what its operands mean, if it has any. -/
structure Grammar (σ : Type) where
  options : List (OptionSpec σ)
  operand : Option (String → σ) := none

structure Reading (σ : Type) where
  settings : List σ := []
  given : List String := []
  /-- The last option with a value, and the value if it has come. -/
  pending : Option (OptionSpec σ × Option String) := none

namespace Reading

variable {σ : Type}

def add (r : Reading σ) (setting : σ) : Reading σ := { r with settings := r.settings ++ [setting] }

def give (r : Reading σ) (o : OptionSpec σ) : Except UsageError (Reading σ) :=
  if o.name ∈ r.given then .error .repeated else .ok { r with given := o.name :: r.given }

def set (r : Reading σ) (o : OptionSpec σ) (value : String) : Except UsageError (Reading σ) :=
  match o.kind with
  | .value read => do
    let r ← r.give o
    return r.add (← read value)
  | _ => .error .unwantedValue

/-- Completes the last option. -/
def settle (r : Reading σ) : Except UsageError (Reading σ) :=
  match r.pending with
  | none => .ok r
  | some (_, none) => .error .missingValue
  | some (o, some value) => { r with pending := none }.set o value

def meet (r : Reading σ) (o : OptionSpec σ) : Except UsageError (Reading σ) := do
  let r ← r.settle
  match o.kind with
  | .flag setting => return (← r.give o).add setting
  | .value _ => return { r with pending := some (o, none) }
  | .message e => .error e

def meetWith (r : Reading σ) (o : OptionSpec σ) (value : String) :
    Except UsageError (Reading σ) :=
  match o.kind with
  | .value _ => do (← r.settle).set o value
  | _ => .error .unwantedValue

def awaits (r : Reading σ) : Bool :=
  match r.pending with
  | some (_, none) => true
  | _ => false

def supply (r : Reading σ) (value : String) : Reading σ :=
  { r with pending := r.pending.map fun p => (p.1, some value) }

/-- Letters of one argument: the first that takes a value takes the rest for it. -/
def letters (g : Grammar σ) (r : Reading σ) : List Char → Except UsageError (Reading σ)
  | [] => .ok r
  | c :: rest =>
    match g.options.find? fun o => o.letter = some c with
    | none => .error .unknownArgument
    | some o =>
      match o.kind, rest with
      | .value _, '=' :: value => r.meetWith o (String.ofList value)
      | .value _, v :: value => r.meetWith o (String.ofList (v :: value))
      | _, _ => do letters g (← r.meet o) rest

/-- An option by its name, with or without a value behind an equals sign. -/
def named (g : Grammar σ) (r : Reading σ) (cs : List Char) : Except UsageError (Reading σ) :=
  let name := cs.takeWhile (· ≠ '=')
  match g.options.find? fun o => o.name = String.ofList name with
  | none => .error .unknownArgument
  | some o =>
    match cs.dropWhile (· ≠ '=') with
    | [] => r.meet o
    | _ :: value => r.meetWith o (String.ofList value)

def operand (g : Grammar σ) (r : Reading σ) (word : String) : Except UsageError (Reading σ) :=
  match g.operand with
  | none => .error .unknownArgument
  | some read => do return (← r.settle).add (read word)

def arguments (g : Grammar σ) (r : Reading σ) : List String → Except UsageError (Reading σ)
  | [] => r.settle
  | word :: rest =>
    match word.toList with
    | ['-', '-'] => rest.foldlM (operand g) r >>= settle
    | '-' :: '-' :: cs => do arguments g (← r.named g cs) rest
    | '-' :: c :: cs => do arguments g (← r.letters g (c :: cs)) rest
    | _ =>
      if r.awaits then arguments g (r.supply word) rest
      else do arguments g (← r.operand g word) rest

end Reading
end FaultBench.CommandLine
