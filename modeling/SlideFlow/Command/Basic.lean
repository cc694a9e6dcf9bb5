/-
The commands: compile a presentation into a flow, inspect its timeline, simulate the calls that the
flow answers.
-/
import SlideFlow.Command.Arguments
import SlideFlow.Counter
import SlideFlow.Ident.Pool
import SlideFlow.Number.Whole
import SlideFlow.Settings.Basic

namespace SlideFlow

open SlideFlow.Compile SlideFlow.Ident SlideFlow.Number

/-- A command with everything it needs. -/
inductive Command where
  | compile (input : String) (output : Option String) (services directory : String)
      (policy : Policy) (seed : Option Int) (verbose : Bool)
  | inspect (input services : String) (verbose : Bool)
  | simulate (input : String) (calls : Nat) (session : String)
  deriving Repr

namespace Command

/-- What commands rest on: how the value of a whole-number option is read, and which identifiers come
from a seed. -/
structure Platform (σ : Type) where
  integer? : String → Option Int
  pool : Int → Pool σ

/-- Options are read as the settings are: `7.0` is seven, and digits of other scripts are not read. -/
def Platform.standard : Platform Twister where
  integer? := readWhole?
  pool := Pool.ofSeed

/-- Why there is no command to run: help was asked for, or the arguments are wrong. -/
inductive Refusal where
  | help
  | usage
  deriving DecidableEq, Repr

/-- The name that stands for standard input and output. -/
def standardStream : String := "-"

def helpSpec : OptionSpec := { long := "help", short := none, takesValue := false }

def servicesSpec : OptionSpec := { long := "services", short := some 's', takesValue := true }

def verboseSpec : OptionSpec := { long := "verbose", short := some 'v', takesValue := false }

def compileSpecs : List OptionSpec := [
  servicesSpec,
  { long := "fragments-dir", short := some 'd', takesValue := true },
  { long := "policy", short := none, takesValue := true },
  { long := "seed", short := none, takesValue := true },
  verboseSpec, helpSpec
]

def inspectSpecs : List OptionSpec := [servicesSpec, verboseSpec, helpSpec]

def simulateSpecs : List OptionSpec := [
  { long := "calls", short := some 'n', takesValue := true },
  { long := "session", short := none, takesValue := true },
  helpSpec
]

/-- The value of a whole-number option; the default if it is not given. -/
def integerOption (integer? : String → Option Int) (a : Arguments) (long : String)
    (default : Option Int) : Except Refusal (Option Int) :=
  match a.value? long with
  | none => .ok default
  | some text =>
    match integer? text with
    | some n => .ok (some n)
    | none => .error .usage

/-- The arguments of a command. Wrong options come before a call for help, and that before all
else. -/
def arguments (specs : List OptionSpec) (args : List String) : Except Refusal Arguments :=
  match sortOut specs { options := [], positional := [] } args with
  | none => .error .usage
  | some a => if a.has "help" then .error .help else .ok a

def readCompile (integer? : String → Option Int) (settings : Settings) (args : List String) :
    Except Refusal Command := do
  let a ← arguments compileSpecs args
  let (input, output) ←
    match a.positional with
    | [] => .ok (standardStream, none)
    | [input] => .ok (input, none)
    | [input, output] => .ok (input, some output)
    | _ => .error .usage
  let seed ← integerOption integer? a "seed" settings.seed
  match Policy.ofName? ((a.value? "policy").getD settings.policy.name) with
  | none => .error .usage
  | some policy =>
    return .compile input output ((a.value? "services").getD settings.servicesFile)
      ((a.value? "fragments-dir").getD settings.fragmentsDirectory) policy seed (a.has "verbose")

def readInspect (settings : Settings) (args : List String) : Except Refusal Command := do
  let a ← arguments inspectSpecs args
  match a.positional with
  | [input] =>
    return .inspect input ((a.value? "services").getD settings.servicesFile) (a.has "verbose")
  | _ => .error .usage

def readSimulate (integer? : String → Option Int) (args : List String) :
    Except Refusal Command := do
  let a ← arguments simulateSpecs args
  let calls := (← integerOption integer? a "calls" (some 1)).getD 1
  match a.positional with
  | [input] =>
    if calls < 1 then .error .usage
    else return .simulate input calls.toNat ((a.value? "session").getD Counter.defaultSession)
  | _ => .error .usage

/-- The options in front of the name of a command, among which only help can be asked for: whether
it is, and what follows them. Nothing if an option is wrong. -/
def leadingOptions : List String → Option (Bool × List String)
  | [] => some (false, [])
  | arg :: rest =>
    if arg = "--" then some (false, rest)
    else if looksLikeOption arg then
      match readOption [helpSpec] arg with
      | .found _ => (leadingOptions rest).map fun (_, more) => (true, more)
      | _ => none
    else some (false, arg :: rest)

/-- Whether arguments start with a call for help. -/
def asksForHelp (args : List String) : Bool :=
  match leadingOptions args with
  | some (help, _) => help
  | none => false

/-- The command of a command line. Options behind two dashes can still ask for help. -/
def read (integer? : String → Option Int) (settings : Settings) (args : List String) :
    Except Refusal Command :=
  match leadingOptions args with
  | none | some (false, []) => .error .usage
  | some (true, _) => .error .help
  | some (false, name :: rest) =>
    match name with
    | "compile" => readCompile integer? settings rest
    | "inspect" => readInspect settings rest
    | "simulate" => readSimulate integer? rest
    | _ => .error (if asksForHelp (name :: rest) then .help else .usage)

end Command

end SlideFlow
