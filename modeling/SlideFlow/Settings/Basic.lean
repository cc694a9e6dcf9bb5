/-
Settings from the environment and from a file of assignments. Names do not depend on case; a
setting from the environment wins over one from the file. The directory of fragments goes by two
names, of which the first counts where both are given in one place. The file may not assign
anything else.
-/
import SlideFlow.Compile.Branch
import SlideFlow.Number.Whole
import SlideFlow.Settings.EnvFile
import SlideFlow.Text.Case

namespace SlideFlow

open SlideFlow.Compile SlideFlow.Files SlideFlow.Text

structure Settings where
  servicesFile : String
  fragmentsDirectory : String
  route : String
  method : String
  policy : Policy
  seed : Option Int
  logLevel : String
  deriving Repr

namespace Settings

def defaults : Settings where
  servicesFile := "services.json"
  fragmentsDirectory := "services"
  route := "/execute_next"
  method := "post"
  policy := .perBranch
  seed := none
  logLevel := "WARNING"

/-- Why settings are refused. -/
inductive Fault where
  | policy (given : String)
  | seed (given : String)
  /-- The file assigns a name that is no setting. -/
  | unknown (name : String)
  /-- The bytes of the file are no text. -/
  | undecodable
  deriving DecidableEq, Repr

/-- The settings by the name that reports show. -/
def fieldNames : List String :=
  ["services_file", "fragments_dir", "route", "method", "fragment_policy", "id_seed", "log_level"]

/-- The names under which a setting is given, in lower case. -/
def givenNames (field : String) : List String :=
  if field = "fragments_dir" then ["mashup_fragments_dir", "mashup_services_dir"]
  else ["mashup_" ++ field]

/-- Values by name in lower case; a later one wins. -/
def lowered (pairs : Ordered String (Option String)) : Ordered String (Option String) :=
  Ordered.ofList (pairs.map fun (name, value) => (lower name, value))

/-- The value of a setting in one place. -/
def valueIn (values : Ordered String (Option String)) (field : String) : Option String :=
  (givenNames field).findSome? fun name => (Ordered.get? name values).join

/-- The first name in a file that is no setting. A name without a value does not count, nor does
the bare name of a setting. -/
def firstUnknown? (values : Ordered String (Option String)) : Option String :=
  let known := fieldNames ++ fieldNames.flatMap givenNames
  (values.find? fun (name, value) => (value.getD "") ≠ "" && !known.contains name).map (·.1)

def readPolicy : Option String → Except Fault Policy
  | none => .ok defaults.policy
  | some given =>
    match Policy.ofName? given with
    | some p => .ok p
    | none => .error (.policy given)

def readSeed : Option String → Except Fault (Option Int)
  | none => .ok defaults.seed
  | some given =>
    match Number.readWhole? given with
    | some n => .ok (some n)
    | none => .error (.seed given)

/-- Reads the settings from an environment and the text of a file of assignments. -/
def read (environment : List (String × String)) (file : Option String) : Except Fault Settings := do
  let own := lowered (environment.map fun (name, value) => (name, some value))
  let other := lowered ((file.map (EnvFile.read environment)).getD [])
  if let some name := firstUnknown? other then throw (.unknown name)
  let value (field : String) := (valueIn own field).or (valueIn other field)
  let policy ← readPolicy (value "fragment_policy")
  let seed ← readSeed (value "id_seed")
  return {
    servicesFile := (value "services_file").getD defaults.servicesFile
    fragmentsDirectory := (value "fragments_dir").getD defaults.fragmentsDirectory
    route := (value "route").getD defaults.route
    method := (value "method").getD defaults.method
    policy, seed
    logLevel := (value "log_level").getD defaults.logLevel
  }

/-- The file of assignments. -/
def fileName : String := ".env"

/-- Reads the settings from an environment and the file of assignments, if there is one. -/
def load (environment : List (String × String)) (files : Tree) : Except Fault Settings :=
  match files.readText fileName with
  | .ok text => read environment (some text)
  | .error (.undecodable _) => .error .undecodable
  | .error _ => read environment none

/-- The report of the settings. -/
def toJson (s : Settings) : Json :=
  .obj [
    ("services_file", .str s.servicesFile),
    ("fragments_dir", .str s.fragmentsDirectory),
    ("route", .str s.route),
    ("method", .str s.method),
    ("fragment_policy", .str s.policy.name),
    ("id_seed", (s.seed.map Json.int).getD .null),
    ("log_level", .str s.logLevel)
  ]

end Settings

end SlideFlow
