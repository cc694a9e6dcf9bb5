/-
The arguments of the command line. Options and positional arguments may be mixed; two dashes alone
end the options, one dash alone is positional. An option takes its value from what is attached to
it, behind an equals sign if it has a long name, or else from the next argument, whatever that
looks like. Flags with short names may be written together. Of an option given twice the last value
counts.
-/
import SlideFlow.Ordered

namespace SlideFlow.Command

/-- An option: its long name, its short name, and whether it takes a value. -/
structure OptionSpec where
  long : String
  short : Option Char
  takesValue : Bool
  deriving DecidableEq, Repr

/-- Arguments after they are sorted out. A flag that is given has the empty value. -/
structure Arguments where
  options : Ordered String String
  positional : List String
  deriving DecidableEq, Repr

namespace Arguments

def value? (a : Arguments) (long : String) : Option String := Ordered.get? long a.options

def has (a : Arguments) (long : String) : Bool := (a.value? long).isSome

def put (a : Arguments) (long value : String) : Arguments :=
  { a with options := Ordered.put long value a.options }

end Arguments

/-- The two sides of the first equals sign. -/
def splitEquals (cs : List Char) : List Char × Option (List Char) :=
  match cs.span (· != '=') with
  | (name, []) => (name, none)
  | (name, _ :: value) => (name, some value)

/-- Reads short options written together. Gives the options read and whether the last one still
needs the next argument as its value; nothing if one is unknown. -/
def readCluster (specs : List OptionSpec) :
    List Char → Option (List (String × String) × Option String)
  | [] => some ([], none)
  | c :: rest => do
    let spec ← specs.find? (·.short = some c)
    if spec.takesValue then
      if rest.isEmpty then some ([], some spec.long)
      else some ([(spec.long, String.ofList rest)], none)
    else do
      let (found, open?) ← readCluster specs rest
      some ((spec.long, "") :: found, open?)

/-- An argument that is read as an option. -/
inductive Reading where
  | found (options : List (String × String))
  /-- The options found, and one that takes the next argument as its value. -/
  | open (options : List (String × String)) (long : String)
  | wrong
  deriving DecidableEq, Repr

/-- Reads an argument that starts with a dash and has more to it. -/
def readOption (specs : List OptionSpec) (arg : String) : Reading :=
  match arg.toList with
  | '-' :: '-' :: rest =>
    let (name, attached) := splitEquals rest
    match specs.find? (·.long = String.ofList name), attached with
    | none, _ => .wrong
    | some spec, some value =>
      if spec.takesValue then .found [(spec.long, String.ofList value)] else .wrong
    | some spec, none => if spec.takesValue then .open [] spec.long else .found [(spec.long, "")]
  | _ :: rest =>
    match readCluster specs rest with
    | none => .wrong
    | some (found, none) => .found found
    | some (found, some long) => .open found long
  | [] => .wrong

/-- Whether an argument is an option. -/
def looksLikeOption (arg : String) : Bool :=
  match arg.toList with
  | '-' :: _ :: _ => true
  | _ => false

/-- Sorts out arguments; nothing if they are wrong. -/
def sortOut (specs : List OptionSpec) : Arguments → List String → Option Arguments
  | a, [] => some a
  | a, arg :: rest =>
    if arg = "--" then some { a with positional := a.positional ++ rest }
    else if looksLikeOption arg then
      match readOption specs arg with
      | .wrong => none
      | .found options => sortOut specs (options.foldl (fun a (k, v) => a.put k v) a) rest
      | .open options long =>
        match rest with
        | [] => none
        | value :: rest =>
          sortOut specs ((options.foldl (fun a (k, v) => a.put k v) a).put long value) rest
    else sortOut specs { a with positional := a.positional ++ [arg] } rest

end SlideFlow.Command
