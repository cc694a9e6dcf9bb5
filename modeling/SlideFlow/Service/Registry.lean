/-
The registry of capabilities: the services that shapes may stand for, under their names, each once
and in the order of registration.
-/
import SlideFlow.Files.Read
import SlideFlow.Log
import SlideFlow.Schema
import SlideFlow.Text.Blank

namespace SlideFlow.Service

open SlideFlow.Files SlideFlow.Number SlideFlow.Text

/-- A service that shapes may stand for. It is known by its name alone. -/
structure Capability where
  name : RawText
  deriving DecidableEq, Repr

structure Registry where
  /-- The capabilities under their names. -/
  services : Ordered RawText Capability
  deriving DecidableEq, Repr

/-- Why names are not registered. -/
inductive RegistryError where
  | unreadable (path : String) (why : ReadFault)
  | malformed (message : String)
  | shape (why : Schema.Fault)
  | integer (why : IntegerFault)
  /-- A source lists a name that is taken. -/
  | repeatedInSource
  /-- A list of names holds one twice. -/
  | repeatedName
  deriving Repr

def RegistryError.message : RegistryError → String
  | .unreadable path why => s!"Cannot read service source {path}: {why.message}"
  | .malformed message => s!"Service source is not valid JSON: {message}"
  | .shape why => s!"Service source failed validation: {why.message}"
  | .integer why => why.message
  | .repeatedInSource =>
    "Service source lists a capability more than once or one already registered"
  | .repeatedName => "Duplicate capability name"

namespace Registry

def empty : Registry := { services := [] }

/-- The registered names in order. -/
def names (r : Registry) : List RawText := Ordered.keys r.services

/-- Registers a name, unless it is taken. -/
def add? (r : Registry) (name : RawText) : Option Registry :=
  if name ∈ r.names then none else some { services := Ordered.put name { name } r.services }

/-- Registers names in order up to the first that is taken, and gives that one. -/
def addMany : Registry → List RawText → Registry × Option RawText
  | r, [] => (r, none)
  | r, name :: rest =>
    match r.add? name with
    | some r' => addMany r' rest
    | none => (r, some name)

/-- The registry of a list of names. -/
def ofNames (names : List RawText) : Except RegistryError Registry :=
  match empty.addMany names with
  | (r, none) => .ok r
  | (_, some _) => .error .repeatedName

/-- The capability of a name. The empty name stands for none. -/
def find? (r : Registry) (name : RawText) : Option Capability :=
  if name.isEmpty then none else Ordered.get? name r.services

/-! ## Sources -/

/-- The shape of a source of names. -/
def sourceSchema : Schema := .list .text

/-- The names that a source lists. -/
def readSource (text : String) : Except RegistryError (List RawText) :=
  match Json.read text with
  | .error (.integer why) => .error (.integer why)
  | .error e => .error (.malformed (e.message text.toList))
  | .ok v =>
    match sourceSchema.check v with
    | some why => .error (.shape why)
    | none => .ok ((v.arr?.getD []).filterMap Json.text?)

/-- Registers the names of a source. Those before one that is taken stay registered. -/
def loadSource (r : Registry) (text : String) : Registry × Logged RegistryError Unit :=
  match readSource text with
  | .error e => (r, .throw e)
  | .ok names =>
    match r.addMany names with
    | (r', none) => (r', .report [.capabilitiesRegistered names.length])
    | (r', some taken) =>
      (r', { events := [.capabilityTaken taken], result := .error .repeatedInSource })

/-- Registers the names of a source in a file. -/
def loadFile (r : Registry) (files : Tree) (path : String) : Registry × Logged RegistryError Unit :=
  match files.readText path with
  | .error why => (r, .throw (.unreadable path why))
  | .ok text => r.loadSource text

/-- The registry of a source in a file. -/
def ofFile (files : Tree) (path : String) : Logged RegistryError Registry :=
  match empty.loadFile files path with
  | (r, loaded) => do
    loaded
    pure r

end Registry

/-! ## Bindings -/

/-- The service that each shape of a slide stands for. -/
abbrev Bindings := Ordered Int String

/-- The names that shapes declare, if they declare any. -/
abbrev Declared := Ordered Int (Option String)

namespace Registry

/-- The capability that a declared name stands for; white space around it does not count. -/
def matching? (r : Registry) (name : String) : Option Capability := r.find? (strip name)

/-- Binds each shape to the capability that it declares; other shapes are left out. A capability is
found under its name, so that is what the shape is bound to. -/
def resolve (r : Registry) (declared : Declared) : Bindings :=
  declared.filterMap fun (shape, name) => do
    let name ← name
    let _ ← r.matching? name
    some (shape, strip name)

/-- The shapes that declare something that is not registered. -/
def unresolved (r : Registry) (declared : Declared) : List (Int × String) :=
  declared.filterMap fun
    | (shape, some name) =>
      if name ≠ "" && (r.matching? name).isNone then some (shape, name) else none
    | (_, none) => none

end Registry

/-- The written form of bindings. -/
def Bindings.toJson (b : Bindings) : Json :=
  .obj (b.map fun (shape, service) => (toString shape, .str service))

end SlideFlow.Service
