/-
The endpoints of the service: its state is the tree of files and the registry, which is loaded once
and kept. A request is answered, refused with a status, or ends in a failure of its own.
-/
import SlideFlow.Compile.Document
import SlideFlow.Files.Deck

namespace SlideFlow

open SlideFlow.Compile SlideFlow.Deck SlideFlow.Files SlideFlow.Service

namespace Endpoint

inductive Request where
  | health
  | compile (upload : Content) (policy : Option String) (seed : Option Int)
  | inspect (upload : Content)
  | simulate (upload : Content) (calls : Int) (session : String)

inductive Failure where
  | refused (status : Nat) (detail : String)
  | escaped (why : Error)

/-- The files, and the registry once it is loaded. -/
structure Desk where
  files : Tree
  registry : Option Registry

/-- The registry, which is kept only if it could be loaded. -/
def Desk.load (settings : Settings) (d : Desk) : Desk × Except Error Registry :=
  match d.registry with
  | some r => (d, .ok r)
  | none =>
    match (Registry.ofFile d.files settings.servicesFile).result with
    | .ok r => ({ d with registry := some r }, .ok r)
    | .error e => (d, .error (.registry e))

/-- A declared failure is refused, any other one ends the request. -/
def settle (run : Logged Error Json) : Except Failure Json :=
  match run.result with
  | .ok v => .ok v
  | .error e => if e.isDeclared then .error (.refused 422 e.message) else .error (.escaped e)

/-- The document of an upload that is not empty. -/
def opened (upload : Content) : Except Failure Opened :=
  if upload.isEmpty then .error (.refused 400 "Empty upload") else .ok upload.openDeck

/-- A policy that is asked for has to be known. -/
def judgePolicy : Option String → Except Failure Unit
  | none => .ok ()
  | some name =>
    match Policy.ofName? name with
    | some _ => .ok ()
    | none => .error (.refused 400 s!"Unknown fragment policy: {name}")

def health (registry : Registry) : Json :=
  .obj [("status", .str "ok"), ("capabilities", .arr (registry.names.map .str))]

def compile (settings : Settings) (spare : Int) (files : Tree) (registry : Registry)
    (upload : Content) (policy : Option String) (seed : Option Int) : Except Failure Json := do
  judgePolicy policy
  let document ← opened upload
  settle do
    let nodes ← compileDocument settings { directory := none, policy, seed } spare files registry
      document
    return flowJson nodes

def inspect (registry : Registry) (upload : Content) : Except Failure Json := do
  let document ← opened upload
  settle do
    let activities ← loadActivities registry (← openDocument document)
    let summaries ← activities.mapM Activity.summary
    return .obj [("activities", .arr summaries)]

def simulate (upload : Content) (calls : Int) (session : String) : Except Failure Json := do
  if calls < 1 then throw (.refused 400 "calls must be at least 1")
  let document ← opened upload
  settle do
    let activities ← loadActivities .empty (← openDocument document)
    let responses ← Deck.simulate activities calls.toNat session
    return .obj [("responses", .arr (responses.map Counter.Response.toJson))]

/-- Answers a request. All but the simulation need the registry, which is loaded before anything
else is judged. -/
def handle (settings : Settings) (spare : Int) (d : Desk) : Request → Desk × Except Failure Json
  | .simulate upload calls session => (d, simulate upload calls session)
  | request =>
    match d.load settings with
    | (d, .error e) => (d, .error (.escaped e))
    | (d, .ok registry) =>
      match request with
      | .health => (d, .ok (health registry))
      | .compile upload policy seed =>
        (d, compile settings spare d.files registry upload policy seed)
      | .inspect upload => (d, inspect registry upload)
      | .simulate upload calls session => (d, simulate upload calls session)

end Endpoint

end SlideFlow
