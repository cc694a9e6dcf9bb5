/-
An activity is one slide of a presentation: its timeline, the services that its shapes stand for,
its transition and its title.
-/
import SlideFlow.Error

namespace SlideFlow.Deck

open SlideFlow.Markup SlideFlow.Service SlideFlow.Timeline

/-- Where the steps of an activity come from: a timing tree, which may be missing, or a list. -/
inductive Timing where
  | tree (root : Option Element)
  | given (steps : List Step)

/-- The steps, with the violation that ends them. -/
def Timing.walk : Timing → Walk
  | .tree root => recover root
  | .given steps => { steps, fault := none }

/-- What is reported while a timing is walked. -/
def Timing.events (timing : Timing) : List Event :=
  timing.walk.steps.mapIdx fun i step => .stepRead (i + 1) step.length

structure Activity where
  index : Int
  timing : Timing
  bindings : Bindings
  transition : Option Transition
  title : String

namespace Activity

/-- Makes an activity from the elements of a slide. -/
def ofElements (registry : Registry) (index : Int) (timing : Option Element) (declared : Declared)
    (transition : Option Element) (title : String) : Logged Error Activity := do
  Logged.report ((registry.unresolved declared).map fun (shape, name) =>
    .capabilityUnknown shape name)
  let transition ← Logged.ofExcept ((transition.mapM Transition.read).mapError .transition)
  return { index, timing := .tree timing, bindings := registry.resolve declared, transition, title }

/-- All steps. -/
def steps (a : Activity) : Logged Error (List Step) :=
  { events := a.timing.events, result := a.timing.walk.toExcept.mapError .violation }

/-- The number of steps. -/
def stepCount (a : Activity) : Logged Error Nat := do
  return (← a.steps).length

/-! ## Summary -/

/-- An animation with the service of its shape. -/
def animationJson (bindings : Bindings) (a : Animation) : Json :=
  .obj [
    ("shape_id", .int a.shape),
    ("type", .str a.effect.name),
    ("delay", (a.delay.map Json.int).getD (.str "indefinite")),
    ("service", ((Ordered.get? a.shape bindings).map fun service => Json.str service).getD .null)
  ]

def stepJson (bindings : Bindings) (step : Step) : Json :=
  .arr (step.map fun group => .arr (group.map (animationJson bindings)))

/-- The report of an activity with these steps. -/
def summaryOf (a : Activity) (steps : List Step) : Json :=
  .obj [
    ("index", .int a.index),
    ("title", .str a.title),
    ("transition", (a.transition.map Transition.toJson).getD .null),
    ("services", a.bindings.toJson),
    ("steps", .arr (steps.map (stepJson a.bindings)))
  ]

/-- The report of an activity. -/
def summary (a : Activity) : Logged Error Json := do
  return a.summaryOf (← a.steps)

end Activity

end SlideFlow.Deck
