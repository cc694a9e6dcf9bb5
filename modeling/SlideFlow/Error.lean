/-
Everything that can keep a presentation from being compiled, inspected or simulated. Most failures
are declared: they say what is wrong with the input. The others stem from values that no part of
the program provides for.
-/
import SlideFlow.Deck.Document
import SlideFlow.Flow.Arena
import SlideFlow.Fragment.Load
import SlideFlow.Service.Registry
import SlideFlow.Timeline.Recover
import SlideFlow.Timeline.Transition

namespace SlideFlow

open SlideFlow.Deck SlideFlow.Flow SlideFlow.Number SlideFlow.Service SlideFlow.Timeline

inductive Error where
  /-- A timing tree does not have the expected shape. -/
  | violation (why : Violation)
  /-- A transition holds a time that cannot be told. -/
  | transition (why : TransitionFault)
  /-- The number of a shape shows digits but is no number. -/
  | shapeNumber (why : IntegerFault)
  | document (why : OpenFault)
  | registry (why : RegistryError)
  | fragment (why : FragmentError)
  | flow (why : FlowError)
  | policy (name : String)

namespace Error

def message : Error → String
  | .violation why => why.message
  | .transition (.duration _) => ""
  | .transition (.advance why) => why.message
  | .shapeNumber why => why.message
  | .document .breakdown => ""
  | .document why => s!"Cannot open presentation: {why.text}"
  | .registry why => why.message
  | .fragment why => why.message
  | .flow why => why.message
  | .policy name => s!"Unknown fragment policy: {name}"

/-- A failure that says what is wrong with the input. -/
def isDeclared : Error → Bool
  | .violation _ | .fragment _ => true
  | .transition _ | .shapeNumber _ | .policy _ => false
  | .document .breakdown => false
  | .document _ => true
  | .registry (.integer _) => false
  | .registry _ => true
  | .flow .exhausted | .flow (.noPort _ _) => false
  | .flow _ => true

end Error

end SlideFlow
