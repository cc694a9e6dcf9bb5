/-
From a document to its activities: one for each slide, in order.
-/
import SlideFlow.Counter
import SlideFlow.Deck.Activity
import SlideFlow.Deck.Declared

namespace SlideFlow.Deck

open SlideFlow.Markup SlideFlow.Service

/-- The first element with this full name in document order. -/
def firstTagged? (e : Element) (tag : String) : Option Element := (e.nodesTagged (fullName tag)).head?

/-- The activity of a slide; slides count from one. -/
def Slide.activity (registry : Registry) (index : Nat) (s : Slide) : Logged Error Activity := do
  let declared ← Logged.ofExcept ((declared s.element).mapError .shapeNumber)
  let activity ← Activity.ofElements registry index (firstTagged? s.element "p:timing") declared
    (firstTagged? s.element "p:transition") (s.title.getD "")
  Logged.report [.slideRead index activity.bindings.length]
  return activity

/-- What becomes of each slide. -/
def slideActivities (registry : Registry) (d : Document) : List (Logged Error Activity) :=
  d.mapIdx fun i slide => slide.activity registry (i + 1)

/-- The activities of a document. -/
def loadActivities (registry : Registry) (d : Document) : Logged Error (List Activity) :=
  (slideActivities registry d).mapM fun activity => activity

/-- Opens a document. -/
def openDocument (opened : Opened) : Logged Error Document :=
  Logged.ofExcept (opened.mapError .document)

/-- The answers of the compiled flow to a number of calls of one session. -/
def simulate (activities : List Activity) (calls : Nat) (session : String) :
    Logged Error (List Counter.Response) := do
  let counts ← activities.mapM Activity.stepCount
  return ((Counter.ofCounts (counts.map Int.ofNat)).executeMany calls session).1

end SlideFlow.Deck
