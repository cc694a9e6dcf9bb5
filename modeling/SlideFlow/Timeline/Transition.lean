/-
The transition of a slide: whether a click advances it, after how many milliseconds it advances by
itself, and how long the transition takes.
-/
import SlideFlow.Json.Basic
import SlideFlow.Markup.Element
import SlideFlow.Number.Integer
import SlideFlow.Timeline.Offset

namespace SlideFlow.Timeline

open SlideFlow.Markup SlideFlow.Number SlideFlow.Text

structure Transition where
  onClick : Bool
  advanceAfter : Option Int
  /-- Whole milliseconds. -/
  duration : Option Int
  deriving DecidableEq, Repr

/-- Why a transition cannot be read. -/
inductive TransitionFault where
  | duration (why : OffsetFault)
  | advance (why : IntegerFault)
  deriving DecidableEq, Repr

namespace Transition

/-- A duration: a bare number counts milliseconds. -/
def readDuration : Option String → Except OffsetFault (Option Int)
  | none => .ok none
  | some raw => readOffset (if allShowDigits raw then raw ++ "ms" else raw)

/-- A time to advance after: only what shows nothing but digits counts. -/
def readAdvance : Option String → Except IntegerFault (Option Int)
  | none => .ok none
  | some raw => if allShowDigits raw then (readInteger raw).map some else .ok none

/-- Reads the transition element of a slide. The duration is read first. -/
def read (e : Element) : Except TransitionFault Transition := do
  let duration ← (readDuration (e.attr? "dur")).mapError .duration
  let advanceAfter ← (readAdvance (e.attr? "advTm")).mapError .advance
  let click := e.attr? "advClick"
  .ok { onClick := click ≠ some "0" ∧ click ≠ some "false", advanceAfter, duration }

/-- The duration as reports show it: milliseconds to binary64 seconds and back, towards zero. -/
def shownDuration (millis : Int) : Int :=
  let seconds := Binary64.ofRatio (decide (millis < 0)) millis.natAbs 1000
  ((seconds * .ofNat 1000).truncate?).getD 0

/-- The report of a transition. -/
def toJson (t : Transition) : Json :=
  .obj [
    ("on_click", .bool t.onClick),
    ("auto", .bool t.advanceAfter.isSome),
    ("delay", .int (t.advanceAfter.getD 0)),
    ("duration_ms", (t.duration.map fun d => .int (shownDuration d)).getD .null)
  ]

end Transition

end SlideFlow.Timeline
