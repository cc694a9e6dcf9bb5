/-
The timeline of a slide: steps that clicks trigger, each a sequence of groups, each a number of
animations that run side by side.
-/
import SlideFlow.Text.Vocabulary

namespace SlideFlow.Timeline

open SlideFlow.Text

/-- Whether an animation brings a shape in or takes it away. -/
inductive Effect where
  | entrance
  | exit
  deriving DecidableEq, Repr

namespace Effect

def name : Effect → String
  | .entrance => "entrance"
  | .exit => "exit"

def ofName (s : String) : Except UnknownWord Effect :=
  match [entrance, exit].find? (·.name = s) with
  | some e => .ok e
  | none => .error { word := s, vocabulary := "AnimationType" }

/-- The effect of a preset class: everything but an exit brings the shape in. -/
def ofPreset (preset : Option String) : Effect :=
  if preset = some "exit" then .exit else .entrance

end Effect

/-- The animation of one shape. The delay is in milliseconds; none means that it is indefinite. -/
structure Animation where
  shape : Int
  effect : Effect
  delay : Option Int
  deriving DecidableEq, Repr

/-- Animations that run side by side. -/
abbrev Group := List Animation

/-- What one click triggers: groups that run one after the other. -/
abbrev Step := List Group

end SlideFlow.Timeline
