/-
What can be wrong with the timing tree of a slide, with the text that reports it. Elements appear
in these reports as messages describe them.
-/
import SlideFlow.Text.Quoted

namespace SlideFlow.Timeline

open SlideFlow.Text

/-- A place where a timing tree does not have the expected shape. -/
inductive Violation where
  /-- An ancestor of a click checkpoint, counted upwards from one, is not the expected one. -/
  | ancestry (checkpoint : String) (above : Nat) (tag role found : String)
  /-- A parallel group does not start with its time node. -/
  | groupStart (group found : String)
  /-- A shape block has no time node. -/
  | shapeTime (block : String)
  /-- An animation sets nothing. -/
  | behaviour (animation : String)
  /-- A set behaviour lacks an element on the way to its target. -/
  | target (animation tag behaviour : String)
  /-- The target is not a shape number. -/
  | shape (animation : String) (given : Option String)
  /-- The start delay is neither a number nor indefinite. -/
  | delay (animation given : String)
  deriving DecidableEq, Repr

namespace Violation

def message : Violation → String
  | .ancestry checkpoint above tag role found =>
    s!"Click checkpoint {checkpoint}: expected <{tag}> ({role}) {above} level(s) up, found {found}"
  | .groupStart group found => s!"Parallel group {group} must start with <cTn>, found {found}"
  | .shapeTime block => s!"Shape block {block} has no <cTn>"
  | .behaviour animation => s!"Shape animation {animation} has no <set> behavior"
  | .target animation tag _ => s!"Set behavior in {animation} is missing <{tag}>"
  | .shape animation given =>
    let shown := (given.map quoted).getD "None"
    s!"Shape target in {animation} has invalid spid {shown}"
  | .delay animation given => s!"Animation {animation} has invalid delay {quoted given}"

/-- How far above a checkpoint the fault is. -/
def level? : Violation → Option Nat
  | .ancestry _ above _ _ _ => some above
  | _ => none

/-- The local name that was expected. -/
def expected? : Violation → Option String
  | .ancestry _ _ tag _ _ => some tag
  | .groupStart _ _ => some "cTn"
  | .shapeTime _ => some "cTn"
  | .behaviour _ => some "set"
  | .target _ tag _ => some tag
  | .shape _ _ => none
  | .delay _ _ => none

/-- What was there instead, or the element that lacks the expected one. -/
def actual? : Violation → Option String
  | .ancestry _ _ _ _ found => some found
  | .groupStart _ found => some found
  | .shapeTime block => some block
  | .behaviour animation => some animation
  | .target _ _ held => some held
  | .shape _ _ => none
  | .delay _ _ => none

end Violation

end SlideFlow.Timeline
