/-
Recovering the steps of a slide from its timing tree. The tree does not say which block a click
belongs to; the relation is positional. A click checkpoint is a time node that waits for a click,
and five levels above it stands the block of its step, whose `par` children are the parallel
groups:

  childTnLst            the step block: one par for each parallel group
    par                 a parallel group
      cTn
        childTnLst
          par           one animated shape
            cTn         the checkpoint

Each level on the way up is checked, and the first one that differs is reported.
-/
import SlideFlow.Markup.Element
import SlideFlow.Number.Integer
import SlideFlow.Timeline.Basic
import SlideFlow.Timeline.Violation

namespace SlideFlow.Timeline

open SlideFlow.Markup SlideFlow.Number

/-! ## From a checkpoint to its step block -/

/-- A time node that waits for a click. -/
def isCheckpoint (e : Element) : Bool :=
  e.name = "cTn" && e.attr? "nodeType" = some "clickEffect"

/-- The click checkpoints of a tree in document order, each with its ancestors, nearest first. -/
def checkpoints (root : Element) : List (Element × List Element) :=
  (root.visits []).filter fun (e, _) => isCheckpoint e

/-- Local name and role of each ancestor of a checkpoint, up to the step block. -/
def ancestry : List (String × String) := [
  ("par", "shape block"),
  ("childTnLst", "group child list"),
  ("cTn", "group time node"),
  ("par", "parallel group"),
  ("childTnLst", "step block")
]

/-- Climbs from the node `current`, which stands `below` levels above the checkpoint, along the
expected ancestry. The last ancestor is the step block. -/
def climb (checkpoint : Element) :
    Nat → Element → List (String × String) → List Element → Except Violation Element
  | _, current, [], _ => .ok current
  | below, _, (tag, role) :: _, [] =>
    .error (.ancestry checkpoint.describe (below + 1) tag role (Element.describe? none))
  | below, _, (tag, role) :: expected, up :: above =>
    if up.name = tag then climb checkpoint (below + 1) up expected above
    else .error (.ancestry checkpoint.describe (below + 1) tag role up.describe)

/-- The step block of a checkpoint. -/
def stepBlock (checkpoint : Element) (above : List Element) : Except Violation Element :=
  climb checkpoint 0 checkpoint ancestry above

/-! ## From a block to its animations -/

/-- The start delay of a time node: none if it is indefinite, zero if nothing is said. -/
def startDelay (time : Element) : Except Violation (Option Int) :=
  let raw := do
    let conditions ← time.childNamed? "stCondLst"
    let condition ← conditions.childNamed? "cond"
    condition.attr? "delay"
  match raw with
  | none => .ok (some 0)
  | some "indefinite" => .ok none
  | some text =>
    match readInteger text with
    | .ok n => .ok (some n)
    | .error _ => .error (.delay time.describe text)

/-- The elements on the way from a set behaviour to its shape target. -/
def targetPath : List String := ["cBhvr", "tgtEl", "spTgt"]

/-- Descends from an element along local names. -/
def descend (time behaviour : Element) : Element → List String → Except Violation Element
  | e, [] => .ok e
  | e, tag :: path =>
    match e.childNamed? tag with
    | some child => descend time behaviour child path
    | none => .error (.target time.describe tag behaviour.describe)

/-- The set behaviour of a time node. -/
def setBehaviour? (time : Element) : Option Element := do
  let list ← time.childNamed? "childTnLst"
  list.childNamed? "set"

/-- The number of the shape that a target names. -/
def targetShape (time target : Element) : Except Violation Int :=
  match target.attr? "spid" with
  | none => .error (.shape time.describe none)
  | some text =>
    match readInteger text with
    | .ok n => .ok n
    | .error _ => .error (.shape time.describe (some text))

/-- The animation of a shape block. -/
def readAnimation (block : Element) : Except Violation Animation :=
  match block.childNamed? "cTn" with
  | none => .error (.shapeTime block.describe)
  | some time =>
    match setBehaviour? time with
    | none => .error (.behaviour time.describe)
    | some behaviour => do
      let target ← descend time behaviour behaviour targetPath
      let shape ← targetShape time target
      let delay ← startDelay time
      .ok { shape, effect := .ofPreset (time.attr? "presetClass"), delay }

/-- The animations of a parallel group. -/
def readGroup (par : Element) : Except Violation Group :=
  match par.firstElement? with
  | none => .error (.groupStart par.describe (Element.describe? none))
  | some time =>
    if time.name ≠ "cTn" then .error (.groupStart par.describe time.describe)
    else
      match time.childNamed? "childTnLst" with
      | none => .ok []
      | some list => (list.childrenNamed "par").mapM readAnimation

/-- The step of a checkpoint. -/
def readStep (checkpoint : Element) (above : List Element) : Except Violation Step := do
  let block ← stepBlock checkpoint above
  (block.childrenNamed "par").mapM readGroup

/-! ## The walk -/

/-- The steps that a walk over a tree yields, and the violation that ends it, if one does. -/
structure Walk where
  steps : List Step
  fault : Option Violation
  deriving DecidableEq, Repr

namespace Walk

/-- The results up to the first violation. -/
def ofResults : List (Except Violation Step) → Walk
  | [] => { steps := [], fault := none }
  | .error v :: _ => { steps := [], fault := some v }
  | .ok s :: rest =>
    let w := ofResults rest
    { w with steps := s :: w.steps }

/-- All steps, if no violation ends the walk. -/
def toExcept (w : Walk) : Except Violation (List Step) :=
  match w.fault with
  | none => .ok w.steps
  | some v => .error v

/-- The number of steps, if no violation ends the walk. -/
def count (w : Walk) : Except Violation Nat := w.toExcept.map List.length

/-- The first `n` steps; nothing if there are fewer. -/
def take (w : Walk) (n : Nat) : Except Violation (Option (List Step)) :=
  if n ≤ w.steps.length then .ok (some (w.steps.take n))
  else
    match w.fault with
    | some v => .error v
    | none => .ok none

end Walk

/-- Walks the timing tree of a slide, which may be missing. -/
def recover : Option Element → Walk
  | none => { steps := [], fault := none }
  | some root => .ofResults ((checkpoints root).map fun (c, above) => readStep c above)

end SlideFlow.Timeline
