/-
The plan of a flow: every activity with its steps, every step with its groups, every group with the
topic and the fragment of each of its branches. Making the plan is where compiling can fail: all
timelines are walked first, then the fragments are loaded, activity by activity, step by step, the
last group of a step first, branch by branch.
-/
import SlideFlow.Compile.Branch
import SlideFlow.Deck.Activity

namespace SlideFlow.Compile

open SlideFlow.Deck SlideFlow.Files SlideFlow.Service SlideFlow.Timeline

/-- A branch with its fragment. Its messages carry the name of the service as their topic. -/
structure BranchPlan where
  topic : String
  fragment : Fragment

abbrev GroupPlan := List BranchPlan

/-- The groups of a step, the last one first. -/
abbrev StepPlan := List GroupPlan

structure ActivityPlan where
  index : Int
  steps : List StepPlan

/-- Where fragments are kept and how their roles are chosen. -/
structure Library where
  files : Tree
  directory : String
  policy : Policy

namespace Library

/-- Loads the fragment of a branch. -/
def branchPlan (lib : Library) (b : Branch) : Logged Error BranchPlan := do
  let fragment ← (Fragment.loadFor lib.files lib.directory b.service b.role).mapError .fragment
  return { topic := b.service, fragment }

def groupPlan (lib : Library) (bindings : Bindings) (fixed : Option Fragment.Role) (g : Group) :
    Logged Error GroupPlan := do
  Logged.report ((unboundShapes bindings g).map .shapeUnbound)
  (branches bindings fixed g).mapM lib.branchPlan

/-- The plan of the step with this number. -/
def stepPlan (lib : Library) (bindings : Bindings) (index : Nat) (step : Step) :
    Logged Error StepPlan := do
  Logged.report [.stepRead index step.length]
  step.reverse.mapM (lib.groupPlan bindings (lib.policy.stepRole step))

def activityPlan (lib : Library) (a : Activity) : Logged Error ActivityPlan := do
  let walked ← Logged.ofExcept a.steps.result
  let steps ← (walked.mapIdx fun i step => (i + 1, step)).mapM fun (index, step) =>
    lib.stepPlan a.bindings index step
  return { index := a.index, steps }

/-- The plan of a presentation. -/
def plan (lib : Library) (activities : List Activity) : Logged Error (List ActivityPlan) := do
  let _ ← activities.mapM Activity.stepCount
  activities.mapM lib.activityPlan

end Library

end SlideFlow.Compile
