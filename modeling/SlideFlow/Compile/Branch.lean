/-
Branches of a parallel group: one for each animated shape that stands for a service. Shapes without
a service are left out and take no port.
-/
import SlideFlow.Fragment.Role
import SlideFlow.Service.Registry

namespace SlideFlow.Compile

open SlideFlow.Fragment SlideFlow.Service SlideFlow.Timeline

/-- How the role of a branch is chosen. -/
inductive Policy where
  /-- By the effect of its own animation. -/
  | perBranch
  /-- By the effect of the first animation of its step. -/
  | perStep
  deriving DecidableEq, Repr

namespace Policy

def name : Policy → String
  | .perBranch => "per_branch"
  | .perStep => "per_step"

def ofName? (s : String) : Option Policy := [perBranch, perStep].find? (·.name = s)

/-- The one role of all branches of a step, if the policy fixes it. -/
def stepRole (policy : Policy) (step : Step) : Option Role :=
  match policy with
  | .perBranch => none
  | .perStep => step.flatten.head?.map fun a => .ofEffect a.effect

end Policy

structure Branch where
  shape : Int
  service : String
  role : Role
  deriving DecidableEq, Repr

/-- The branch of an animation whose shape stands for a service. -/
def branchOf (bindings : Bindings) (fixed : Option Role) (a : Animation) : Option Branch :=
  (Ordered.get? a.shape bindings).map fun service =>
    { shape := a.shape, service, role := fixed.getD (.ofEffect a.effect) }

/-- The branches of a group in order. The port of a branch is its position. -/
def branches (bindings : Bindings) (fixed : Option Role) (g : Group) : List Branch :=
  g.filterMap (branchOf bindings fixed)

/-- The shapes of a group that stand for no service. -/
def unboundShapes (bindings : Bindings) (g : Group) : List Int :=
  (g.filter fun a => (Ordered.get? a.shape bindings).isNone).map (·.shape)

end SlideFlow.Compile
