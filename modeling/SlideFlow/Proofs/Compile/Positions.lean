/-
The nodes of a planned flow, named by their position in the flow. They stand in the order in which
the flow is assembled, so a node is its number among the nodes that are created.
-/
import SlideFlow.Compile.Assembly

namespace SlideFlow.Flow

/-- A switch that sends the values one, two, three, … to these targets. -/
def Node.selector {ρ : Type} (id : ρ) (property name : String) (targets : List ρ) : Node ρ :=
  { id, type := "switch", name, wires := targets.map ([·]),
    kind := .switch property "msg" ((List.range' 1 targets.length).map Int.ofNat) false }

end SlideFlow.Flow

namespace SlideFlow.Compile

open SlideFlow.Flow

/-- The number of nodes of parts laid out one after the other. -/
def rowSize {α : Type} (size : α → Nat) : List α → Nat
  | [] => 0
  | x :: rest => size x + rowSize size rest

/-! ## Branches -/

namespace BranchPlan

/-- The number of nodes of a branch: its fragment and its mark. -/
def size (b : BranchPlan) : Nat := b.fragment.size + 1

/-- The position at which a branch laid out from a position on is entered. -/
def entry (base : Nat) (b : BranchPlan) : Nat := base + b.fragment.entryIndex

/-- The copy of the fragment of a branch, whose exit leads on to its mark. -/
def copies (base : Nat) (b : BranchPlan) : List (Node Nat) :=
  b.fragment.copies.mapIdx fun i n =>
    let placed := n.map (base + ·)
    if i = b.fragment.exitIndex then placed.connect 0 (base + b.fragment.size) else placed

/-- The node that marks messages with the topic of a branch. -/
def mark (joinAt base : Nat) (b : BranchPlan) : Node Nat :=
  .function (base + b.fragment.size) (Script.topic b.topic) s!"topic {b.topic}" [[joinAt]]

/-- The nodes of a branch, which ends at a join. -/
def nodes (joinAt base : Nat) (b : BranchPlan) : List (Node Nat) :=
  b.copies base ++ [b.mark joinAt base]

end BranchPlan

/-! ## Groups -/

namespace GroupPlan

def branchesSize (g : GroupPlan) : Nat := rowSize BranchPlan.size g

/-- The number of nodes of a group: its join, its branches and its fan-out. -/
def size (g : GroupPlan) : Nat := g.branchesSize + 2

/-- The position at which a group is entered: its fan-out stands last. -/
def entry (base : Nat) (g : GroupPlan) : Nat := base + g.branchesSize + 1

def branchNodes (joinAt : Nat) : Nat → GroupPlan → List (Node Nat)
  | _, [] => []
  | base, b :: rest => b.nodes joinAt base ++ branchNodes joinAt (base + b.size) rest

/-- The positions at which the branches are entered. -/
def branchEntries : Nat → GroupPlan → List Nat
  | _, [] => []
  | base, b :: rest => b.entry base :: branchEntries (base + b.size) rest

/-- The nodes of a group that leads on to the node at `next`. -/
def nodes (next base : Nat) (g : GroupPlan) : List (Node Nat) :=
  let join : Node Nat := .join base (Script.join g.topics) g.topics "join" next
  let fanOut : Node Nat := .function (g.entry base) (Script.fanOut g.length) "fan out"
    (fanOutWires base (g.branchEntries (base + 1)))
  join :: g.branchNodes base (base + 1) ++ [fanOut]

end GroupPlan

/-! ## Steps -/

namespace StepPlan

def groupsSize (s : StepPlan) : Nat := rowSize GroupPlan.size s

/-- The number of nodes of a step: its groups and its entry. -/
def size (s : StepPlan) : Nat := s.groupsSize + 1

/-- The position at which a step is entered: its entry stands last. -/
def entry (base : Nat) (s : StepPlan) : Nat := base + s.groupsSize

/-- The nodes of a chain of groups, the last one first; each leads on to the one before it in the
layout, the first to the node at `next`. -/
def groupNodes : Nat → Nat → StepPlan → List (Node Nat)
  | _, _, [] => []
  | next, base, g :: rest =>
    g.nodes next base ++ groupNodes (g.entry base) (base + g.size) rest

/-- The position at which a chain of groups is entered. -/
def chainEntry : Nat → Nat → StepPlan → Nat
  | next, _, [] => next
  | _, base, g :: rest => chainEntry (g.entry base) (base + g.size) rest

/-- The nodes of a step that leads on to the node at `next`. -/
def nodes (next base : Nat) (s : StepPlan) : List (Node Nat) :=
  s.groupNodes next base
    ++ [.function (s.entry base) Script.passThrough "step" [[s.chainEntry next base]]]

end StepPlan

/-! ## Activities -/

namespace ActivityPlan

def stepsSize (a : ActivityPlan) : Nat := rowSize StepPlan.size a.steps

/-- The number of nodes of an activity: its return, its steps and its switch. -/
def size (a : ActivityPlan) : Nat := a.stepsSize + 2

/-- The position at which an activity is entered: its switch stands last. -/
def entry (base : Nat) (a : ActivityPlan) : Nat := base + a.stepsSize + 1

def stepNodes (next : Nat) : Nat → List StepPlan → List (Node Nat)
  | _, [] => []
  | base, s :: rest => s.nodes next base ++ stepNodes next (base + s.size) rest

/-- The positions at which the steps are entered. -/
def stepEntries : Nat → List StepPlan → List Nat
  | _, [] => []
  | base, s :: rest => s.entry base :: stepEntries (base + s.size) rest

/-- The nodes of an activity that leads on to the node at `respond`. -/
def nodes (respond base : Nat) (a : ActivityPlan) : List (Node Nat) :=
  let ret : Node Nat :=
    .function base Script.passThrough s!"activity {a.index} return" [[respond]]
  let switch : Node Nat := .selector (a.entry base) "execution.step"
    s!"activity {a.index} step" (stepEntries (base + 1) a.steps)
  ret :: stepNodes base (base + 1) a.steps ++ [switch]

end ActivityPlan

/-! ## Flows -/

def activitiesSize (plan : List ActivityPlan) : Nat := rowSize ActivityPlan.size plan

def activityNodes (respond : Nat) : Nat → List ActivityPlan → List (Node Nat)
  | _, [] => []
  | base, a :: rest => a.nodes respond base ++ activityNodes respond (base + a.size) rest

/-- The positions at which the activities are entered. -/
def activityEntries : Nat → List ActivityPlan → List Nat
  | _, [] => []
  | base, a :: rest => a.entry base :: activityEntries (base + a.size) rest

/-- The last four nodes of a flow: the answer when all is done, the activity switch, the counter
and the request. -/
def headNodes (route method : String) (base : Nat) (plan : List ActivityPlan) : List (Node Nat) :=
  let counts := stepCounts plan
  let (activity, step) := Counter.finishedPair counts
  [ .function base (Script.response (some activity) (some step) true) "format task finished" [[0]],
    .selector (base + 1) "execution.activity" "activity" (activityEntries 2 plan ++ [base]),
    .function (base + 2) (Script.counter counts Script.sessionStore) "execution counter"
      [[base + 1]],
    .httpIn (base + 3) route method (base + 2) ]

/-- All nodes of a planned flow. -/
def layout (route method : String) (plan : List ActivityPlan) : List (Node Nat) :=
  .httpResponse 0
    :: .function 1 (Script.response none none false) "format response" [[0]]
    :: activityNodes 1 2 plan ++ headNodes route method (2 + activitiesSize plan) plan

end SlideFlow.Compile
