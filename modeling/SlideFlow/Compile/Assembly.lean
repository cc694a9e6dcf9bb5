/-
Assembling a planned flow in an arena. Every node is wired to nodes that are there already, so a flow
is assembled from its end to its beginning: each part gets the identifier of the node that it leads on
to and gives the one at which it is entered. First comes the answer, then for each activity its return,
its steps and its step switch, then the answer when all is done, the activity switch, the counter and
the request.

A step is a chain of groups. A group waits at its join for one message of each branch; a branch is
a copy of a fragment followed by the mark of its topic.
-/
import SlideFlow.Compile.Plan
import SlideFlow.Counter
import SlideFlow.Flow.Script

namespace SlideFlow.Compile

open SlideFlow.Flow SlideFlow.Ident

variable {σ : Type} [Source σ]

/-! ## Switches -/

/-- Gives a switch a rule for each target, from a value on. -/
def addRules (switch : String) : Int → List String → Op σ Unit
  | _, [] => return
  | value, target :: rest => do
    let _ ← Arena.addRule switch value target
    addRules switch (value + 1) rest

/-- A switch that sends the values one, two, three, … to these targets. -/
def assembleSwitch (property name : String) (targets : List String) : Op σ String := do
  let switch ← Arena.create fun id => .switch id property "msg" name
  addRules switch.id 1 targets
  return switch.id

/-! ## Branches and groups -/

/-- A branch that ends at a join. The exit of its fragment leads on to its mark. -/
def BranchPlan.assemble (join : String) (b : BranchPlan) : Op σ String := do
  let spliced ← Arena.splice b.fragment
  let mark ← Arena.create fun id =>
    .function id (Script.topic b.topic) s!"topic {b.topic}" [[join]]
  let _ ← Arena.connect spliced.exit 0 mark.id
  return spliced.entry

namespace GroupPlan

/-- The topics that the join of a group waits for. -/
def topics (g : GroupPlan) : List String := g.map (·.topic)

/-- The wires of a fan-out: one port for each branch, or one to the join if there is none. -/
def fanOutWires {ρ : Type} (join : ρ) : List ρ → List (List ρ)
  | [] => [[join]]
  | entries => entries.map ([·])

/-- A group that leads on to a node. -/
def assemble (next : String) (g : GroupPlan) : Op σ String := do
  let join ← Arena.create fun id => .join id (Script.join g.topics) g.topics "join" next
  let entries ← g.mapM (BranchPlan.assemble join.id)
  let fanOut ← Arena.create fun id =>
    .function id (Script.fanOut entries.length) "fan out" (fanOutWires join.id entries)
  return fanOut.id

end GroupPlan

/-! ## Steps and activities -/

/-- A step that leads on to the return of its activity. Its plan lists the last group first. -/
def StepPlan.assemble (back : String) (s : StepPlan) : Op σ String := do
  let next ← s.foldlM GroupPlan.assemble back
  let entry ← Arena.create fun id => .function id Script.passThrough "step" [[next]]
  return entry.id

/-- An activity that leads on to the answer. -/
def ActivityPlan.assemble (respond : String) (a : ActivityPlan) : Op σ String := do
  let back ← Arena.create fun id =>
    .function id Script.passThrough s!"activity {a.index} return" [[respond]]
  let steps ← a.steps.mapM (StepPlan.assemble back.id)
  assembleSwitch "execution.step" s!"activity {a.index} step" steps

/-! ## Flows -/

/-- The node that puts an answer together: the one when all is done if a last position is given. -/
def responder (answer : String) (finished : Option (Int × Int)) (id : String) : Node String :=
  match finished with
  | none => .function id (Script.response none none false) "format response" [[answer]]
  | some (activity, step) =>
    .function id (Script.response (some activity) (some step) true) "format task finished" [[answer]]

/-- The numbers of steps of the activities. -/
def stepCounts (plan : List ActivityPlan) : List Int := plan.map fun a => (a.steps.length : Int)

/-- A planned flow that takes requests under a route. -/
def assembleFlow (route method : String) (plan : List ActivityPlan) : Op σ Unit := do
  let counts := stepCounts plan
  let answer ← Arena.create fun id => .httpResponse id
  let respond ← Arena.create (responder answer.id none)
  let activities ← plan.mapM (ActivityPlan.assemble respond.id)
  let finished ← Arena.create (responder answer.id (some (Counter.finishedPair counts)))
  let switch ← assembleSwitch "execution.activity" "activity" (activities ++ [finished.id])
  let counter ← Arena.create fun id =>
    .function id (Script.counter counts Script.sessionStore) "execution counter" [[switch]]
  let _ ← Arena.create fun id => .httpIn id route method counter.id

/-- Assembles a planned flow in a new arena and gives its nodes. -/
def assemble (route method : String) (pool : Pool σ) (plan : List ActivityPlan) :
    Except FlowError (List (Node String)) :=
  let op : Op σ (List (Node String)) := do
    assembleFlow route method plan
    Arena.flush
  (op.run.run (Arena.ofPool pool)).1

end SlideFlow.Compile
