/-
Charts of flows. A chart says which name every part of a flow has: the join, the fan-out and the
branches of each group, the entry of each step, the return and the switch of each activity, and the
six nodes around them. It determines the nodes of the flow, whatever the names are, so that a
layout, in which names are positions, and a finished flow, in which they are identifiers, are the
nodes of two charts of one shape (`FlowChart.nodes_map`).

Groups stand in a chart in the order in which they run. Nodes come in the order of construction,
from the end of the flow to its beginning, so the last group of a step comes first.
-/
import SlideFlow.Proofs.Flow.Paste

namespace SlideFlow.Fragment

open SlideFlow.Flow SlideFlow.Text

variable {ρ τ : Type}

/-! ## Copies under any names -/

/-- A text that may be one of the names, under new names. -/
def refAs (known : List RawText) (rename : RawText → ρ) (s : RawText) : Ref ρ :=
  if s ∈ known then .node (rename s) else .text s

/-- A property of a copy under new names. -/
def propertyAs (known : List RawText) (rename : RawText → ρ) : Json → Property ρ
  | .str s => .one (refAs known rename s)
  | .arr items =>
    match allTexts? items with
    | some texts => .many (texts.map (refAs known rename))
    | none => .value (.arr items)
  | v => .value v

/-- The copy of a node under new names. -/
def copyAs (known : List RawText) (rename : RawText → ρ) (p : Part) : Node ρ where
  id := rename p.id
  type := p.type
  name := ""
  wires := p.wires.map (List.map rename)
  kind := .copy (p.properties.map fun (key, v) => (key, propertyAs known rename v))

theorem refAs_map (known : List RawText) (rename : RawText → ρ) (f : ρ → τ) (s : RawText) :
    (refAs known rename s).map f = refAs known (fun s => f (rename s)) s := by
  unfold refAs
  split <;> rfl

theorem propertyAs_map (known : List RawText) (rename : RawText → ρ) (f : ρ → τ) (v : Json) :
    (propertyAs known rename v).map f = propertyAs known (fun s => f (rename s)) v := by
  cases v with
  | str s => simp only [propertyAs, Property.map, refAs_map]
  | arr items =>
    simp only [propertyAs]
    cases allTexts? items with
    | none => rfl
    | some texts =>
      simp only [Property.map, List.map_map]
      congr 1
      exact List.map_congr_left fun s _ => refAs_map known rename f s
  | _ => rfl

theorem copyAs_map (known : List RawText) (rename : RawText → ρ) (f : ρ → τ) (p : Part) :
    (copyAs known rename p).map f = copyAs known (fun s => f (rename s)) p := by
  simp only [copyAs, Node.map, Kind.map, List.map_map]
  congr 2
  · exact funext fun port => List.map_map
  · exact List.map_congr_left fun kv _ => by simp [propertyAs_map]

end SlideFlow.Fragment

namespace SlideFlow.Compile

open SlideFlow.Flow SlideFlow.Fragment SlideFlow.Text

variable {ρ τ : Type}

/-! ## Branches -/

/-- A branch: its topic, its fragment, the names that the nodes of the fragment have in the flow,
and the name of its mark. -/
structure BranchChart (ρ : Type) where
  topic : String
  fragment : Fragment
  rename : RawText → ρ
  mark : ρ

namespace BranchChart

/-- The names of the copied nodes, in the order of the fragment. -/
def copy (c : BranchChart ρ) : List ρ := (names c.fragment.parts).map c.rename

def entry (c : BranchChart ρ) : ρ := c.rename c.fragment.entry

def exit (c : BranchChart ρ) : ρ := c.rename c.fragment.exit

/-- All names of a branch, in the order of construction. -/
def names (c : BranchChart ρ) : List ρ := c.copy ++ [c.mark]

/-- The copy of a node of the fragment, apart from the wire that leads on to the mark. -/
def plainCopy (c : BranchChart ρ) (p : Part) : Node ρ :=
  copyAs (Fragment.names c.fragment.parts) c.rename p

/-- The copy of the exit of the fragment: its first port leads on to the mark too. -/
def exitCopy (c : BranchChart ρ) (p : Part) : Node ρ :=
  let ports := (c.plainCopy p).wires
  { c.plainCopy p with wires := (ports.headD [] ++ [c.mark]) :: ports.tail }

def copyNode (c : BranchChart ρ) (p : Part) : Node ρ :=
  if p.id = c.fragment.exit then c.exitCopy p else c.plainCopy p

def markNode (c : BranchChart ρ) (join : ρ) : Node ρ :=
  .function c.mark (Script.topic c.topic) s!"topic {c.topic}" [[join]]

/-- The nodes of a branch that ends at a join. -/
def nodes (c : BranchChart ρ) (join : ρ) : List (Node ρ) :=
  c.fragment.parts.map c.copyNode ++ [c.markNode join]

def map (f : ρ → τ) (c : BranchChart ρ) : BranchChart τ where
  topic := c.topic
  fragment := c.fragment
  rename := fun s => f (c.rename s)
  mark := f c.mark

end BranchChart

/-! ## Groups -/

/-- A group: the names of its join and its fan-out, and its branches in the order of ports. -/
structure GroupChart (ρ : Type) where
  join : ρ
  branches : List (BranchChart ρ)
  fanOut : ρ

namespace GroupChart

def names (c : GroupChart ρ) : List ρ :=
  c.join :: c.branches.flatMap BranchChart.names ++ [c.fanOut]

/-- The topics that the join waits for. -/
def topics (c : GroupChart ρ) : List String := c.branches.map (·.topic)

/-- The wires of the fan-out: one port for each branch, or one to the join if there is none. -/
def fanOutWires (c : GroupChart ρ) : List (List ρ) :=
  match c.branches with
  | [] => [[c.join]]
  | branches => branches.map fun b => [b.entry]

def joinNode (c : GroupChart ρ) (next : ρ) : Node ρ :=
  .join c.join (Script.join c.topics) c.topics "join" next

def fanOutNode (c : GroupChart ρ) : Node ρ :=
  .function c.fanOut (Script.fanOut c.branches.length) "fan out" c.fanOutWires

/-- The nodes of a group that leads on to a next node. -/
def nodes (c : GroupChart ρ) (next : ρ) : List (Node ρ) :=
  c.joinNode next :: c.branches.flatMap (·.nodes c.join) ++ [c.fanOutNode]

def map (f : ρ → τ) (c : GroupChart ρ) : GroupChart τ where
  join := f c.join
  branches := c.branches.map (.map f)
  fanOut := f c.fanOut

end GroupChart

/-- Where a chain of groups is entered: at the fan-out of its first group, or at its end. -/
def chainHead (back : ρ) : List (GroupChart ρ) → ρ
  | [] => back
  | g :: _ => g.fanOut

/-- The nodes of a chain of groups, the last group first. Each group leads on to the one behind it,
the last one to the end of the chain. -/
def chainNodes (back : ρ) : List (GroupChart ρ) → List (Node ρ)
  | [] => []
  | g :: rest => chainNodes back rest ++ g.nodes (chainHead back rest)

/-! ## Steps, activities and flows -/

/-- A step: its groups in the order in which they run, and the name of its entry. -/
structure StepChart (ρ : Type) where
  groups : List (GroupChart ρ)
  entry : ρ

namespace StepChart

def names (c : StepChart ρ) : List ρ := c.groups.reverse.flatMap GroupChart.names ++ [c.entry]

def entryNode (c : StepChart ρ) (back : ρ) : Node ρ :=
  .function c.entry Script.passThrough "step" [[chainHead back c.groups]]

/-- The nodes of a step that ends at the return of its activity. -/
def nodes (c : StepChart ρ) (back : ρ) : List (Node ρ) :=
  chainNodes back c.groups ++ [c.entryNode back]

def map (f : ρ → τ) (c : StepChart ρ) : StepChart τ where
  groups := c.groups.map (.map f)
  entry := f c.entry

end StepChart

/-- An activity: its number, the names of its return and its switch, and its steps. -/
structure ActivityChart (ρ : Type) where
  index : Int
  back : ρ
  steps : List (StepChart ρ)
  switch : ρ

namespace ActivityChart

def names (c : ActivityChart ρ) : List ρ := c.back :: c.steps.flatMap StepChart.names ++ [c.switch]

def backNode (c : ActivityChart ρ) (respond : ρ) : Node ρ :=
  .function c.back Script.passThrough s!"activity {c.index} return" [[respond]]

def switchNode (c : ActivityChart ρ) : Node ρ :=
  .selector c.switch "execution.step" s!"activity {c.index} step" (c.steps.map (·.entry))

/-- The nodes of an activity that ends at the answer. -/
def nodes (c : ActivityChart ρ) (respond : ρ) : List (Node ρ) :=
  c.backNode respond :: c.steps.flatMap (·.nodes c.back) ++ [c.switchNode]

def map (f : ρ → τ) (c : ActivityChart ρ) : ActivityChart τ where
  index := c.index
  back := f c.back
  steps := c.steps.map (.map f)
  switch := f c.switch

end ActivityChart

/-- A flow: its activities and the nodes around them. -/
structure FlowChart (ρ : Type) where
  answer : ρ
  respond : ρ
  activities : List (ActivityChart ρ)
  finished : ρ
  switch : ρ
  counter : ρ
  request : ρ

namespace FlowChart

/-- All names of a flow, in the order of construction. -/
def names (c : FlowChart ρ) : List ρ :=
  c.answer :: c.respond :: c.activities.flatMap ActivityChart.names
    ++ [c.finished, c.switch, c.counter, c.request]

/-- The numbers of steps of the activities. -/
def stepCounts (c : FlowChart ρ) : List Int := c.activities.map fun a => (a.steps.length : Int)

/-- The node that answers a request while activities are left. -/
def respondNode (c : FlowChart ρ) : Node ρ :=
  .function c.respond (Script.response none none false) "format response" [[c.answer]]

/-- The node that answers a request once everything has run. -/
def finishedNode (c : FlowChart ρ) : Node ρ :=
  let last := Counter.finishedPair c.stepCounts
  .function c.finished (Script.response (some last.1) (some last.2) true) "format task finished"
    [[c.answer]]

def switchNode (c : FlowChart ρ) : Node ρ :=
  .selector c.switch "execution.activity" "activity"
    (c.activities.map (·.switch) ++ [c.finished])

def counterNode (c : FlowChart ρ) : Node ρ :=
  .function c.counter (Script.counter c.stepCounts Script.sessionStore) "execution counter"
    [[c.switch]]

/-- The nodes of a flow that takes requests under a route. -/
def nodes (c : FlowChart ρ) (route method : String) : List (Node ρ) :=
  .httpResponse c.answer :: c.respondNode :: c.activities.flatMap (·.nodes c.respond)
    ++ [c.finishedNode, c.switchNode, c.counterNode, .httpIn c.request route method c.counter]

def map (f : ρ → τ) (c : FlowChart ρ) : FlowChart τ where
  answer := f c.answer
  respond := f c.respond
  activities := c.activities.map (.map f)
  finished := f c.finished
  switch := f c.switch
  counter := f c.counter
  request := f c.request

end FlowChart

/-! ## Charts under a renaming -/

theorem BranchChart.copy_map (f : ρ → τ) (c : BranchChart ρ) : (c.map f).copy = c.copy.map f := by
  simp only [copy, map, List.map_map]
  rfl

theorem BranchChart.names_map (f : ρ → τ) (c : BranchChart ρ) : (c.map f).names = c.names.map f := by
  simp only [names, copy_map, List.map_append]
  rfl

theorem BranchChart.copyNode_map (f : ρ → τ) (c : BranchChart ρ) (p : Part) :
    (c.map f).copyNode p = (c.copyNode p).map f := by
  have hplain : (c.map f).plainCopy p = (c.plainCopy p).map f := (copyAs_map _ _ f p).symm
  unfold copyNode
  show (if p.id = c.fragment.exit then _ else _) = _
  split
  · unfold exitCopy
    rw [hplain]
    cases hw : (c.plainCopy p).wires with
    | nil => simp [Node.map, hw, map]
    | cons port ports => simp [Node.map, hw, map]
  · exact hplain

theorem BranchChart.nodes_map (f : ρ → τ) (c : BranchChart ρ) (join : ρ) :
    (c.map f).nodes (f join) = (c.nodes join).map (Node.map f) := by
  simp only [nodes, List.map_append, List.map_map]
  congr 1
  exact List.map_congr_left fun p _ => c.copyNode_map f p

theorem GroupChart.names_map (f : ρ → τ) (c : GroupChart ρ) : (c.map f).names = c.names.map f := by
  simp only [names, map, List.flatMap_map, List.map_append, List.map_cons, List.map_flatMap,
    BranchChart.names_map, List.map_nil]

theorem GroupChart.fanOutNode_map (f : ρ → τ) (c : GroupChart ρ) :
    (c.map f).fanOutNode = c.fanOutNode.map f := by
  obtain ⟨join, branches, fanOut⟩ := c
  cases branches with
  | nil => rfl
  | cons b bs =>
    simp [fanOutNode, fanOutWires, map, Node.map, Node.function, Kind.map, BranchChart.entry,
      BranchChart.map]

theorem GroupChart.nodes_map (f : ρ → τ) (c : GroupChart ρ) (next : ρ) :
    (c.map f).nodes (f next) = (c.nodes next).map (Node.map f) := by
  have htopics : (c.map f).topics = c.topics := by
    simp only [topics, map, List.map_map]
    rfl
  have hbranches : (c.map f).branches.flatMap (·.nodes (c.map f).join) =
      (c.branches.flatMap (·.nodes c.join)).map (Node.map f) := by
    simp only [map, List.flatMap_map, List.map_flatMap, BranchChart.nodes_map]
  simp only [nodes, hbranches, fanOutNode_map, joinNode, htopics, List.map_append, List.map_cons,
    List.map_nil]
  rfl

theorem chainHead_map (f : ρ → τ) (back : ρ) (gs : List (GroupChart ρ)) :
    chainHead (f back) (gs.map (.map f)) = f (chainHead back gs) := by
  cases gs <;> rfl

theorem chainNodes_map (f : ρ → τ) (back : ρ) (gs : List (GroupChart ρ)) :
    chainNodes (f back) (gs.map (.map f)) = (chainNodes back gs).map (Node.map f) := by
  induction gs with
  | nil => rfl
  | cons g gs ih =>
    simp only [List.map_cons, chainNodes, ih, chainHead_map, GroupChart.nodes_map, List.map_append]

theorem StepChart.names_map (f : ρ → τ) (c : StepChart ρ) : (c.map f).names = c.names.map f := by
  simp only [names, map, ← List.map_reverse, List.flatMap_map, List.map_append, List.map_flatMap,
    GroupChart.names_map, List.map_cons, List.map_nil]

theorem StepChart.nodes_map (f : ρ → τ) (c : StepChart ρ) (back : ρ) :
    (c.map f).nodes (f back) = (c.nodes back).map (Node.map f) := by
  simp only [nodes, entryNode, map, chainNodes_map, chainHead_map, List.map_append, List.map_cons,
    List.map_nil]
  rfl

theorem ActivityChart.names_map (f : ρ → τ) (c : ActivityChart ρ) :
    (c.map f).names = c.names.map f := by
  simp only [names, map, List.flatMap_map, List.map_append, List.map_cons, List.map_flatMap,
    StepChart.names_map, List.map_nil]

/-- Switches are renamed target by target. -/
theorem selector_map (f : ρ → τ) (id : ρ) (property name : String) (targets : List ρ) :
    (Node.selector id property name targets).map f =
      .selector (f id) property name (targets.map f) := by
  simp [Node.selector, Node.map, Kind.map]

theorem ActivityChart.nodes_map (f : ρ → τ) (c : ActivityChart ρ) (respond : ρ) :
    (c.map f).nodes (f respond) = (c.nodes respond).map (Node.map f) := by
  simp only [nodes, switchNode, map, List.flatMap_map, List.map_append, List.map_cons,
    List.map_flatMap, StepChart.nodes_map, List.map_nil, selector_map, List.map_map]
  rfl

theorem FlowChart.names_map (f : ρ → τ) (c : FlowChart ρ) : (c.map f).names = c.names.map f := by
  simp only [names, map, List.flatMap_map, List.map_append, List.map_cons, List.map_flatMap,
    ActivityChart.names_map, List.map_nil]

theorem FlowChart.stepCounts_map (f : ρ → τ) (c : FlowChart ρ) : (c.map f).stepCounts = c.stepCounts := by
  simp [stepCounts, map, ActivityChart.map]

/-- The nodes of a chart under other names are its nodes, renamed. -/
theorem FlowChart.nodes_map (f : ρ → τ) (c : FlowChart ρ) (route method : String) :
    (c.map f).nodes route method = (c.nodes route method).map (Node.map f) := by
  have hswitch : (c.map f).switchNode = c.switchNode.map f := by
    simp only [switchNode, map, selector_map, List.map_append, List.map_map, List.map_cons,
      List.map_nil]
    rfl
  simp only [nodes, hswitch, finishedNode, counterNode, stepCounts_map, List.map_append, List.map_cons,
    List.map_nil, List.map_flatMap, ← ActivityChart.nodes_map]
  simp only [map, List.flatMap_map]
  rfl

/-! ## The names of the nodes -/

theorem BranchChart.copyNode_id (c : BranchChart ρ) (p : Part) : (c.copyNode p).id = c.rename p.id := by
  unfold copyNode
  split <;> rfl

theorem BranchChart.ids_copies (c : BranchChart ρ) :
    (c.fragment.parts.map c.copyNode).map (·.id) = c.copy := by
  simp only [copy, List.map_map]
  exact List.map_congr_left fun p _ => c.copyNode_id p

theorem BranchChart.ids_nodes (c : BranchChart ρ) (join : ρ) : (c.nodes join).map (·.id) = c.names := by
  simp only [nodes, List.map_append, ids_copies, names]
  rfl

theorem GroupChart.ids_nodes (c : GroupChart ρ) (next : ρ) : (c.nodes next).map (·.id) = c.names := by
  simp only [nodes, List.map_append, List.map_cons, List.map_flatMap, BranchChart.ids_nodes, names]
  rfl

theorem ids_chainNodes (back : ρ) (gs : List (GroupChart ρ)) :
    (chainNodes back gs).map (·.id) = gs.reverse.flatMap GroupChart.names := by
  induction gs with
  | nil => rfl
  | cons g gs ih => simp [chainNodes, ih, GroupChart.ids_nodes]

theorem StepChart.ids_nodes (c : StepChart ρ) (back : ρ) : (c.nodes back).map (·.id) = c.names := by
  simp only [nodes, List.map_append, ids_chainNodes, names]
  rfl

theorem ActivityChart.ids_nodes (c : ActivityChart ρ) (respond : ρ) :
    (c.nodes respond).map (·.id) = c.names := by
  simp only [nodes, List.map_append, List.map_cons, List.map_flatMap, StepChart.ids_nodes, names]
  rfl

theorem FlowChart.ids_nodes (c : FlowChart ρ) (route method : String) :
    (c.nodes route method).map (·.id) = c.names := by
  simp only [nodes, List.map_append, List.map_cons, List.map_flatMap, ActivityChart.ids_nodes, names]
  rfl

/-! ## Where wires end

Every part of a flow is wired to itself, but for the wires that lead on to what follows it. -/

theorem BranchChart.rename_mem_copy (c : BranchChart ρ) {s : RawText}
    (h : s ∈ Fragment.names c.fragment.parts) : c.rename s ∈ c.copy :=
  List.mem_map_of_mem h

theorem BranchChart.entry_mem_copy (c : BranchChart ρ) : c.entry ∈ c.copy :=
  c.rename_mem_copy c.fragment.entry_mem

/-- The wires of a fragment stay inside its copy. -/
theorem BranchChart.plainCopy_targets (c : BranchChart ρ) {p : Part} (hp : p ∈ c.fragment.parts) :
    ∀ t ∈ (c.plainCopy p).targets, t ∈ c.copy := by
  intro t ht
  obtain ⟨port, hport, ht⟩ := List.mem_flatten.1 ht
  obtain ⟨named, hnamed, rfl⟩ := List.mem_map.1 hport
  obtain ⟨s, hs, rfl⟩ := List.mem_map.1 ht
  exact c.rename_mem_copy (c.fragment.closed p hp named hnamed s hs)

theorem BranchChart.exitCopy_targets (c : BranchChart ρ) (p : Part) :
    ∀ t ∈ (c.exitCopy p).targets, t ∈ (c.plainCopy p).targets ∨ t = c.mark := by
  intro t ht
  unfold exitCopy Node.targets at ht
  unfold Node.targets
  cases hw : (c.plainCopy p).wires with
  | nil => simp [hw] at ht; exact Or.inr ht
  | cons port ports =>
    simp [hw] at ht
    simp only [List.flatten_cons, List.mem_append, List.mem_flatten]
    rcases ht with h | h | h
    · exact Or.inl (Or.inl h)
    · exact Or.inr h
    · exact Or.inl (Or.inr h)

theorem BranchChart.copyNode_targets (c : BranchChart ρ) {p : Part} (hp : p ∈ c.fragment.parts) :
    ∀ t ∈ (c.copyNode p).targets, t ∈ c.copy ∨ t = c.mark := by
  intro t ht
  unfold copyNode at ht
  split at ht
  · exact (c.exitCopy_targets p t ht).imp (c.plainCopy_targets hp t) id
  · exact Or.inl (c.plainCopy_targets hp t ht)

theorem BranchChart.nodes_targets (c : BranchChart ρ) (join : ρ) :
    ∀ n ∈ c.nodes join, ∀ t ∈ n.targets, t ∈ c.names ∨ t = join := by
  intro n hn t ht
  unfold nodes at hn
  rcases List.mem_append.1 hn with hn | hn
  · obtain ⟨p, hp, rfl⟩ := List.mem_map.1 hn
    left
    unfold names
    rw [List.mem_append, List.mem_singleton]
    exact c.copyNode_targets hp t ht
  · rw [List.mem_singleton.1 hn] at ht
    exact Or.inr (List.mem_singleton.1 ht)

theorem GroupChart.fanOutNode_targets (c : GroupChart ρ) :
    ∀ t ∈ c.fanOutNode.targets, t = c.join ∨ ∃ b ∈ c.branches, t = b.entry := by
  intro t ht
  change t ∈ c.fanOutWires.flatten at ht
  unfold fanOutWires at ht
  split at ht
  · exact Or.inl (by simpa using ht)
  · right
    obtain ⟨port, hport, ht⟩ := List.mem_flatten.1 ht
    obtain ⟨b, hb, rfl⟩ := List.mem_map.1 hport
    exact ⟨b, hb, List.mem_singleton.1 ht⟩

theorem GroupChart.branch_names_subset (c : GroupChart ρ) {b : BranchChart ρ} (hb : b ∈ c.branches) :
    ∀ t ∈ b.names, t ∈ c.names := by
  intro t ht
  unfold names
  exact List.mem_append_left _ (List.mem_cons_of_mem _ (List.mem_flatMap.2 ⟨b, hb, ht⟩))

theorem GroupChart.join_mem_names (c : GroupChart ρ) : c.join ∈ c.names := by simp [names]

theorem GroupChart.fanOut_mem_names (c : GroupChart ρ) : c.fanOut ∈ c.names := by simp [names]

theorem GroupChart.nodes_targets (c : GroupChart ρ) (next : ρ) :
    ∀ n ∈ c.nodes next, ∀ t ∈ n.targets, t ∈ c.names ∨ t = next := by
  intro n hn t ht
  simp only [nodes, List.cons_append, List.mem_cons, List.mem_append, List.mem_flatMap,
    List.not_mem_nil, or_false] at hn
  rcases hn with rfl | ⟨b, hb, hn⟩ | rfl
  · exact Or.inr (List.mem_singleton.1 ht)
  · left
    rcases b.nodes_targets c.join n hn t ht with h | rfl
    · exact c.branch_names_subset hb t h
    · exact c.join_mem_names
  · left
    rcases c.fanOutNode_targets t ht with rfl | ⟨b, hb, rfl⟩
    · exact c.join_mem_names
    · exact c.branch_names_subset hb _ (List.mem_append_left _ b.entry_mem_copy)

theorem chainHead_mem (back : ρ) (gs : List (GroupChart ρ)) :
    chainHead back gs ∈ gs.flatMap GroupChart.names ∨ chainHead back gs = back := by
  cases gs with
  | nil => exact Or.inr rfl
  | cons g gs => exact Or.inl (List.mem_flatMap.2 ⟨g, List.mem_cons_self .., g.fanOut_mem_names⟩)

theorem chainNodes_targets (back : ρ) (gs : List (GroupChart ρ)) :
    ∀ n ∈ chainNodes back gs, ∀ t ∈ n.targets, t ∈ gs.flatMap GroupChart.names ∨ t = back := by
  induction gs with
  | nil => intro n hn; cases hn
  | cons g gs ih =>
    intro n hn t ht
    have hsub : t ∈ gs.flatMap GroupChart.names ∨ t = back →
        t ∈ (g :: gs).flatMap GroupChart.names ∨ t = back := by
      rw [List.flatMap_cons, List.mem_append]
      tauto
    rcases List.mem_append.1 hn with hn | hn
    · exact hsub (ih n hn t ht)
    · rcases g.nodes_targets _ n hn t ht with h | rfl
      · exact Or.inl (List.mem_flatMap.2 ⟨g, List.mem_cons_self .., h⟩)
      · exact hsub (chainHead_mem back gs)

theorem StepChart.group_names_subset (c : StepChart ρ) :
    ∀ t ∈ c.groups.flatMap GroupChart.names, t ∈ c.names := by
  intro t ht
  obtain ⟨g, hg, ht⟩ := List.mem_flatMap.1 ht
  exact List.mem_append_left _ (List.mem_flatMap.2 ⟨g, List.mem_reverse.2 hg, ht⟩)

theorem StepChart.entry_mem_names (c : StepChart ρ) : c.entry ∈ c.names := by simp [names]

theorem StepChart.nodes_targets (c : StepChart ρ) (back : ρ) :
    ∀ n ∈ c.nodes back, ∀ t ∈ n.targets, t ∈ c.names ∨ t = back := by
  intro n hn t ht
  rcases List.mem_append.1 hn with hn | hn
  · exact (chainNodes_targets back c.groups n hn t ht).imp (c.group_names_subset t) id
  · rw [List.mem_singleton.1 hn] at ht
    rw [show t = chainHead back c.groups from List.mem_singleton.1 ht]
    exact (chainHead_mem back c.groups).imp (c.group_names_subset _) id

theorem ActivityChart.step_names_subset (c : ActivityChart ρ) {s : StepChart ρ} (hs : s ∈ c.steps) :
    ∀ t ∈ s.names, t ∈ c.names := by
  intro t ht
  exact List.mem_append_left _ (List.mem_cons_of_mem _ (List.mem_flatMap.2 ⟨s, hs, ht⟩))

theorem ActivityChart.back_mem_names (c : ActivityChart ρ) : c.back ∈ c.names := by simp [names]

theorem ActivityChart.switch_mem_names (c : ActivityChart ρ) : c.switch ∈ c.names := by simp [names]

theorem selector_targets (id : ρ) (property name : String) (targets : List ρ) :
    (Node.selector id property name targets).targets = targets := by
  simp [Node.selector, Node.targets, ← List.flatMap_def]

theorem ActivityChart.nodes_targets (c : ActivityChart ρ) (respond : ρ) :
    ∀ n ∈ c.nodes respond, ∀ t ∈ n.targets, t ∈ c.names ∨ t = respond := by
  intro n hn t ht
  simp only [nodes, List.cons_append, List.mem_cons, List.mem_append, List.mem_flatMap,
    List.not_mem_nil, or_false] at hn
  rcases hn with rfl | ⟨s, hs, hn⟩ | rfl
  · exact Or.inr (List.mem_singleton.1 ht)
  · left
    rcases s.nodes_targets c.back n hn t ht with h | rfl
    · exact c.step_names_subset hs t h
    · exact c.back_mem_names
  · left
    rw [switchNode, selector_targets] at ht
    obtain ⟨s, hs, rfl⟩ := List.mem_map.1 ht
    exact c.step_names_subset hs _ s.entry_mem_names

theorem FlowChart.activity_names_subset (c : FlowChart ρ) {a : ActivityChart ρ}
    (ha : a ∈ c.activities) : ∀ t ∈ a.names, t ∈ c.names := by
  intro t ht
  simp only [names, List.cons_append, List.mem_cons, List.mem_append]
  exact Or.inr (Or.inr (Or.inl (List.mem_flatMap.2 ⟨a, ha, ht⟩)))

/-- Every wire of a flow ends at a node of the flow. -/
theorem FlowChart.nodes_targets (c : FlowChart ρ) (route method : String) :
    ∀ n ∈ c.nodes route method, ∀ t ∈ n.targets, t ∈ c.names := by
  intro n hn t ht
  simp only [nodes, List.cons_append, List.mem_cons, List.mem_append, List.mem_flatMap,
    List.not_mem_nil, or_false] at hn
  have hfixed : t = c.answer ∨ t = c.respond ∨ t = c.finished ∨ t = c.switch ∨ t = c.counter →
      t ∈ c.names := by
    simp only [names, List.cons_append, List.mem_cons, List.mem_append]
    tauto
  rcases hn with rfl | rfl | ⟨a, ha, hn⟩ | rfl | rfl | rfl | rfl
  · cases ht
  · exact hfixed (Or.inl (List.mem_singleton.1 ht))
  · rcases a.nodes_targets c.respond n hn t ht with h | rfl
    · exact c.activity_names_subset ha t h
    · exact hfixed (Or.inr (Or.inl rfl))
  · exact hfixed (Or.inl (List.mem_singleton.1 ht))
  · rw [switchNode, selector_targets, List.mem_append, List.mem_singleton] at ht
    rcases ht with ht | rfl
    · obtain ⟨a, ha, rfl⟩ := List.mem_map.1 ht
      exact c.activity_names_subset ha _ a.switch_mem_names
    · exact hfixed (Or.inr (Or.inr (Or.inl rfl)))
  · exact hfixed (Or.inr (Or.inr (Or.inr (Or.inl (List.mem_singleton.1 ht)))))
  · exact hfixed (Or.inr (Or.inr (Or.inr (Or.inr (List.mem_singleton.1 ht)))))

end SlideFlow.Compile
