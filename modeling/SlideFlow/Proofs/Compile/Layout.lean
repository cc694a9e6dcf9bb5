/-
The chart of a layout. A plan that is laid out from a position on has a chart in which every name
is a position (`flowChart`): its nodes are the layout (`layout_eq`), and its names, in the order of
construction, are the positions one after the other (`names_flowChart`). So layouts are placed: each
node stands at the position that is its name, and wires end inside the layout.
-/
import SlideFlow.Proofs.Compile.Chart

namespace SlideFlow.Compile

open SlideFlow.Flow SlideFlow.Fragment SlideFlow.Text

/-! ## Rows of parts

Branches, groups, steps and activities are laid out in the same way, each behind the one before. -/

section Row

variable {α β γ : Type} {size : α → Nat} {chart : Nat → α → β}

/-- The charts of parts that are laid out one after the other from a position on. -/
def rowCharts (size : α → Nat) (chart : Nat → α → β) : Nat → List α → List β
  | _, [] => []
  | base, x :: rest => chart base x :: rowCharts size chart (base + size x) rest

theorem length_rowCharts : ∀ (base : Nat) (xs : List α),
    (rowCharts size chart base xs).length = xs.length
  | _, [] => rfl
  | base, x :: rest => by
    rw [rowCharts, List.length_cons, length_rowCharts, List.length_cons]

/-- What does not depend on the position can be read off the parts. -/
theorem map_rowCharts {f : β → γ} {g : α → γ} (h : ∀ base x, f (chart base x) = g x) :
    ∀ (base : Nat) (xs : List α), (rowCharts size chart base xs).map f = xs.map g
  | _, [] => rfl
  | base, x :: rest => by
    rw [rowCharts, List.map_cons, h, map_rowCharts h, List.map_cons]

/-- Parts whose names are positions stand next to each other. -/
theorem names_rowCharts {names : β → List Nat}
    (h : ∀ base x, names (chart base x) = List.range' base (size x)) :
    ∀ (base : Nat) (xs : List α),
      (rowCharts size chart base xs).flatMap names = List.range' base (rowSize size xs)
  | _, [] => rfl
  | base, x :: rest => by
    rw [rowCharts, List.flatMap_cons, h, names_rowCharts h, rowSize, List.range'_append_1]

/-- What is built part by part is what the charts of the parts say. -/
theorem eq_flatMap_rowCharts {built : Nat → List α → List γ} {f : β → List γ}
    (hnil : ∀ base, built base [] = [])
    (hcons : ∀ base x rest,
      built base (x :: rest) = f (chart base x) ++ built (base + size x) rest) :
    ∀ (base : Nat) (xs : List α), built base xs = (rowCharts size chart base xs).flatMap f
  | base, [] => hnil base
  | base, x :: rest => by
    rw [hcons, rowCharts, List.flatMap_cons, eq_flatMap_rowCharts hnil hcons]

end Row

/-! ## Branches -/

/-- The chart of a branch that is laid out from a position on. -/
def BranchPlan.chart (base : Nat) (b : BranchPlan) : BranchChart Nat where
  topic := b.topic
  fragment := b.fragment
  rename := fun s => base + (names b.fragment.parts).idxOf s
  mark := base + b.fragment.size

/-- Different names stand at consecutive positions. -/
theorem map_idxOf_add {l : List RawText} (h : l.Nodup) (base : Nat) :
    l.map (fun s => base + l.idxOf s) = List.range' base l.length := by
  apply List.ext_getElem
  · simp
  · intro i h₁ h₂
    simp only [List.getElem_map, List.getElem_range', Nat.one_mul]
    rw [h.idxOf_getElem i]

theorem BranchPlan.names_chart (base : Nat) (b : BranchPlan) :
    (b.chart base).names = List.range' base b.size := by
  have hcopy : (b.chart base).copy = List.range' base b.fragment.size := by
    rw [Fragment.size, ← List.length_map (f := Part.id)]
    exact map_idxOf_add b.fragment.nodup base
  rw [BranchChart.names, hcopy, BranchPlan.size, List.range'_1_concat]
  rfl

theorem attach_zero {ρ : Type} (target : ρ) (ports : List (List ρ)) :
    Node.attach target 0 ports = (ports.headD [] ++ [target]) :: ports.tail := by
  cases ports <;> rfl

/-- The copy of a node of the fragment, laid out with the branch. -/
theorem BranchPlan.copyNode_chart (base : Nat) (b : BranchPlan) {i : Nat} {p : Part}
    (hp : b.fragment.parts[i]? = some p) :
    (b.chart base).copyNode p =
      let placed := (copyOf (names b.fragment.parts) p).map (base + ·)
      if i = b.fragment.exitIndex then placed.connect 0 (base + b.fragment.size) else placed := by
  have hplain : (b.chart base).plainCopy p = (copyOf (names b.fragment.parts) p).map (base + ·) :=
    (copyAs_map (names b.fragment.parts) (names b.fragment.parts).idxOf (base + ·) p).symm
  -- names are different, so the exit is the only node that stands where it does
  have hexit : p.id = b.fragment.exit ↔ i = b.fragment.exitIndex := by
    have hname : (names b.fragment.parts)[i]? = some p.id := by simp [hp]
    obtain ⟨hlt, hget⟩ := List.getElem?_eq_some_iff.1 hname
    unfold exitIndex
    constructor
    · intro h
      rw [← h, ← hget, b.fragment.nodup.idxOf_getElem i]
    · rintro rfl
      rw [← hget, List.getElem_idxOf]
  unfold BranchChart.copyNode
  show (if p.id = b.fragment.exit then _ else _) = _
  simp only [hexit]
  split
  · unfold BranchChart.exitCopy Node.connect
    rw [hplain, attach_zero]
    rfl
  · exact hplain

theorem BranchPlan.nodes_eq (joinAt base : Nat) (b : BranchPlan) :
    b.nodes joinAt base = (b.chart base).nodes joinAt := by
  have hcopies : b.copies base = b.fragment.parts.map (b.chart base).copyNode := by
    apply List.ext_getElem?
    intro i
    simp only [copies, Fragment.copies, List.getElem?_mapIdx, List.getElem?_map, Option.map_map]
    cases hp : b.fragment.parts[i]? with
    | none => rfl
    | some p => simp [b.copyNode_chart base hp]
  rw [nodes, hcopies]
  rfl

/-! ## Groups -/

/-- The charts of the branches of a group. -/
def GroupPlan.branchCharts (base : Nat) (g : GroupPlan) : List (BranchChart Nat) :=
  rowCharts BranchPlan.size BranchPlan.chart base g

def GroupPlan.chart (base : Nat) (g : GroupPlan) : GroupChart Nat where
  join := base
  branches := g.branchCharts (base + 1)
  fanOut := g.entry base

namespace GroupPlan

theorem branchNodes_eq (joinAt base : Nat) (g : GroupPlan) :
    g.branchNodes joinAt base = (g.branchCharts base).flatMap (·.nodes joinAt) := by
  refine eq_flatMap_rowCharts (fun _ => rfl) (fun base b rest => ?_) base g
  rw [branchNodes, BranchPlan.nodes_eq]

theorem branchEntries_eq (base : Nat) (g : GroupPlan) :
    g.branchEntries base = (g.branchCharts base).map (·.entry) := by
  rw [List.map_eq_flatMap]
  exact eq_flatMap_rowCharts (fun _ => rfl) (fun _ _ _ => rfl) base g

theorem topics_branchCharts (base : Nat) (g : GroupPlan) :
    (g.branchCharts base).map (·.topic) = g.topics := by
  refine map_rowCharts (fun base b => ?_) base g
  rfl

theorem fanOutWires_eq (base : Nat) (g : GroupPlan) :
    fanOutWires base (g.branchEntries (base + 1)) = (g.chart base).fanOutWires := by
  simp only [branchEntries_eq, GroupChart.fanOutWires, chart]
  cases g.branchCharts (base + 1) with
  | nil => rfl
  | cons b bs => simp [fanOutWires]

theorem nodes_eq (next base : Nat) (g : GroupPlan) : g.nodes next base = (g.chart base).nodes next := by
  have hlength : (g.branchCharts (base + 1)).length = g.length := length_rowCharts (base + 1) g
  simp only [nodes, branchNodes_eq, fanOutWires_eq, GroupChart.nodes, GroupChart.joinNode,
    GroupChart.fanOutNode, GroupChart.topics]
  simp only [chart, topics_branchCharts, hlength]

theorem names_chart (base : Nat) (g : GroupPlan) : (g.chart base).names = List.range' base g.size := by
  have hbranches : (g.branchCharts (base + 1)).flatMap BranchChart.names =
      List.range' (base + 1) g.branchesSize := names_rowCharts BranchPlan.names_chart (base + 1) g
  simp only [GroupChart.names, chart, hbranches, size, entry]
  rw [List.range'_succ, List.range'_1_concat, List.cons_append]
  congr 3
  omega

end GroupPlan

/-! ## Steps

A plan lists the groups of a step as they are laid out, the last one first. -/

/-- The charts of groups in the order of the layout. -/
def StepPlan.groupCharts (base : Nat) (s : StepPlan) : List (GroupChart Nat) :=
  rowCharts GroupPlan.size GroupPlan.chart base s

def StepPlan.chart (base : Nat) (s : StepPlan) : StepChart Nat where
  groups := (s.groupCharts base).reverse
  entry := s.entry base

/-- The end of a chain: its last group leads on to where the chain leads. -/
theorem chainHead_concat {ρ : Type} (back : ρ) (gs : List (GroupChart ρ)) (g : GroupChart ρ) :
    chainHead back (gs ++ [g]) = chainHead g.fanOut gs := by
  cases gs <;> rfl

theorem chainNodes_concat {ρ : Type} (back : ρ) (gs : List (GroupChart ρ)) (g : GroupChart ρ) :
    chainNodes back (gs ++ [g]) = g.nodes back ++ chainNodes g.fanOut gs := by
  induction gs with
  | nil => simp [chainNodes, chainHead]
  | cons h gs ih => simp only [List.cons_append, chainNodes, ih, chainHead_concat, List.append_assoc]

namespace StepPlan

theorem groupNodes_eq : ∀ (next base : Nat) (s : StepPlan),
    s.groupNodes next base = chainNodes next (s.groupCharts base).reverse
  | _, _, [] => rfl
  | next, base, g :: rest => by
    rw [groupNodes, groupCharts, rowCharts, List.reverse_cons, chainNodes_concat, GroupPlan.nodes_eq,
      groupNodes_eq (g.entry base)]
    rfl

theorem chainEntry_eq : ∀ (next base : Nat) (s : StepPlan),
    s.chainEntry next base = chainHead next (s.groupCharts base).reverse
  | _, _, [] => rfl
  | next, base, g :: rest => by
    rw [chainEntry, groupCharts, rowCharts, List.reverse_cons, chainHead_concat, chainEntry_eq (g.entry base)]
    rfl

theorem nodes_eq (next base : Nat) (s : StepPlan) : s.nodes next base = (s.chart base).nodes next := by
  rw [nodes, groupNodes_eq, chainEntry_eq]
  rfl

theorem names_chart (base : Nat) (s : StepPlan) : (s.chart base).names = List.range' base s.size := by
  have hgroups : (s.groupCharts base).flatMap GroupChart.names = List.range' base s.groupsSize :=
    names_rowCharts GroupPlan.names_chart base s
  rw [StepChart.names, chart, List.reverse_reverse, hgroups, size, List.range'_1_concat]
  rfl

end StepPlan

/-! ## Activities -/

/-- The charts of the steps of an activity. -/
def ActivityPlan.stepCharts (base : Nat) (steps : List StepPlan) : List (StepChart Nat) :=
  rowCharts StepPlan.size StepPlan.chart base steps

def ActivityPlan.chart (base : Nat) (a : ActivityPlan) : ActivityChart Nat where
  index := a.index
  back := base
  steps := stepCharts (base + 1) a.steps
  switch := a.entry base

namespace ActivityPlan

theorem stepNodes_eq (next base : Nat) (steps : List StepPlan) :
    stepNodes next base steps = (stepCharts base steps).flatMap (·.nodes next) := by
  refine eq_flatMap_rowCharts (fun _ => rfl) (fun base s rest => ?_) base steps
  rw [stepNodes, StepPlan.nodes_eq]

theorem stepEntries_eq (base : Nat) (steps : List StepPlan) :
    stepEntries base steps = (stepCharts base steps).map (·.entry) := by
  rw [List.map_eq_flatMap]
  exact eq_flatMap_rowCharts (fun _ => rfl) (fun _ _ _ => rfl) base steps

theorem nodes_eq (respond base : Nat) (a : ActivityPlan) :
    a.nodes respond base = (a.chart base).nodes respond := by
  simp only [nodes, stepNodes_eq, stepEntries_eq]
  rfl

theorem names_chart (base : Nat) (a : ActivityPlan) :
    (a.chart base).names = List.range' base a.size := by
  have hsteps : (stepCharts (base + 1) a.steps).flatMap StepChart.names =
      List.range' (base + 1) a.stepsSize := names_rowCharts StepPlan.names_chart (base + 1) a.steps
  simp only [ActivityChart.names, chart, hsteps, size, entry]
  rw [List.range'_succ, List.range'_1_concat, List.cons_append]
  congr 3
  omega

end ActivityPlan

/-! ## Flows -/

/-- The charts of the activities of a flow. -/
def activityCharts (base : Nat) (plan : List ActivityPlan) : List (ActivityChart Nat) :=
  rowCharts ActivityPlan.size ActivityPlan.chart base plan

/-- The chart of the layout of a plan. -/
def flowChart (plan : List ActivityPlan) : FlowChart Nat where
  answer := 0
  respond := 1
  activities := activityCharts 2 plan
  finished := 2 + activitiesSize plan
  switch := 2 + activitiesSize plan + 1
  counter := 2 + activitiesSize plan + 2
  request := 2 + activitiesSize plan + 3

theorem activityNodes_eq (respond base : Nat) (plan : List ActivityPlan) :
    activityNodes respond base plan = (activityCharts base plan).flatMap (·.nodes respond) := by
  refine eq_flatMap_rowCharts (fun _ => rfl) (fun base a rest => ?_) base plan
  rw [activityNodes, ActivityPlan.nodes_eq]

theorem activityEntries_eq (base : Nat) (plan : List ActivityPlan) :
    activityEntries base plan = (activityCharts base plan).map (·.switch) := by
  rw [List.map_eq_flatMap]
  exact eq_flatMap_rowCharts (fun _ => rfl) (fun _ _ _ => rfl) base plan

theorem stepCounts_flowChart (plan : List ActivityPlan) :
    (flowChart plan).stepCounts = stepCounts plan := by
  refine map_rowCharts (fun base a => ?_) 2 plan
  rw [ActivityPlan.chart, ActivityPlan.stepCharts, length_rowCharts]

/-- A layout holds the nodes of its chart. -/
theorem layout_eq (route method : String) (plan : List ActivityPlan) :
    layout route method plan = (flowChart plan).nodes route method := by
  simp only [layout, headNodes, activityNodes_eq, activityEntries_eq, FlowChart.nodes,
    FlowChart.finishedNode, FlowChart.counterNode, stepCounts_flowChart]
  rfl

/-- The names of a layout are its positions, in the order of construction. -/
theorem names_flowChart (plan : List ActivityPlan) :
    (flowChart plan).names = List.range (activitiesSize plan + 6) := by
  have hactivities : (activityCharts 2 plan).flatMap ActivityChart.names =
      List.range' 2 (activitiesSize plan) := names_rowCharts ActivityPlan.names_chart 2 plan
  rw [List.range_eq_range']
  simp only [FlowChart.names, flowChart, hactivities]
  -- two nodes stand in front of the activities and four behind them
  rw [show activitiesSize plan + 6 = 2 + activitiesSize plan + 4 by omega, ← List.range'_append_1,
    ← List.range'_append_1]
  simp [List.range'_succ]

theorem length_layout (route method : String) (plan : List ActivityPlan) :
    (layout route method plan).length = activitiesSize plan + 6 := by
  have := congrArg List.length ((flowChart plan).ids_nodes route method)
  rw [names_flowChart, List.length_map, List.length_range, ← layout_eq] at this
  exact this

/-- Nodes of a layout stand where their names say, and its wires stay inside. -/
theorem layout_placed (route method : String) (plan : List ActivityPlan) :
    Placed (layout route method plan) := by
  refine ⟨?_, ?_⟩
  · rw [length_layout, layout_eq, FlowChart.ids_nodes, names_flowChart]
  · intro n hn t ht
    rw [layout_eq] at hn
    have := (flowChart plan).nodes_targets route method n hn t ht
    rw [names_flowChart, List.mem_range] at this
    rwa [length_layout]

end SlideFlow.Compile
