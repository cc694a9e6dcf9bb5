/-
How compiled flows are wired. `FlowChart.Charts` says that a chart is a chart of the flow of some
activities: its names are the identifiers of the nodes, each once, and every node that it names is
there, with the wires that the activities ask for. Every flow that compiles has such a chart
(`compile_charts`); in particular every step compiles to a chain of its groups
(`steps_compile_to_chains`).
-/
import SlideFlow.Proofs.Compile.Outcome
import SlideFlow.Proofs.Flow.Written

namespace SlideFlow.Flow.Node

variable {ρ : Type}

/-! ## Kinds of nodes -/

def isJoin (n : Node ρ) : Bool :=
  match n.kind with
  | .join _ _ => true
  | _ => false

def isFanOut (n : Node ρ) : Bool :=
  match n.kind with
  | .function _ => n.name = "fan out"
  | _ => false

end SlideFlow.Flow.Node

namespace SlideFlow.Compile

open SlideFlow.Deck SlideFlow.Files SlideFlow.Flow SlideFlow.Fragment SlideFlow.Ident
open SlideFlow.Service SlideFlow.Timeline

variable {ρ τ : Type}

/-! ## What a chart has to say -/

/-- The branch of an animation: a copy of its fragment under names of its own, whose exit leads on
to the mark behind the targets it had, and the mark, which leads to the join and nowhere else. -/
structure BranchChart.Wired (lib : Library) (nodes : List (Node ρ)) (join : ρ) (b : Branch)
    (c : BranchChart ρ) : Prop where
  fragment : lib.load b = .ok c.fragment
  copies : ∀ p ∈ c.fragment.parts, p.id ≠ c.fragment.exit →
    copyAs (Fragment.names c.fragment.parts) c.rename p ∈ nodes
  exit : ∀ p ∈ c.fragment.parts, p.id = c.fragment.exit →
    let ports := p.wires.map (List.map c.rename)
    { copyAs (Fragment.names c.fragment.parts) c.rename p with
      wires := (ports.headD [] ++ [c.mark]) :: ports.tail } ∈ nodes
  mark : .function c.mark (Script.topic b.service) s!"topic {b.service}" [[join]] ∈ nodes

/-- A group: one branch for each animation whose shape stands for a service, in order; a join that
waits for their topics and leads on to the next node; a fan-out with one port for each branch. -/
structure GroupChart.Wired (lib : Library) (nodes : List (Node ρ)) (bindings : Bindings)
    (fixed : Option Role) (next : ρ) (g : Group) (c : GroupChart ρ) : Prop where
  branches : List.Forall₂ (BranchChart.Wired lib nodes c.join) (Compile.branches bindings fixed g)
    c.branches
  join : let topics := (Compile.branches bindings fixed g).map (·.service)
    .join c.join (Script.join topics) topics "join" next ∈ nodes
  fanOut : .function c.fanOut (Script.fanOut c.branches.length) "fan out" c.fanOutWires ∈ nodes

/-- A step: its entry leads to its first group, each group to the one behind it, and the last one to
the return of the activity. -/
structure StepChart.Wired (lib : Library) (nodes : List (Node ρ)) (bindings : Bindings) (back : ρ)
    (step : Step) (c : StepChart ρ) : Prop where
  entry : .function c.entry Script.passThrough "step" [[chainHead back c.groups]] ∈ nodes
  length : c.groups.length = step.length
  groups : ∀ (m : Nat) (g : Group) (gc : GroupChart ρ), step[m]? = some g → c.groups[m]? = some gc →
    gc.Wired lib nodes bindings (lib.policy.stepRole step)
      (chainHead back (c.groups.drop (m + 1))) g

/-- An activity: its switch sends the numbers of its steps to their entries. -/
structure ActivityChart.Wired (lib : Library) (nodes : List (Node ρ)) (respond : ρ) (a : Activity)
    (c : ActivityChart ρ) : Prop where
  back : .function c.back Script.passThrough s!"activity {a.index} return" [[respond]] ∈ nodes
  steps : ∃ steps, a.steps.result = .ok steps ∧
    List.Forall₂ (StepChart.Wired lib nodes a.bindings c.back) steps c.steps
  switch : .selector c.switch "execution.step" s!"activity {a.index} step"
    (c.steps.map (·.entry)) ∈ nodes

/-- The groups of a flow in the order of construction. -/
def FlowChart.groups (c : FlowChart ρ) : List (GroupChart ρ) :=
  c.activities.flatMap fun a => a.steps.flatMap fun s => s.groups.reverse

/-- A chart of the flow of some activities. -/
structure FlowChart.Charts (c : FlowChart ρ) (options : Options) (files : Tree)
    (activities : List Activity) (nodes : List (Node ρ)) : Prop where
  names : nodes.map (·.id) = c.names
  nodup : c.names.Nodup
  joins : (nodes.filter Node.isJoin).map (·.id) = c.groups.map (·.join)
  fanOuts : (nodes.filter Node.isFanOut).map (·.id) = c.groups.map (·.fanOut)
  copies : (nodes.filter Node.isCopy).map (·.id) =
    c.groups.flatMap fun g => g.branches.flatMap (·.copy)
  activities : List.Forall₂ (ActivityChart.Wired (options.library files) nodes c.respond) activities
    c.activities
  answer : .httpResponse c.answer ∈ nodes
  respond : c.respondNode ∈ nodes
  finished : c.finishedNode ∈ nodes
  switch : c.switchNode ∈ nodes
  counter : c.counterNode ∈ nodes
  request : .httpIn c.request options.route options.method c.counter ∈ nodes

/-! ## The plan of a chart -/

def BranchChart.plan (c : BranchChart ρ) : BranchPlan := { topic := c.topic, fragment := c.fragment }

def GroupChart.plan (c : GroupChart ρ) : GroupPlan := c.branches.map (·.plan)

def StepChart.plan (c : StepChart ρ) : StepPlan := c.groups.reverse.map (·.plan)

def ActivityChart.plan (c : ActivityChart ρ) : ActivityPlan where
  index := c.index
  steps := c.steps.map (·.plan)

def FlowChart.plan (c : FlowChart ρ) : List ActivityPlan := c.activities.map (·.plan)

theorem FlowChart.plan_map (f : ρ → τ) (c : FlowChart ρ) : (c.map f).plan = c.plan := by
  have hgroup : ∀ g : GroupChart ρ, (g.map f).plan = g.plan := by
    intro g
    simp only [GroupChart.plan, GroupChart.map, List.map_map]
    rfl
  have hstep : ∀ s : StepChart ρ, (s.map f).plan = s.plan := by
    intro s
    simp only [StepChart.plan, StepChart.map, ← List.map_reverse, List.map_map]
    exact List.map_congr_left fun g _ => hgroup g
  have hactivity : ∀ a : ActivityChart ρ, (a.map f).plan = a.plan := by
    intro a
    simp only [ActivityChart.plan, ActivityChart.map, List.map_map]
    congr 1
    exact List.map_congr_left fun s _ => hstep s
  simp only [plan, map, List.map_map]
  exact List.map_congr_left fun a _ => hactivity a

theorem GroupPlan.plan_chart (base : Nat) (g : GroupPlan) : (g.chart base).plan = g := by
  have hbranch : ∀ (base : Nat) (b : BranchPlan), (b.chart base).plan = id b := fun _ _ => rfl
  exact (map_rowCharts hbranch (base + 1) g).trans (List.map_id g)

theorem StepPlan.plan_chart (base : Nat) (s : StepPlan) : (s.chart base).plan = s := by
  unfold StepChart.plan StepPlan.chart
  rw [List.reverse_reverse]
  exact (map_rowCharts (g := id) GroupPlan.plan_chart base s).trans (List.map_id s)

theorem ActivityPlan.plan_chart (base : Nat) (a : ActivityPlan) : (a.chart base).plan = a := by
  have hsteps : (stepCharts (base + 1) a.steps).map (·.plan) = a.steps :=
    (map_rowCharts (g := id) StepPlan.plan_chart (base + 1) a.steps).trans (List.map_id a.steps)
  unfold ActivityChart.plan ActivityPlan.chart
  rw [hsteps]

/-- The chart of a layout is a chart of its plan. -/
theorem plan_flowChart (plan : List ActivityPlan) : (flowChart plan).plan = plan :=
  (map_rowCharts (g := id) ActivityPlan.plan_chart 2 plan).trans (List.map_id plan)

/-! ## Nodes of a chart of a plan -/

theorem GroupChart.branch_nodes_subset (c : GroupChart ρ) (next : ρ) {b : BranchChart ρ}
    (hb : b ∈ c.branches) : b.nodes c.join ⊆ c.nodes next := fun _ hn =>
  List.mem_append_left _ (List.mem_cons_of_mem _ (List.mem_flatMap.2 ⟨b, hb, hn⟩))

theorem ActivityChart.step_nodes_subset (c : ActivityChart ρ) (respond : ρ) {s : StepChart ρ}
    (hs : s ∈ c.steps) : s.nodes c.back ⊆ c.nodes respond := fun _ hn =>
  List.mem_append_left _ (List.mem_cons_of_mem _ (List.mem_flatMap.2 ⟨s, hs, hn⟩))

theorem FlowChart.activity_nodes_subset (c : FlowChart ρ) (route method : String)
    {a : ActivityChart ρ} (ha : a ∈ c.activities) : a.nodes c.respond ⊆ c.nodes route method :=
  fun _ hn => List.mem_append_left _ (List.mem_cons_of_mem _
    (List.mem_cons_of_mem _ (List.mem_flatMap.2 ⟨a, ha, hn⟩)))

theorem BranchChart.wired_of_planned {lib : Library} {nodes : List (Node ρ)} {join : ρ} {b : Branch}
    {c : BranchChart ρ} (hplan : BranchPlanned lib b c.plan) (hnodes : c.nodes join ⊆ nodes) :
    c.Wired lib nodes join b := by
  have htopic : c.topic = b.service := hplan.topic
  have hcopy : ∀ p ∈ c.fragment.parts, c.copyNode p ∈ nodes := fun p hp =>
    hnodes (List.mem_append_left _ (List.mem_map_of_mem hp))
  refine ⟨hplan.fragment, fun p hp hne => ?_, fun p hp he => ?_, ?_⟩
  · have := hcopy p hp
    rwa [copyNode, if_neg hne] at this
  · have := hcopy p hp
    rwa [copyNode, if_pos he] at this
  · have : c.markNode join ∈ nodes := hnodes (List.mem_append_right _ (List.mem_singleton_self _))
    rwa [markNode, htopic] at this

theorem GroupChart.wired_of_planned {lib : Library} {nodes : List (Node ρ)} {bindings : Bindings}
    {fixed : Option Role} {next : ρ} {g : Group} {c : GroupChart ρ}
    (hplan : GroupPlanned lib bindings fixed g c.plan) (hnodes : c.nodes next ⊆ nodes) :
    c.Wired lib nodes bindings fixed next g := by
  have hplan' : List.Forall₂ (fun b bc => BranchPlanned lib b bc.plan)
      (Compile.branches bindings fixed g) c.branches := List.forall₂_map_right_iff.1 hplan
  have htopics : c.topics = (Compile.branches bindings fixed g).map (·.service) := by
    symm
    unfold topics
    rw [← List.forall₂_eq_eq_eq, List.forall₂_map_left_iff, List.forall₂_map_right_iff]
    exact hplan'.imp fun b bc hb => hb.topic.symm
  refine ⟨forall₂_imp_of_mem hplan' fun b bc hbc hb => ?_, ?_, ?_⟩
  · exact BranchChart.wired_of_planned hb fun n hn => hnodes (c.branch_nodes_subset next hbc hn)
  · have : c.joinNode next ∈ nodes := hnodes (List.mem_cons_self ..)
    rwa [joinNode, htopics] at this
  · exact hnodes (List.mem_append_right _ (List.mem_singleton_self _))

/-- Every group of a chain leads on to the one behind it. -/
theorem nodes_subset_chainNodes (back : ρ) : ∀ (gs : List (GroupChart ρ)) (m : Nat) (g : GroupChart ρ),
    gs[m]? = some g → g.nodes (chainHead back (gs.drop (m + 1))) ⊆ chainNodes back gs
  | [], _, _, h => by cases h
  | g :: rest, 0, g', h => by
    cases h
    exact List.subset_append_right _ _
  | g :: rest, m + 1, g', h => by
    refine List.Subset.trans ?_ (List.subset_append_left _ _)
    exact nodes_subset_chainNodes back rest m g' h

theorem StepChart.wired_of_planned {lib : Library} {nodes : List (Node ρ)} {bindings : Bindings}
    {back : ρ} {step : Step} {c : StepChart ρ} (hplan : StepPlanned lib bindings step c.plan)
    (hnodes : c.nodes back ⊆ nodes) : c.Wired lib nodes bindings back step := by
  -- plans and charts list the groups in opposite orders
  have hplan' : List.Forall₂ (fun g gc => GroupPlanned lib bindings (lib.policy.stepRole step) g
      gc.plan) step c.groups :=
    List.forall₂_reverse_iff.1 (List.forall₂_map_right_iff.1 hplan)
  refine ⟨hnodes (List.mem_append_right _ (List.mem_singleton_self _)), hplan'.length_eq.symm, ?_⟩
  intro m g gc hg hgc
  refine GroupChart.wired_of_planned (forall₂_getElem? hplan' hg hgc) fun n hn => hnodes ?_
  exact List.mem_append_left _ (nodes_subset_chainNodes back c.groups m gc hgc hn)

theorem ActivityChart.wired_of_planned {lib : Library} {nodes : List (Node ρ)} {respond : ρ}
    {a : Activity} {c : ActivityChart ρ} (hplan : ActivityPlanned lib a c.plan)
    (hnodes : c.nodes respond ⊆ nodes) : c.Wired lib nodes respond a := by
  have hindex : c.index = a.index := hplan.index
  have hsteps : List.Forall₂ (fun step sc => StepPlanned lib a.bindings step sc.plan)
      a.timing.walk.steps c.steps := List.forall₂_map_right_iff.1 hplan.steps
  refine ⟨?_, ⟨_, steps_eq_ok_iff.2 ⟨hplan.sound, rfl⟩, ?_⟩, ?_⟩
  · have : c.backNode respond ∈ nodes := hnodes (List.mem_cons_self ..)
    rwa [backNode, hindex] at this
  · refine forall₂_imp_of_mem hsteps fun step sc hsc hstep => ?_
    exact StepChart.wired_of_planned hstep fun n hn => hnodes (c.step_nodes_subset respond hsc hn)
  · have : c.switchNode ∈ nodes := hnodes (List.mem_append_right _ (List.mem_singleton_self _))
    rwa [switchNode, hindex] at this

/-! ## Nodes of a kind

Joins, fan-outs and copies stand in groups only, so listing them is listing the groups. -/

/-- A kind of nodes that stands in groups only; of the functions it holds fan-outs at most. -/
structure InGroups (q : Node ρ → Bool) : Prop where
  httpResponse : ∀ id, q (.httpResponse id) = false
  httpIn : ∀ id url method target, q (.httpIn id url method target) = false
  selector : ∀ id property name targets, q (.selector id property name targets) = false
  function : ∀ id script name wires, name ≠ "fan out" → q (.function id script name wires) = false

theorem append_ne_fanOut {first : String} (rest : String)
    (h : first.toList.head? = some 'a' ∨ first.toList.head? = some 't') :
    first ++ rest ≠ "fan out" := by
  intro he
  have := congrArg (fun s => s.toList.head?) he
  rcases h with h | h <;> simp [h] at this

theorem topic_ne_fanOut (topic : String) : s!"topic {topic}" ≠ "fan out" :=
  append_ne_fanOut topic (Or.inr rfl)

theorem return_ne_fanOut (index : Int) : s!"activity {index} return" ≠ "fan out" := by
  show "activity " ++ toString index ++ " return" ≠ _
  rw [String.append_assoc]
  exact append_ne_fanOut _ (Or.inl rfl)

/-- If the nodes of a kind have the same names in a group wherever it leads, then those of a flow
are the ones of its groups. -/
theorem FlowChart.ids_filter_nodes {q : Node ρ → Bool} (hq : InGroups q)
    {found : GroupChart ρ → List ρ}
    (hfound : ∀ g next, ((g.nodes next).filter q).map (·.id) = found g) (c : FlowChart ρ)
    (route method : String) :
    ((c.nodes route method).filter q).map (·.id) = c.groups.flatMap found := by
  -- level by level, none of the nodes around the groups is of this kind
  have hchain : ∀ (back : ρ) (gs : List (GroupChart ρ)),
      ((chainNodes back gs).filter q).map (·.id) = gs.reverse.flatMap found := by
    intro back gs
    induction gs with
    | nil => rfl
    | cons g gs ih => simp [chainNodes, ih, hfound]
  have hstep : ∀ (s : StepChart ρ) (back : ρ),
      ((s.nodes back).filter q).map (·.id) = s.groups.reverse.flatMap found := by
    intro s back
    have : q (s.entryNode back) = false := hq.function _ _ _ _ (by decide)
    simp [StepChart.nodes, hchain, this]
  have hactivity : ∀ (a : ActivityChart ρ) (respond : ρ), ((a.nodes respond).filter q).map (·.id) =
      a.steps.flatMap fun s => s.groups.reverse.flatMap found := by
    intro a respond
    have hback : q (a.backNode respond) = false := hq.function _ _ _ _ (return_ne_fanOut _)
    have hswitch : q a.switchNode = false := hq.selector _ _ _ _
    simp [ActivityChart.nodes, hback, hswitch, List.filter_flatMap, List.map_flatMap, hstep]
  have hrespond : q c.respondNode = false := hq.function _ _ _ _ (by decide)
  have hfinished : q c.finishedNode = false := hq.function _ _ _ _ (by decide)
  have hswitch : q c.switchNode = false := hq.selector _ _ _ _
  have hcounter : q c.counterNode = false := hq.function _ _ _ _ (by decide)
  simp [nodes, groups, hq.httpResponse, hq.httpIn, hrespond, hfinished, hswitch, hcounter,
    List.filter_flatMap, List.map_flatMap, List.flatMap_assoc, hactivity]

theorem BranchChart.copyNode_kind (c : BranchChart ρ) (p : Part) :
    ∃ properties, (c.copyNode p).kind = .copy properties := by
  unfold copyNode
  split <;> exact ⟨_, rfl⟩

/-- A kind that holds neither copies nor marks is not to be found in branches. -/
theorem GroupChart.filter_branches_eq_nil {q : Node ρ → Bool} (c : GroupChart ρ)
    (hcopy : ∀ (b : BranchChart ρ) (p : Part), q (b.copyNode p) = false)
    (hmark : ∀ b : BranchChart ρ, q (b.markNode c.join) = false) :
    (c.branches.flatMap (·.nodes c.join)).filter q = [] := by
  simp only [List.filter_eq_nil_iff, List.mem_flatMap, BranchChart.nodes, List.mem_append,
    List.mem_map, List.mem_singleton, Bool.not_eq_true]
  rintro n ⟨b, _, ⟨p, _, rfl⟩ | rfl⟩
  · exact hcopy b p
  · exact hmark b

theorem FlowChart.joins_nodes (c : FlowChart ρ) (route method : String) :
    ((c.nodes route method).filter Node.isJoin).map (·.id) = c.groups.map (·.join) := by
  have hq : InGroups (Node.isJoin (ρ := ρ)) :=
    ⟨fun _ => rfl, fun _ _ _ _ => rfl, fun _ _ _ _ => rfl, fun _ _ _ _ _ => rfl⟩
  refine (c.ids_filter_nodes hq (fun g next => ?_) route method).trans List.map_eq_flatMap.symm
  have hbranches := g.filter_branches_eq_nil (q := Node.isJoin)
    (fun b p => by obtain ⟨_, h⟩ := b.copyNode_kind p; simp [Node.isJoin, h]) (fun _ => rfl)
  have hjoin : (g.joinNode next).isJoin = true := rfl
  have hfanOut : g.fanOutNode.isJoin = false := rfl
  rw [GroupChart.nodes, List.cons_append, List.filter_cons_of_pos hjoin, List.filter_append,
    hbranches, List.filter_singleton, hfanOut]
  rfl

theorem FlowChart.fanOuts_nodes (c : FlowChart ρ) (route method : String) :
    ((c.nodes route method).filter Node.isFanOut).map (·.id) = c.groups.map (·.fanOut) := by
  have hq : InGroups (Node.isFanOut (ρ := ρ)) :=
    ⟨fun _ => rfl, fun _ _ _ _ => rfl, fun _ _ _ _ => rfl, fun _ _ _ _ h => decide_eq_false h⟩
  refine (c.ids_filter_nodes hq (fun g next => ?_) route method).trans List.map_eq_flatMap.symm
  have hbranches := g.filter_branches_eq_nil (q := Node.isFanOut)
    (fun b p => by obtain ⟨_, h⟩ := b.copyNode_kind p; simp [Node.isFanOut, h])
    (fun b => decide_eq_false (topic_ne_fanOut b.topic))
  have hjoin : (g.joinNode next).isFanOut = false := rfl
  have hfanOut : g.fanOutNode.isFanOut = true := rfl
  rw [GroupChart.nodes, List.cons_append, List.filter_cons_of_neg (by simp [hjoin]),
    List.filter_append, hbranches, List.filter_singleton, hfanOut]
  rfl

theorem FlowChart.copies_nodes (c : FlowChart ρ) (route method : String) :
    ((c.nodes route method).filter Node.isCopy).map (·.id) =
      c.groups.flatMap fun g => g.branches.flatMap (·.copy) := by
  have hq : InGroups (Node.isCopy (ρ := ρ)) :=
    ⟨fun _ => rfl, fun _ _ _ _ => rfl, fun _ _ _ _ => rfl, fun _ _ _ _ _ => rfl⟩
  refine c.ids_filter_nodes hq (fun g next => ?_) route method
  have hbranch : ∀ b : BranchChart ρ, ((b.nodes g.join).filter Node.isCopy).map (·.id) = b.copy := by
    intro b
    have hcopies : (b.fragment.parts.map b.copyNode).filter Node.isCopy =
        b.fragment.parts.map b.copyNode := by
      simp only [List.filter_eq_self, List.mem_map]
      rintro n ⟨p, _, rfl⟩
      obtain ⟨_, h⟩ := b.copyNode_kind p
      simp [Node.isCopy, h]
    have hmark : (b.markNode g.join).isCopy = false := rfl
    simp only [BranchChart.nodes, List.filter_append, hcopies, List.filter_singleton, hmark]
    simpa using b.ids_copies
  have hjoin : (g.joinNode next).isCopy = false := rfl
  have hfanOut : g.fanOutNode.isCopy = false := rfl
  simp [GroupChart.nodes, hjoin, hfanOut, List.filter_flatMap, List.map_flatMap, hbranch]

/-! ## Charts of compiled flows -/

variable {σ : Type} [Source σ] {options : Options} {files : Tree} {pool : Pool σ}
variable {activities : List Activity} {nodes : List (Node String)}

/-- The nodes of a chart whose plan is the plan of some activities are the flow of these activities,
if its names are all different. -/
theorem FlowChart.charts_of_plan {c : FlowChart ρ}
    (hplan : ((options.library files).plan activities).result = .ok c.plan) (hnodup : c.names.Nodup) :
    c.Charts options files activities (c.nodes options.route options.method) := by
  refine ⟨c.ids_nodes _ _, hnodup, c.joins_nodes _ _, c.fanOuts_nodes _ _, c.copies_nodes _ _,
    ?_, ?_, ?_, ?_, ?_, ?_, ?_⟩
  · have hplanned := Library.plan_planned hplan
    exact forall₂_imp_of_mem (List.forall₂_map_right_iff.1 hplanned) fun a ac hac ha =>
      ActivityChart.wired_of_planned ha (c.activity_nodes_subset _ _ hac)
  all_goals simp [FlowChart.nodes]

/-- Every flow that compiles has a chart, and consists of its nodes. -/
theorem compile_charts (h : (compile options files pool activities).result = .ok nodes) :
    ∃ c : FlowChart String, c.Charts options files activities nodes ∧
      nodes = c.nodes options.route options.method := by
  obtain ⟨plan, name, hplan, rfl, hnodup⟩ := compile_eq_ok h
  refine ⟨(flowChart plan).map name, FlowChart.charts_of_plan ?_ hnodup, rfl⟩
  rw [FlowChart.plan_map, plan_flowChart, hplan]

/-- A chart of the presentation of the lamp and the bell has two activities, the second without
steps, and one step of two groups. -/
theorem lampDeck_shape {lib : Library} {nodes : List (Node ρ)} {respond : ρ}
    {charts : List (ActivityChart ρ)}
    (h : List.Forall₂ (ActivityChart.Wired lib nodes respond) lampDeck charts) :
    ∃ one two s lamp bell, charts = [one, two] ∧ one.steps = [s] ∧ two.steps = [] ∧
      s.groups = [lamp, bell] ∧
      .function one.back Script.passThrough "activity 1 return" [[respond]] ∈ nodes ∧
      .function s.entry Script.passThrough "step" [[lamp.fanOut]] ∈ nodes ∧
      lamp.Wired lib nodes lampBindings (lib.policy.stepRole [lampGroup, bellGroup]) bell.fanOut
        lampGroup ∧
      bell.Wired lib nodes lampBindings (lib.policy.stepRole [lampGroup, bellGroup]) one.back
        bellGroup := by
  obtain ⟨one, others, hone, hothers, rfl⟩ := List.forall₂_cons_left_iff.1 h
  obtain ⟨two, rest, htwo, hrest, rfl⟩ := List.forall₂_cons_left_iff.1 hothers
  obtain rfl := List.forall₂_nil_left_iff.1 hrest
  have hback := hone.back
  obtain ⟨steps, hsteps, hone⟩ := hone.steps
  cases hsteps
  obtain ⟨s, more, hs, hmore, hone⟩ := List.forall₂_cons_left_iff.1 hone
  obtain rfl := List.forall₂_nil_left_iff.1 hmore
  obtain ⟨none, hnone, htwo⟩ := htwo.steps
  cases hnone
  obtain ⟨lamp, bell, hgs⟩ := List.length_eq_two.1 hs.length
  have hentry := hs.entry
  have hgroups := hs.groups
  rw [hgs] at hentry hgroups
  exact ⟨one, two, s, lamp, bell, rfl, hone, List.forall₂_nil_left_iff.1 htwo, hgs, hback, hentry,
    hgroups 0 _ lamp rfl rfl, hgroups 1 _ bell rfl rfl⟩

end SlideFlow.Compile
