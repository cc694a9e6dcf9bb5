/-
Assembling a plan node by node comes to the same as laying it out and storing the layout
(`assemble_eq_build`). Every part of a plan emits the nodes of its chart (`BranchPlan.emits_assemble` and
its companions), so a flow that is assembled has the nodes of the layout, in the same order and under
the same identifiers. In particular no step on the way fails but for want of identifiers.
-/
import SlideFlow.Proofs.Flow.Emit

namespace SlideFlow.Compile

open SlideFlow.Flow SlideFlow.Fragment SlideFlow.Ident

variable {σ : Type}

/-! ## Switches -/

theorem attach_length {ρ : Type} (target : ρ) (ports : List (List ρ)) :
    Node.attach target ports.length ports = ports ++ [[target]] := by
  induction ports with
  | nil => rfl
  | cons port ports ih =>
    rw [List.length_cons, Node.attach, ih]
    rfl

/-- A rule for the next value is one more target. -/
theorem addRule_selector {ρ : Type} (id : ρ) (property name : String) (done : List ρ) (target : ρ) :
    (Node.selector id property name done).addRule (done.length + 1) target =
      .selector id property name (done ++ [target]) := by
  have hports : Node.attach target done.length (done.map ([·])) = done.map ([·]) ++ [[target]] := by
    have hattach := attach_length target (done.map ([·]))
    rwa [List.length_map] at hattach
  simp only [Node.addRule, Node.selector, Node.connect, List.length_map, List.length_range', hports,
    List.map_append, List.map_cons, List.map_nil, List.length_append, List.length_singleton,
    List.range'_1_concat]
  have hvalue : (done.length : Int) + 1 = Int.ofNat (1 + done.length) := by
    rw [Int.ofNat_eq_natCast]
    omega
  rw [hvalue]

/-- The rules of a switch are added one after the other. -/
theorem addRules_exec {a : Arena σ} {pool : Pool σ} {id property name : String} :
    ∀ (rest done : List String), (a.extend pool [.selector id property name done]).Sound →
      (addRules id (done.length + 1) rest).exec (a.extend pool [.selector id property name done]) =
        (.ok (), a.extend pool [.selector id property name (done ++ rest)])
  | [], done, _ => by
    rw [List.append_nil]
    rfl
  | target :: rest, done, hsound => by
    have hmem : Node.selector id property name done ∈
        (a.extend pool [.selector id property name done]).nodes := by simp [Arena.extend]
    have hadd : (Arena.addRule id (done.length + 1) target).exec
        (a.extend pool [.selector id property name done]) =
          (.ok (.selector id property name (done ++ [target])),
            a.extend pool [.selector id property name (done ++ [target])]) := by
      have hchange := Arena.change_exec hsound hmem
        fun n => n.addRule ((done.length : Int) + 1) target
      rw [Arena.update_extend hsound (List.mem_singleton.2 rfl), addRule_selector] at hchange
      simp only [List.map_cons, List.map_nil, if_true, addRule_selector] at hchange
      exact hchange
    have hnext : (a.extend pool [.selector id property name (done ++ [target])]).Sound :=
      hsound.of_ids (by rw [Arena.ids_extend, Arena.ids_extend]; rfl) fun _ h => h
    have hrest := addRules_exec rest (done ++ [target]) hnext
    rw [List.length_append, List.length_singleton, Int.natCast_add, List.append_assoc] at hrest
    rw [addRules, Op.exec_bind_ok hadd]
    exact hrest

/-! ## Branches -/

theorem BranchChart.ids_plainCopies (c : BranchChart String) (join : String) :
    (c.fragment.parts.map c.plainCopy ++ [c.markNode join]).map (·.id) = c.names := by
  rw [List.map_append, List.map_map, names, copy, List.map_map]
  rfl

/-- A copy of a fragment becomes a branch once its exit is connected to its mark. -/
theorem BranchChart.connect_exit {c : BranchChart String} (hnodup : c.names.Nodup) {p : Part}
    (hp : p ∈ c.fragment.parts) (hexit : p.id = c.fragment.exit) (join : String) :
    (c.fragment.parts.map c.plainCopy ++ [c.markNode join]).map
        (fun n => if n.id = c.exit then (c.plainCopy p).connect 0 c.mark else n) =
      c.nodes join := by
  obtain ⟨hcopy, -, hmark⟩ := List.nodup_append.1 hnodup
  have hmarked : ¬ (c.markNode join).id = c.exit := by
    intro heq
    refine hmark c.exit (c.rename_mem_copy c.fragment.exit_mem) c.mark (List.mem_singleton.2 rfl) ?_
    exact heq.symm
  have hcopies : ∀ q ∈ c.fragment.parts, (if (c.plainCopy q).id = c.exit then
      (c.plainCopy p).connect 0 c.mark else c.plainCopy q) = c.copyNode q := by
    intro q hq
    -- new names are different, so the exit is the only node that has the new name of the exit
    have hiff : (c.plainCopy q).id = c.exit ↔ q.id = c.fragment.exit := by
      constructor
      · intro heq
        exact List.inj_on_of_nodup_map hcopy (List.mem_map_of_mem hq) c.fragment.exit_mem heq
      · intro heq
        exact congrArg c.rename heq
    simp only [hiff, copyNode]
    split
    · rename_i hq'
      obtain rfl : q = p :=
        List.inj_on_of_nodup_map c.fragment.nodup hq hp (hq'.trans hexit.symm)
      rw [exitCopy, Node.connect, attach_zero]
    · rfl
  rw [List.map_append, List.map_map, List.map_singleton, if_neg hmarked, nodes]
  congr 1
  exact List.map_congr_left hcopies

theorem BranchChart.connect_exec {c : BranchChart String} {a : Arena σ} {pool : Pool σ} {join : String}
    (hsound : (a.extend pool (c.fragment.parts.map c.plainCopy ++ [c.markNode join])).Sound) :
    ∃ n, (Arena.connect c.exit 0 c.mark).exec
        (a.extend pool (c.fragment.parts.map c.plainCopy ++ [c.markNode join])) =
      (.ok n, a.extend pool (c.nodes join)) := by
  obtain ⟨p, hp, hexit⟩ := List.mem_map.1 c.fragment.exit_mem
  have hid : (c.plainCopy p).id = c.exit := congrArg c.rename hexit
  have hmem : c.plainCopy p ∈ c.fragment.parts.map c.plainCopy ++ [c.markNode join] :=
    List.mem_append_left _ (List.mem_map_of_mem hp)
  have hnodup : c.names.Nodup := by
    have := hsound.nodup
    rw [Arena.ids_extend, c.ids_plainCopies] at this
    exact (List.nodup_append.1 this).2.1
  have hconnect := Arena.connect_exec hsound (List.mem_append_right a.nodes hmem) 0 c.mark
  rw [Arena.update_extend hsound hmem, hid, connect_exit hnodup hp hexit join] at hconnect
  exact ⟨_, hconnect⟩

/-! ## What the parts of a plan emit -/

variable [Source σ]

theorem emits_assembleSwitch (property name : String) (targets : List String) (base : Nat) :
    Emits (assembleSwitch property name targets : Op σ String) base 1
      (fun naming => [.selector (naming base) property name targets]) (fun naming => naming base) := by
  have hswitch : Emits (Arena.create fun id => .switch id property "msg" name : Op σ (Node String))
      base 1 (fun naming => [.selector (naming base) property name []])
      (fun naming => .selector (naming base) property name []) := emits_create _ (fun _ => rfl) base
  refine hswitch.adjust (fun _ => rfl) fun a pool naming hsound => ?_
  exact Op.exec_bind_ok (addRules_exec targets [] hsound) _

/-- A branch with its fragment and its mark, before they are connected. -/
theorem BranchPlan.emits_copies (join : String) (b : BranchPlan) (base : Nat) :
    Emits (do
        let spliced ← Arena.splice b.fragment
        let mark ← Arena.create fun id =>
          .function id (Script.topic b.topic) s!"topic {b.topic}" [[join]]
        return (spliced, mark) : Op σ (Arena.Spliced × Node String)) base b.size
      (fun name => b.fragment.parts.map ((b.chart base).map name).plainCopy
        ++ [((b.chart base).map name).markNode join])
      (fun name => (Arena.splicedAs b.fragment ((List.range' base b.fragment.size).map name),
        ((b.chart base).map name).markNode join)) := by
  refine ((emits_splice b.fragment base).bind fun spliced =>
    (emits_create _ (fun _ => rfl) _).bind fun mark => emits_pure (spliced, mark) _).of_eq rfl ?_ ?_
  · intro name
    rfl
  · intro name
    rfl

/-- Where the identifiers of a copied fragment stand. -/
theorem getD_map_range' (base : Nat) (name : Nat → String) {i size : Nat} (h : i < size) :
    ((List.range' base size).map name).getD i "" = name (base + i) := by
  simp [h]

theorem BranchPlan.emits_assemble (join : String) (b : BranchPlan) (base : Nat) :
    Emits (b.assemble join : Op σ String) base b.size
      (fun name => ((b.chart base).map name).nodes join)
      (fun name => ((b.chart base).map name).entry) := by
  have hassemble : (b.assemble join : Op σ String) = (do
      let spliced ← Arena.splice b.fragment
      let mark ← Arena.create fun id =>
        .function id (Script.topic b.topic) s!"topic {b.topic}" [[join]]
      return (spliced, mark)) >>= fun made => do
        let _ ← Arena.connect made.1.exit 0 made.2.id
        return made.1.entry := by
    simp only [assemble, bind_assoc, pure_bind]
  rw [hassemble]
  refine (b.emits_copies join base).adjust (fun name => ?_) fun a pool name hsound => ?_
  · rw [BranchChart.ids_nodes]
    exact ((b.chart base).map name).ids_plainCopies join |>.symm
  · have hentry : (Arena.splicedAs b.fragment
        ((List.range' base b.fragment.size).map name)).entry = ((b.chart base).map name).entry :=
      getD_map_range' base name (idxOf_lt_size b.fragment.entry_mem)
    have hexit : (Arena.splicedAs b.fragment
        ((List.range' base b.fragment.size).map name)).exit = ((b.chart base).map name).exit :=
      getD_map_range' base name (idxOf_lt_size b.fragment.exit_mem)
    obtain ⟨n, hconnect⟩ := BranchChart.connect_exec hsound
    simp only [hentry, hexit]
    exact Op.exec_bind_ok hconnect _

/-! ## Rows of parts -/

/-- Parts that are assembled one after the other emit the nodes of their charts one after the
other. -/
theorem emits_mapM {α β γ : Type} {size : α → Nat} {chart : Nat → α → β} {f : α → Op σ γ}
    {nodes : β → (Nat → String) → List (Node String)} {result : β → (Nat → String) → γ}
    (h : ∀ base x, Emits (f x) base (size x) (nodes (chart base x)) (result (chart base x))) :
    ∀ (xs : List α) (base : Nat), Emits (xs.mapM f) base (rowSize size xs)
      (fun name => (rowCharts size chart base xs).flatMap fun c => nodes c name)
      (fun name => (rowCharts size chart base xs).map fun c => result c name)
  | [], base => by
    rw [List.mapM_nil]
    exact emits_pure [] base
  | x :: xs, base => by
    rw [List.mapM_cons]
    refine ((h base x).bind fun r => (emits_mapM h xs _).bind fun rs => emits_pure (r :: rs) _).of_eq
      rfl (fun name => ?_) fun name => rfl
    simp [rowCharts]

/-! ## Groups, steps, activities -/

/-- The nodes of a group under some names. -/
theorem GroupPlan.nodes_map_chart (next : String) (g : GroupPlan) (base : Nat) (name : Nat → String) :
    ((g.chart base).map name).nodes next =
      .join (name base) (Script.join g.topics) g.topics "join" next
        :: (g.branchCharts (base + 1)).flatMap (fun c => (c.map name).nodes (name base))
        ++ [.function (name (g.entry base)) (Script.fanOut (g.branchCharts (base + 1)).length)
          "fan out" (fanOutWires (name base)
            ((g.branchCharts (base + 1)).map fun c => (c.map name).entry))] := by
  have htopics : ((g.chart base).map name).topics = g.topics := by
    rw [GroupChart.topics, ← g.topics_branchCharts (base + 1)]
    exact List.map_map
  have hwires : ((g.chart base).map name).fanOutWires =
      fanOutWires (name base) ((g.branchCharts (base + 1)).map fun c => (c.map name).entry) := by
    simp only [GroupChart.fanOutWires, GroupChart.map, chart]
    cases g.branchCharts (base + 1) with
    | nil => rfl
    | cons c cs => simp [fanOutWires]
  have hnodes : ((g.chart base).map name).branches.flatMap (·.nodes (name base)) =
      (g.branchCharts (base + 1)).flatMap fun c => (c.map name).nodes (name base) :=
    List.flatMap_map ..
  have hlength : ((g.chart base).map name).branches.length = (g.branchCharts (base + 1)).length :=
    List.length_map _
  rw [← hnodes, ← hwires, ← hlength, GroupChart.nodes, GroupChart.joinNode, GroupChart.fanOutNode,
    htopics]
  rfl

theorem GroupPlan.emits_assemble (next : String) (g : GroupPlan) (base : Nat) :
    Emits (g.assemble next : Op σ String) base g.size
      (fun name => ((g.chart base).map name).nodes next)
      (fun name => ((g.chart base).map name).fanOut) := by
  have hbranches : ∀ join : String, Emits (g.mapM (BranchPlan.assemble join) : Op σ (List String))
      (base + 1) g.branchesSize
      (fun name => (g.branchCharts (base + 1)).flatMap fun c => (c.map name).nodes join)
      (fun name => (g.branchCharts (base + 1)).map fun c => (c.map name).entry) := fun join =>
    emits_mapM (fun base b => b.emits_assemble join base) g (base + 1)
  have hlast : base + 1 + g.branchesSize = g.entry base := by
    rw [entry]
    omega
  refine ((emits_create _ (fun _ => rfl) base).bind fun join => (hbranches join.id).bind fun entries =>
    (emits_create _ (fun _ => rfl) _).bind fun fanOut => emits_pure fanOut.id _).of_eq ?_
      (fun name => ?_) fun name => congrArg name hlast
  · rw [GroupPlan.size]
    omega
  · rw [nodes_map_chart, hlast, List.length_map, List.append_nil]
    rfl

/-- Groups that are assembled one after the other, each leading on to the one before. -/
theorem StepPlan.emits_groups : ∀ (s : StepPlan) (next : String) (base : Nat),
    Emits (s.foldlM GroupPlan.assemble next : Op σ String) base s.groupsSize
      (fun name => chainNodes next ((s.groupCharts base).map (.map name)).reverse)
      (fun name => chainHead next ((s.groupCharts base).map (.map name)).reverse)
  | [], next, base => emits_pure next base
  | g :: rest, next, base => by
    have hcharts : StepPlan.groupCharts base (g :: rest) =
        g.chart base :: StepPlan.groupCharts (base + g.size) rest := rfl
    rw [List.foldlM_cons]
    refine ((g.emits_assemble next base).bind fun entry =>
      StepPlan.emits_groups rest entry _).of_eq rfl (fun name => ?_) fun name => ?_
    · rw [hcharts, List.map_cons, List.reverse_cons, chainNodes_concat]
    · rw [hcharts, List.map_cons, List.reverse_cons, chainHead_concat]

theorem StepPlan.emits_assemble (back : String) (s : StepPlan) (base : Nat) :
    Emits (s.assemble back : Op σ String) base s.size
      (fun name => ((s.chart base).map name).nodes back)
      (fun name => ((s.chart base).map name).entry) := by
  refine ((s.emits_groups back base).bind fun next =>
    (emits_create _ (fun _ => rfl) _).bind fun entry => emits_pure entry.id _).of_eq rfl
      (fun name => ?_) fun name => rfl
  rw [← List.map_reverse]
  rfl

theorem ActivityPlan.emits_assemble (respond : String) (a : ActivityPlan) (base : Nat) :
    Emits (a.assemble respond : Op σ String) base a.size
      (fun name => ((a.chart base).map name).nodes respond)
      (fun name => ((a.chart base).map name).switch) := by
  have hsteps : ∀ back : String, Emits (a.steps.mapM (StepPlan.assemble back) : Op σ (List String))
      (base + 1) a.stepsSize
      (fun name => (stepCharts (base + 1) a.steps).flatMap fun c => (c.map name).nodes back)
      (fun name => (stepCharts (base + 1) a.steps).map fun c => (c.map name).entry) := fun back =>
    emits_mapM (fun base s => s.emits_assemble back base) a.steps (base + 1)
  have hlast : base + 1 + a.stepsSize = a.entry base := by
    rw [entry]
    omega
  refine ((emits_create _ (fun _ => rfl) base).bind fun back => (hsteps back.id).bind fun steps =>
    emits_assembleSwitch _ _ steps _).of_eq ?_ (fun name => ?_) fun name => congrArg name hlast
  · rw [ActivityPlan.size]
    omega
  · rw [hlast, ActivityChart.nodes, ActivityChart.switchNode]
    simp only [ActivityChart.map, chart, List.flatMap_map, List.map_map]
    rfl

/-! ## Flows -/

theorem emits_assembleFlow (route method : String) (plan : List ActivityPlan) :
    Emits (assembleFlow route method plan : Op σ Unit) 0 (activitiesSize plan + 6)
      (fun name => ((flowChart plan).map name).nodes route method) (fun _ => ()) := by
  have hactivities : ∀ respond : String, Emits (plan.mapM (ActivityPlan.assemble respond) :
      Op σ (List String)) 2 (activitiesSize plan)
      (fun name => (activityCharts 2 plan).flatMap fun c => (c.map name).nodes respond)
      (fun name => (activityCharts 2 plan).map fun c => (c.map name).switch) := fun respond =>
    emits_mapM (fun base a => a.emits_assemble respond base) plan 2
  have hcounts : ∀ name : Nat → String, ((flowChart plan).map name).stepCounts = stepCounts plan := by
    intro name
    rw [FlowChart.stepCounts_map, stepCounts_flowChart]
  refine ((emits_create _ (fun _ => rfl) 0).bind fun answer =>
    (emits_create (responder answer.id none) (fun _ => rfl) 1).bind fun respond =>
    (hactivities respond.id).bind fun activities =>
    (emits_create (responder answer.id (some (Counter.finishedPair (stepCounts plan))))
      (fun _ => rfl) _).bind fun finished =>
    (emits_assembleSwitch _ _ (activities ++ [finished.id]) _).bind fun switch =>
    (emits_create _ (fun _ => rfl) _).bind fun counter =>
    (emits_create _ (fun _ => rfl) _).bind fun _ => emits_pure () _).of_eq ?_ (fun name => ?_)
      fun name => rfl
  · omega
  · simp only [FlowChart.nodes, FlowChart.finishedNode, FlowChart.counterNode, hcounts]
    simp only [FlowChart.map, flowChart, FlowChart.respondNode, FlowChart.switchNode, List.flatMap_map,
      List.map_map]
    rfl

/-- Assembling a plan gives the nodes of its layout under identifiers of the pool, as building the
layout does. -/
theorem assemble_eq_build (route method : String) (pool : Pool σ) (plan : List ActivityPlan) :
    assemble route method pool plan = build pool (layout route method plan) := by
  have hemits := emits_assembleFlow (σ := σ) route method plan
  have hplaced := layout_placed route method plan
  rw [build_eq pool hplaced, length_layout]
  show (Op.exec (assembleFlow route method plan >>= fun _ => Arena.flush) (Arena.ofPool pool)).1 = _
  cases hdraw : pool.nexts (activitiesSize plan + 6) with
  | none =>
    exact Op.exec_bind_error
      (hemits.exhausted (Arena.ofPool pool) (Arena.isOpen_ofPool pool) hdraw) _
  | some drawn =>
    obtain ⟨ids, pool'⟩ := drawn
    have hlength : ids.length = activitiesSize plan + 6 := (Pool.nexts_fresh hdraw).length
    have hname : (List.range' 0 (activitiesSize plan + 6)).map (fun i => ids.getD i "") = ids := by
      rw [← List.range_eq_range', ← hlength, map_getD_range]
    have hstored := hemits.stored (Arena.ofPool pool) pool' (fun i => ids.getD i "")
      (Arena.isOpen_ofPool pool) (by rw [hname]; exact hdraw)
    have hnodes : ((flowChart plan).map fun i => ids.getD i "").nodes route method =
        (layout route method plan).map (Node.map fun i => ids.getD i "") := by
      rw [layout_eq, FlowChart.nodes_map]
    rw [Op.exec_bind_ok hstored, Arena.flush_exec (hplaced.dangling_eq_nil _ hnodes)]
    · exact congrArg Except.ok hnodes
    · rw [hlength, length_layout]

end SlideFlow.Compile
