/-
A compiled flow as a graph (`compiled_graph`). Its nodes have the identifiers that the pool gave out,
each once, so they are all different and have the form of identifiers; its wires end at its own
nodes; and the number of its nodes is a sum over the activities, their steps, the groups of the
steps and the animations of the groups, whatever the fragments look like inside.
-/
import SlideFlow.Proofs.Compile.Outcome
import SlideFlow.Proofs.Ident.Form
import Mathlib.Algebra.BigOperators.Group.List.Basic
import Mathlib.Algebra.Ring.Nat

namespace SlideFlow.Compile

open SlideFlow.Deck SlideFlow.Files SlideFlow.Flow SlideFlow.Ident SlideFlow.Service
open SlideFlow.Timeline

/-! ## How many nodes are asked for -/

/-- The number of nodes of the fragment of a service in a role; nothing if it does not load. -/
def Library.fragmentSize (lib : Library) (service : String) (role : Fragment.Role) : Nat :=
  match (Fragment.loadFor lib.files lib.directory service role).result with
  | .ok f => f.parts.length
  | .error _ => 0

/-- The number of nodes for an animation of a step: a mark and a copy of the fragment, or nothing if
its shape stands for no service. -/
def Library.animationSize (lib : Library) (bindings : Bindings) (step : Step) (x : Animation) : Nat :=
  match Ordered.get? x.shape bindings with
  | none => 0
  | some service => 1 + lib.fragmentSize service (lib.policy.role step x)

/-- Parts that are laid out one after the other have as many nodes as all that they stand for. -/
theorem rowSize_eq_sum {α β : Type} {R : α → β → Prop} {asked : α → Nat} {size : β → Nat}
    {xs : List α} {ys : List β} (h : List.Forall₂ R xs ys)
    (hsize : ∀ x y, R x y → size y = asked x) : rowSize size ys = (xs.map asked).sum := by
  induction h with
  | nil => rfl
  | cons hr _ ih => rw [rowSize, hsize _ _ hr, ih, List.map_cons, List.sum_cons]

theorem Library.fragmentSize_of_load {lib : Library} {b : Branch} {f : Fragment}
    (h : lib.load b = .ok f) : lib.fragmentSize b.service b.role = f.parts.length := by
  unfold load at h
  unfold fragmentSize
  rw [h]

/-- The branches of a group are its animations whose shapes stand for services. -/
theorem Library.sum_branches (lib : Library) (bindings : Bindings) (step : Step) (g : Group) :
    ((branches bindings (lib.policy.stepRole step) g).map fun b =>
      1 + lib.fragmentSize b.service b.role).sum =
    (g.map (lib.animationSize bindings step)).sum := by
  induction g with
  | nil => rfl
  | cons x g ih =>
    rw [List.map_cons, List.sum_cons, ← ih]
    unfold branches animationSize
    cases hx : Ordered.get? x.shape bindings with
    | none =>
      have : branchOf bindings (lib.policy.stepRole step) x = none := by simp [branchOf, hx]
      rw [List.filterMap_cons_none this, Nat.zero_add]
    | some service =>
      have : branchOf bindings (lib.policy.stepRole step) x =
          some ⟨x.shape, service, lib.policy.role step x⟩ := by simp [branchOf, hx, Policy.role]
      rw [List.filterMap_cons_some this, List.map_cons, List.sum_cons]

variable {lib : Library} {bindings : Bindings}

theorem GroupPlanned.size {step : Step} {g : Group} {p : GroupPlan}
    (h : GroupPlanned lib bindings (lib.policy.stepRole step) g p) :
    p.size = 2 + (g.map (lib.animationSize bindings step)).sum := by
  have hbranch : ∀ b bp, BranchPlanned lib b bp →
      bp.size = 1 + lib.fragmentSize b.service b.role := by
    intro b bp hb
    rw [Library.fragmentSize_of_load hb.fragment, BranchPlan.size, Fragment.size, Nat.add_comm]
  rw [GroupPlan.size, GroupPlan.branchesSize, rowSize_eq_sum h hbranch, lib.sum_branches,
    Nat.add_comm]

theorem StepPlanned.size {step : Step} {p : StepPlan} (h : StepPlanned lib bindings step p) :
    p.size = 1 + (step.map fun g => 2 + (g.map (lib.animationSize bindings step)).sum).sum := by
  rw [StepPlan.size, StepPlan.groupsSize, rowSize_eq_sum h fun g gp hg => hg.size, List.map_reverse,
    List.sum_reverse, Nat.add_comm]

theorem ActivityPlanned.size {a : Activity} {p : ActivityPlan} (h : ActivityPlanned lib a p) :
    p.size = 2 + (a.timing.walk.steps.map fun step =>
      1 + (step.map fun g => 2 + (g.map (lib.animationSize a.bindings step)).sum).sum).sum := by
  rw [ActivityPlan.size, ActivityPlan.stepsSize, rowSize_eq_sum h.steps fun step sp hs => hs.size,
    Nat.add_comm]

/-! ## Compiled graphs -/

variable {σ : Type} [Source σ] {options : Options} {files : Tree} {pool : Pool σ}
variable {activities : List Activity} {nodes : List (Node String)}

/-- Every compiled flow is a closed graph. Its identifiers are all different and have the form of
identifiers, and its wires end at its nodes. It has six nodes around the activities, two for each
activity, one for each step, two for each group, and for each animation whose shape stands for a
service one more than its fragment has. -/
theorem compiled_graph (h : (compile options files pool activities).result = .ok nodes) :
    let lib := options.library files
    (nodes.map (·.id)).Nodup ∧
    (∀ n ∈ nodes, WellFormed n.id) ∧
    (∀ n ∈ nodes, ∀ port ∈ n.wires, ∀ t ∈ port, ∃ m ∈ nodes, m.id = t) ∧
    (∀ b ∈ lib.loads activities,
      ∃ f, lib.load b = .ok f ∧ lib.fragmentSize b.service b.role = f.parts.length) ∧
    nodes.length = 6 + (activities.map fun a =>
      2 + (a.timing.walk.steps.map fun step =>
        1 + (step.map fun g =>
          2 + (g.map (lib.animationSize a.bindings step)).sum).sum).sum).sum := by
  intro lib
  obtain ⟨plan, ids, pool', name, hplan, hd, rfl, hnames⟩ := compile_drawn h
  have hfresh := Pool.nexts_fresh hd
  have hids := ((flowChart plan).map name).ids_nodes options.route options.method
  rw [hnames] at hids
  refine ⟨?_, fun n hn => ?_, fun n hn port hport t ht => ?_, fun b hb => ?_, ?_⟩
  · rw [hids]
    exact hfresh.nodup
  · have hid := List.mem_map_of_mem (f := (·.id)) hn
    rw [hids] at hid
    exact Pool.nexts_wellFormed hd _ hid
  · have htarget := ((flowChart plan).map name).nodes_targets options.route options.method n hn t
      (List.mem_flatten.2 ⟨port, hport, ht⟩)
    rw [hnames, ← hids] at htarget
    exact List.mem_map.1 htarget
  · -- a plan is there, so every fragment was loaded
    have hnone := failure?_eq_none_iff.2 ⟨plan, hplan⟩
    rw [Library.failure?_plan, Option.or_eq_none_iff, Option.map_eq_none_iff,
      Option.map_eq_none_iff, List.findSome?_eq_none_iff, List.findSome?_eq_none_iff] at hnone
    obtain ⟨f, hf⟩ := failure?_eq_none_iff.1 (hnone.2 b hb)
    exact ⟨f, hf, Library.fragmentSize_of_load hf⟩
  · rw [← List.length_map (·.id), hids, hfresh.length, activitiesSize,
      rowSize_eq_sum (Library.plan_planned hplan) fun a p ha => ha.size, Nat.add_comm]

/-- The presentation of the lamp and the bell: six nodes around the activities, two for each of them,
one for the only step, two for each of its groups, three for each of the two shapes of the lamp and
two for the bell. -/
theorem compiled_graph_lampDeck :
    ∃ nodes, (compile lampOptions lampFiles lampPool lampDeck).result = .ok nodes ∧
      (nodes.map (·.id)).Nodup ∧ nodes.length = 23 := by
  obtain ⟨nodes, hnodes⟩ := lampDeck_compiles
  obtain ⟨hnodup, -, -, -, hlength⟩ := compiled_graph hnodes
  refine ⟨nodes, hnodes, hnodup, hlength.trans ?_⟩
  decide +kernel

end SlideFlow.Compile
