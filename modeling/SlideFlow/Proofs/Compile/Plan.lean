/-
What planning a presentation comes to. A plan fails with the violation of the first activity whose
timeline is malformed, whatever the fragments are; otherwise with the fault of the first fragment
that cannot be loaded, in the order of `Library.loads` (`failure?_plan`). A plan that succeeds
follows the activities step by step, with the loaded fragments (`plan_planned`).
-/
import SlideFlow.Compile.Plan
import SlideFlow.Proofs.Traverse

namespace SlideFlow.Compile

open SlideFlow.Deck SlideFlow.Files SlideFlow.Service SlideFlow.Timeline

/-- The role of the branch of an animation of a step. -/
def Policy.role (policy : Policy) (step : Step) (a : Animation) : Fragment.Role :=
  (policy.stepRole step).getD (.ofEffect a.effect)

namespace Library

/-- The fragment of a branch, or why it cannot be used. -/
def load (lib : Library) (b : Branch) : Except FragmentError Fragment :=
  (Fragment.loadFor lib.files lib.directory b.service b.role).result

/-- The branches of a step in the order in which their fragments are loaded: the last group
first. -/
def stepLoads (lib : Library) (bindings : Bindings) (step : Step) : List Branch :=
  step.reverse.flatMap (branches bindings (lib.policy.stepRole step))

/-- The branches of a presentation in the order in which their fragments are loaded. -/
def loads (lib : Library) (activities : List Activity) : List Branch :=
  activities.flatMap fun a => a.timing.walk.steps.flatMap (lib.stepLoads a.bindings)

/-- The fault of the fragment of a branch. -/
def fault? (lib : Library) (b : Branch) : Option FragmentError := failure? (lib.load b)

/-! ## Results without their events -/

theorem result_branchPlan (lib : Library) (b : Branch) :
    (lib.branchPlan b).result = (lib.load b).mapError .fragment >>= fun fragment =>
      pure { topic := b.service, fragment } := by
  unfold branchPlan load
  simp only [Logged.result_bind, Logged.result_mapError, Logged.result_pure]
  rfl

theorem result_groupPlan (lib : Library) (bindings : Bindings) (fixed : Option Fragment.Role)
    (g : Group) : (lib.groupPlan bindings fixed g).result =
      (branches bindings fixed g).mapM fun b => (lib.branchPlan b).result := by
  unfold groupPlan
  rw [Logged.result_bind, Logged.result_report, Logged.result_mapM]
  rfl

/-- The number of a step shows in the log only. -/
theorem result_stepPlan (lib : Library) (bindings : Bindings) (index : Nat) (step : Step) :
    (lib.stepPlan bindings index step).result =
      step.reverse.mapM fun g =>
        (lib.groupPlan bindings (lib.policy.stepRole step) g).result := by
  unfold stepPlan
  rw [Logged.result_bind, Logged.result_report, Logged.result_mapM]
  rfl

/-- Numbering the items of a traversal changes nothing if the numbers do not count. -/
theorem mapM_mapIdx {ε α β γ : Type} {f : Nat → α → β} {g : β → Except ε γ} {h : α → Except ε γ}
    (hgf : ∀ i x, g (f i x) = h x) (xs : List α) : (xs.mapIdx f).mapM g = xs.mapM h := by
  induction xs generalizing f with
  | nil => rfl
  | cons x xs ih =>
    rw [List.mapIdx_cons, List.mapM_cons, List.mapM_cons, hgf, ih fun i => hgf (i + 1)]

theorem result_activityPlan (lib : Library) (a : Activity) :
    (lib.activityPlan a).result = a.steps.result >>= fun walked =>
      (walked.mapM fun step => (lib.stepPlan a.bindings 0 step).result) >>= fun steps =>
        pure { index := a.index, steps } := by
  have hsteps : ∀ walked : List Step,
      ((walked.mapIdx fun i step => (i + 1, step)).mapM fun (p : Nat × Step) =>
        (lib.stepPlan a.bindings p.1 p.2).result) =
      walked.mapM fun step => (lib.stepPlan a.bindings 0 step).result := by
    intro walked
    exact mapM_mapIdx (fun i step => by simp only [result_stepPlan]) walked
  unfold activityPlan
  simp only [Logged.result_bind, Logged.result_ofExcept, Logged.result_mapM, Logged.result_pure,
    hsteps]
  rfl

theorem result_plan (lib : Library) (activities : List Activity) :
    (lib.plan activities).result = (activities.mapM fun a => a.stepCount.result) >>= fun _ =>
      activities.mapM fun a => (lib.activityPlan a).result := by
  unfold plan
  simp only [Logged.result_bind, Logged.result_mapM]

/-! ## Failures -/

theorem failure?_branchPlan (lib : Library) (b : Branch) :
    failure? (lib.branchPlan b).result = (lib.fault? b).map .fragment := by
  rw [result_branchPlan, failure?_bind_pure, failure?_mapError]
  rfl

theorem failure?_stepPlan (lib : Library) (bindings : Bindings) (index : Nat) (step : Step) :
    failure? (lib.stepPlan bindings index step).result =
      (lib.stepLoads bindings step).findSome? fun b => (lib.fault? b).map .fragment := by
  simp only [result_stepPlan, result_groupPlan, failure?_mapM, failure?_branchPlan, stepLoads,
    findSome?_flatMap]

end Library

/-- The walk of an activity, as a result. -/
theorem result_steps (a : Activity) :
    a.steps.result =
      match a.timing.walk.fault with
      | none => .ok a.timing.walk.steps
      | some v => .error (.violation v) := by
  show a.timing.walk.toExcept.mapError Error.violation = _
  unfold Walk.toExcept
  cases a.timing.walk.fault <;> rfl

theorem steps_eq_ok_iff {a : Activity} {steps : List Step} :
    a.steps.result = .ok steps ↔ a.timing.walk.fault = none ∧ steps = a.timing.walk.steps := by
  rw [result_steps]
  cases a.timing.walk.fault <;> simp [eq_comm]

theorem steps_eq_error_iff {a : Activity} {e : Error} :
    a.steps.result = .error e ↔ ∃ v, a.timing.walk.fault = some v ∧ e = .violation v := by
  rw [result_steps]
  cases a.timing.walk.fault <;> simp [eq_comm]

theorem failure?_stepCount (a : Activity) :
    failure? a.stepCount.result = a.timing.walk.fault.map .violation := by
  unfold Activity.stepCount
  rw [Logged.result_bind]
  simp only [Logged.result_pure]
  show failure? (a.steps.result >>= fun steps => pure steps.length) = _
  rw [failure?_bind_pure, result_steps]
  cases a.timing.walk.fault <;> rfl

namespace Library

theorem failure?_activityPlan (lib : Library) {a : Activity} (h : a.timing.walk.fault = none) :
    failure? (lib.activityPlan a).result =
      (a.timing.walk.steps.flatMap (lib.stepLoads a.bindings)).findSome? fun b =>
        (lib.fault? b).map .fragment := by
  rw [result_activityPlan, steps_eq_ok_iff.2 ⟨h, rfl⟩]
  show failure? ((a.timing.walk.steps.mapM fun step => (lib.stepPlan a.bindings 0 step).result) >>=
    fun steps => pure _) = _
  rw [failure?_bind_pure, failure?_mapM, findSome?_flatMap]
  simp only [failure?_stepPlan]

/-- How planning fails: with the first malformed timeline, else with the first fragment that cannot
be loaded. -/
theorem failure?_plan (lib : Library) (activities : List Activity) :
    failure? (lib.plan activities).result =
      ((activities.findSome? fun a => a.timing.walk.fault).map .violation).or
        (((lib.loads activities).findSome? lib.fault?).map .fragment) := by
  have hcounts : failure? (activities.mapM fun a => a.stepCount.result) =
      (activities.findSome? fun a => a.timing.walk.fault).map Error.violation := by
    simp only [failure?_mapM, failure?_stepCount, List.map_findSome?]
    rfl
  rw [result_plan]
  cases h : activities.mapM fun a => a.stepCount.result with
  | error e =>
    rw [h] at hcounts
    rw [← hcounts]
    rfl
  | ok counts =>
    rw [h, failure?_ok] at hcounts
    rw [← hcounts, Option.none_or]
    have hsound : ∀ a ∈ activities, a.timing.walk.fault = none :=
      List.findSome?_eq_none_iff.1 (Option.map_eq_none_iff.1 hcounts.symm)
    show failure? (activities.mapM fun a => (lib.activityPlan a).result) = _
    rw [failure?_mapM, ← List.head?_filterMap,
      List.filterMap_congr fun a ha => lib.failure?_activityPlan (hsound a ha),
      List.head?_filterMap, List.map_findSome?, loads, findSome?_flatMap]
    rfl

end Library

/-! ## Plans that succeed -/

/-- A branch with the fragment that was loaded for it. -/
structure BranchPlanned (lib : Library) (b : Branch) (p : BranchPlan) : Prop where
  topic : p.topic = b.service
  fragment : lib.load b = .ok p.fragment

/-- A group with one planned branch for each animation whose shape stands for a service. -/
def GroupPlanned (lib : Library) (bindings : Bindings) (fixed : Option Fragment.Role) (g : Group)
    (p : GroupPlan) : Prop :=
  List.Forall₂ (BranchPlanned lib) (branches bindings fixed g) p

/-- A step with its groups, the last one first. -/
def StepPlanned (lib : Library) (bindings : Bindings) (step : Step) (p : StepPlan) : Prop :=
  List.Forall₂ (GroupPlanned lib bindings (lib.policy.stepRole step)) step.reverse p

structure ActivityPlanned (lib : Library) (a : Activity) (p : ActivityPlan) : Prop where
  index : p.index = a.index
  sound : a.timing.walk.fault = none
  steps : List.Forall₂ (StepPlanned lib a.bindings) a.timing.walk.steps p.steps

namespace Library

theorem branchPlan_planned {lib : Library} {b : Branch} {p : BranchPlan}
    (h : (lib.branchPlan b).result = .ok p) : BranchPlanned lib b p := by
  rw [result_branchPlan] at h
  obtain ⟨fragment, hload, h⟩ := bind_eq_ok_iff.1 h
  cases h
  refine ⟨rfl, ?_⟩
  show lib.load b = .ok fragment
  cases hb : lib.load b with
  | error e => rw [hb] at hload; cases hload
  | ok f => rw [hb] at hload; cases hload; rfl

theorem stepPlan_planned {lib : Library} {bindings : Bindings} {index : Nat} {step : Step}
    {p : StepPlan} (h : (lib.stepPlan bindings index step).result = .ok p) :
    StepPlanned lib bindings step p := by
  rw [result_stepPlan, mapM_eq_ok_iff] at h
  refine h.imp fun g gp hg => ?_
  rw [result_groupPlan, mapM_eq_ok_iff] at hg
  exact hg.imp fun b bp hb => branchPlan_planned hb

theorem activityPlan_planned {lib : Library} {a : Activity} {p : ActivityPlan}
    (h : (lib.activityPlan a).result = .ok p) : ActivityPlanned lib a p := by
  rw [result_activityPlan] at h
  obtain ⟨walked, hwalked, h⟩ := bind_eq_ok_iff.1 h
  obtain ⟨steps, hsteps, h⟩ := bind_eq_ok_iff.1 h
  cases h
  obtain ⟨hsound, rfl⟩ := steps_eq_ok_iff.1 hwalked
  exact ⟨rfl, hsound, (mapM_eq_ok_iff.1 hsteps).imp fun step sp hs => stepPlan_planned hs⟩

/-- A plan follows the activities in order. -/
theorem plan_planned {lib : Library} {activities : List Activity} {plan : List ActivityPlan}
    (h : (lib.plan activities).result = .ok plan) :
    List.Forall₂ (ActivityPlanned lib) activities plan := by
  rw [result_plan] at h
  obtain ⟨-, -, h⟩ := bind_eq_ok_iff.1 h
  exact (mapM_eq_ok_iff.1 h).imp fun a p ha => activityPlan_planned ha

end Library

end SlideFlow.Compile
