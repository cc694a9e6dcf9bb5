/-
What the uses of a document make of its timelines. Summaries, simulation and compilation each walk
the timing trees of the slides on their own. A registry decides which shapes stand for services, but
never how time runs, so all three meet the same first defect, with the same report, and else count
the same steps (`uses_agree_on_timelines`).
-/
import SlideFlow.Proofs.Compile.Recompile
import SlideFlow.Proofs.Deck.Legible

namespace SlideFlow.Compile

open SlideFlow.Deck SlideFlow.Files SlideFlow.Flow SlideFlow.Ident SlideFlow.Timeline

variable {ρ σ : Type} [Source σ]

/-! ## Switches over steps -/

/-- The name of a switch over the steps of an activity, and the number of its rules. -/
def stepSwitch? (n : Node ρ) : Option (String × Nat) :=
  match n.kind with
  | .switch property _ rules _ =>
    if property = "execution.step" then some (n.name, rules.length) else none
  | _ => none

theorem GroupChart.stepSwitch?_nodes {c : GroupChart ρ} {next : ρ} {n : Node ρ}
    (hn : n ∈ c.nodes next) : stepSwitch? n = none := by
  simp only [nodes, BranchChart.nodes, List.cons_append, List.mem_cons, List.mem_append,
    List.mem_flatMap, List.mem_map, List.not_mem_nil, or_false] at hn
  rcases hn with rfl | ⟨b, -, ⟨p, -, rfl⟩ | rfl⟩ | rfl
  · rfl
  · obtain ⟨properties, hkind⟩ := b.copyNode_kind p
    simp [stepSwitch?, hkind]
  · rfl
  · rfl

theorem StepChart.stepSwitch?_nodes {c : StepChart ρ} {back : ρ} {n : Node ρ}
    (hn : n ∈ c.nodes back) : stepSwitch? n = none := by
  rcases List.mem_append.1 hn with hn | hn
  · obtain ⟨g, -, next, hn⟩ := mem_nodes_of_mem_chainNodes hn
    exact g.stepSwitch?_nodes hn
  · rw [List.mem_singleton.1 hn]
    rfl

/-- An activity has one switch over its steps, with a rule for each. -/
theorem ActivityChart.filterMap_stepSwitch? (c : ActivityChart ρ) (respond : ρ) :
    (c.nodes respond).filterMap stepSwitch? =
      [(s!"activity {c.index} step", c.steps.length)] := by
  have hsteps : (c.steps.flatMap (·.nodes c.back)).filterMap stepSwitch? = [] := by
    rw [List.filterMap_eq_nil_iff]
    intro n hn
    obtain ⟨s, -, hn⟩ := List.mem_flatMap.1 hn
    exact s.stepSwitch?_nodes hn
  have hback : stepSwitch? (c.backNode respond) = none := rfl
  have hswitch : stepSwitch? c.switchNode =
      some (s!"activity {c.index} step", c.steps.length) := by
    simp [stepSwitch?, switchNode, Node.selector]
  rw [nodes, List.cons_append, List.filterMap_cons_none hback, List.filterMap_append, hsteps,
    List.nil_append, List.filterMap_cons_some hswitch]
  rfl

theorem FlowChart.filterMap_stepSwitch? (c : FlowChart ρ) (route method : String) :
    (c.nodes route method).filterMap stepSwitch? =
      c.activities.map fun a => (s!"activity {a.index} step", a.steps.length) := by
  have hactivities : (c.activities.flatMap (·.nodes c.respond)).filterMap stepSwitch? =
      c.activities.map fun a => (s!"activity {a.index} step", a.steps.length) := by
    simp only [List.filterMap_flatMap, ActivityChart.filterMap_stepSwitch?]
    exact List.map_eq_flatMap.symm
  have hswitch : stepSwitch? c.switchNode = none := by
    simp [stepSwitch?, switchNode, Node.selector]
  have hends : [c.finishedNode, c.switchNode, c.counterNode,
      .httpIn c.request route method c.counter].filterMap stepSwitch? = [] := by
    rw [List.filterMap_cons_none rfl, List.filterMap_cons_none hswitch]
    rfl
  rw [nodes, List.cons_append, List.cons_append, List.filterMap_cons_none rfl,
    List.filterMap_cons_none rfl, List.filterMap_append, hactivities, hends, List.append_nil]

/-- The switches of a compiled flow over the steps of its activities, in the order of these. -/
theorem stepSwitches_of_compile {options : Options} {files : Tree} {pool : Pool σ}
    {activities : List Activity} {nodes : List (Node String)}
    (h : (compile options files pool activities).result = .ok nodes) :
    nodes.filterMap stepSwitch? = activities.map fun a =>
      (s!"activity {a.index} step", a.timing.walk.steps.length) := by
  obtain ⟨plan, name, hplan, rfl, -⟩ := compile_eq_ok h
  have hsame : ((flowChart plan).map name).plan = plan := by
    rw [FlowChart.plan_map, plan_flowChart]
  have hplanned := Library.plan_planned hplan
  rw [← hsame, FlowChart.plan, List.forall₂_map_right_iff] at hplanned
  rw [FlowChart.filterMap_stepSwitch?, ← List.forall₂_eq_eq_eq, List.forall₂_map_right_iff,
    List.forall₂_map_left_iff]
  refine hplanned.flip.imp fun ac a ha => ?_
  have hindex : ac.index = a.index := ha.index
  have hlength : ac.steps.length = a.timing.walk.steps.length := by
    rw [ha.steps.length_eq, ActivityChart.plan, List.length_map]
  rw [hindex, hlength]

end SlideFlow.Compile

namespace SlideFlow.Deck

open SlideFlow.Compile SlideFlow.Files SlideFlow.Flow SlideFlow.Ident SlideFlow.Markup
open SlideFlow.Service SlideFlow.Timeline

variable {σ : Type} [Source σ] {registry : Registry} {d : Document} {activities : List Activity}

/-! ## Timelines of a document -/

/-- The number and the timing of each slide. -/
def timings (d : Document) : List (Int × Timing) :=
  d.mapIdx fun i s => ((i + 1 : Nat), .tree (firstTagged? s.element "p:timing"))

theorem Slide.timing_of_activity {index : Nat} {s : Slide} {a : Activity}
    (h : (s.activity registry index).result = .ok a) :
    a.index = index ∧ a.timing = .tree (firstTagged? s.element "p:timing") := by
  unfold activity Activity.ofElements at h
  simp only [Logged.result_bind, Logged.result_ofExcept, Logged.result_report, Logged.result_pure]
    at h
  obtain ⟨found, -, h⟩ := bind_eq_ok_iff.1 h
  obtain ⟨made, hmade, h⟩ := bind_eq_ok_iff.1 h
  obtain ⟨-, -, hmade⟩ := bind_eq_ok_iff.1 hmade
  obtain ⟨transition, -, hmade⟩ := bind_eq_ok_iff.1 hmade
  cases hmade
  cases h
  exact ⟨rfl, rfl⟩

/-- A registry has no say in the timings that are loaded. -/
theorem timings_of_loadActivities (h : (loadActivities registry d).result = .ok activities) :
    activities.map (fun a => (a.index, a.timing)) = timings d := by
  rw [loadActivities, Logged.result_mapM, mapM_eq_ok_iff, slideActivities,
    List.mapIdx_eq_zipIdx_map, List.forall₂_map_left_iff] at h
  rw [timings, List.mapIdx_eq_zipIdx_map, ← List.forall₂_eq_eq_eq, List.forall₂_map_right_iff,
    List.forall₂_map_left_iff]
  refine h.flip.imp fun a s hs => ?_
  obtain ⟨hindex, htiming⟩ := Slide.timing_of_activity hs
  rw [hindex, htiming]

/-- The first defect in the timelines of a document. -/
def fault? (d : Document) : Option Violation := (timings d).findSome? fun t => t.2.walk.fault

/-- The numbers of steps of the slides. -/
def stepCounts (d : Document) : List Nat := (timings d).map fun t => t.2.walk.steps.length

/-! ## Uses of a document -/

/-- A use that walks each timeline in turn fails with the first defect. -/
theorem failure?_of_walks {α : Type} {use : Activity → Except Error α}
    (huse : ∀ a, failure? (use a) = a.timing.walk.fault.map .violation)
    (h : activities.map (fun a => (a.index, a.timing)) = timings d) :
    failure? (activities.mapM use) = (fault? d).map .violation := by
  rw [failure?_mapM, fault?, ← h, List.findSome?_map, List.map_findSome?]
  simp only [huse]
  rfl

theorem simulate_eq_error_iff (h : activities.map (fun a => (a.index, a.timing)) = timings d)
    (calls : Nat) (session : String) (v : Violation) :
    (simulate activities calls session).result = .error (.violation v) ↔ fault? d = some v := by
  have hcounts := failure?_of_walks failure?_stepCount h
  rw [← failure?_eq_some_iff, simulate, Logged.result_bind, Logged.result_mapM]
  simp only [Logged.result_pure]
  rw [show failure? ((activities.mapM fun a => a.stepCount.result) >>= fun counts =>
    Except.ok ((Counter.ofCounts (counts.map Int.ofNat)).executeMany calls session).1) = _ from
    failure?_bind_pure .., hcounts]
  simp

theorem summaries_eq_error_iff (h : activities.map (fun a => (a.index, a.timing)) = timings d)
    (v : Violation) :
    (activities.mapM Activity.summary).result = .error (.violation v) ↔ fault? d = some v := by
  rw [← failure?_eq_some_iff, Logged.result_mapM, failure?_of_walks failure?_summary h]
  simp

theorem compile_eq_error_iff (h : activities.map (fun a => (a.index, a.timing)) = timings d)
    (options : Options) (files : Tree) (pool : Pool σ) (v : Violation) :
    (compile options files pool activities).result = .error (.violation v) ↔ fault? d = some v := by
  have hfault : activities.findSome? (fun a => a.timing.walk.fault) = fault? d := by
    rw [fault?, ← h, List.findSome?_map]
    rfl
  have hplan := (options.library files).failure?_plan activities
  rw [hfault] at hplan
  rw [result_compile]
  cases hresult : ((options.library files).plan activities).result with
  | error e =>
    rw [hresult, failure?_error] at hplan
    show (Except.error e : Except Error (List (Node String))) = _ ↔ _
    -- a fragment that is missing is met only if no timeline is malformed
    cases hd : fault? d with
    | some w =>
      rw [hd] at hplan
      cases hplan
      simp
    | none =>
      rw [hd] at hplan
      obtain ⟨f, -, rfl⟩ := Option.map_eq_some_iff.1 hplan.symm
      simp
  | ok plan =>
    rw [hresult, failure?_ok] at hplan
    rw [Option.map_eq_none_iff.1 (Option.or_eq_none_iff.1 hplan.symm).1]
    simp only [bind, Except.bind]
    cases pool.nexts (activitiesSize plan + 6) <;> simp

/-! ## Sound timelines -/

/-- A use of each sound activity gives one result for each. -/
theorem mapM_of_sound {α : Type} {use : Activity → Except Error α} {give : Activity → α}
    (huse : ∀ a, a.timing.walk.fault = none → use a = .ok (give a))
    (h : activities.map (fun a => (a.index, a.timing)) = timings d) (hsound : fault? d = none) :
    activities.mapM use = .ok (activities.map give) := by
  rw [fault?, ← h, List.findSome?_map, List.findSome?_eq_none_iff] at hsound
  rw [mapM_eq_ok_iff, List.forall₂_map_right_iff, List.forall₂_same]
  exact fun a ha => huse a (hsound a ha)

theorem stepCounts_eq_map (h : activities.map (fun a => (a.index, a.timing)) = timings d) :
    stepCounts d = activities.map fun a => a.timing.walk.steps.length := by
  rw [stepCounts, ← h, List.map_map]
  rfl

theorem result_stepCounts (h : activities.map (fun a => (a.index, a.timing)) = timings d)
    (hsound : fault? d = none) : (activities.mapM Activity.stepCount).result = .ok (stepCounts d) := by
  rw [Logged.result_mapM, stepCounts_eq_map h]
  refine mapM_of_sound (fun a ha => ?_) h hsound
  rw [Activity.stepCount, Logged.result_bind, steps_eq_ok_iff.2 ⟨ha, rfl⟩]
  rfl

/-- The number of steps that a summary lists. -/
def listedSteps? (summary : Json) : Option Nat :=
  ((summary.get? "steps").bind Json.arr?).map List.length

theorem listedSteps?_summaryOf (a : Activity) (steps : List Step) :
    listedSteps? (a.summaryOf steps) = some steps.length := by
  have hget : (a.summaryOf steps).get? "steps" =
      some (.arr (steps.map (Activity.stepJson a.bindings))) := rfl
  simp [listedSteps?, hget, Json.arr?]

theorem result_summaries (h : activities.map (fun a => (a.index, a.timing)) = timings d)
    (hsound : fault? d = none) : ∃ summaries,
      (activities.mapM Activity.summary).result = .ok summaries ∧
        summaries.map listedSteps? = (stepCounts d).map some := by
  refine ⟨activities.map fun a => a.summaryOf a.timing.walk.steps, ?_, ?_⟩
  · rw [Logged.result_mapM]
    refine mapM_of_sound (fun a ha => ?_) h hsound
    rw [Activity.summary, Logged.result_bind, steps_eq_ok_iff.2 ⟨ha, rfl⟩]
    rfl
  · rw [stepCounts_eq_map h, List.map_map, List.map_map]
    exact List.map_congr_left fun a _ => listedSteps?_summaryOf a _

theorem stepSwitches_eq (h : activities.map (fun a => (a.index, a.timing)) = timings d)
    {options : Options} {files : Tree} {pool : Pool σ} {nodes : List (Node String)}
    (hnodes : (compile options files pool activities).result = .ok nodes) :
    nodes.filterMap stepSwitch? =
      (stepCounts d).mapIdx fun i n => (s!"activity {i + 1} step", n) := by
  have hpairs : (activities.map fun a => (s!"activity {a.index} step", a.timing.walk.steps.length)) =
      (timings d).map fun t => (s!"activity {t.1} step", t.2.walk.steps.length) := by
    rw [← h, List.map_map]
    rfl
  rw [stepSwitches_of_compile hnodes, hpairs, stepCounts, timings]
  refine List.ext_getElem (by simp) fun i _ _ => ?_
  simp only [List.getElem_map, List.getElem_mapIdx]
  rfl

/-! ## Agreement -/

/-- A policy by its name, or else that of the settings, is a policy. -/
theorem ofName?_wished (policy : Option Policy) (setting : Policy) :
    Policy.ofName? (wished (policy.map Policy.name) setting.name) = some (policy.getD setting) := by
  have hname : ∀ p : Policy, Policy.ofName? p.name = some p := by
    intro p
    cases p <;> rfl
  cases policy with
  | none => exact hname setting
  | some p =>
    cases p with
    | perBranch => exact hname .perBranch
    | perStep => exact hname .perStep

/-- The options of a caller who asks for a directory and a policy. -/
def wishedOptions (settings : Settings) (directory : Option String) (policy : Option Policy) :
    Options where
  directory := wished directory settings.fragmentsDirectory
  route := settings.route
  method := Text.lower settings.method
  policy := policy.getD settings.policy

/-- The identifiers for a caller who asks for a seed. -/
def wishedPool {σ : Type} (pools : Int → Pool σ) (settings : Settings) (seed : Option Int)
    (spare : Int) : Pool σ :=
  pools ((seed.or settings.seed).getD spare)

/-- Compiling a document is compiling its activities. -/
theorem result_compileFrom {σ : Type} [Source σ] (pools : Int → Pool σ)
    (hload : (loadActivities registry d).result = .ok activities) (settings : Settings)
    (directory : Option String) (policy : Option Policy) (seed : Option Int) (spare : Int)
    (files : Tree) :
    (compileFrom pools settings ⟨directory, policy.map Policy.name, seed⟩ spare files registry
        (.ok d)).result =
      (compile (wishedOptions settings directory policy) files (wishedPool pools settings seed spare)
        activities).result := by
  unfold compileFrom Options.make openDocument
  simp only [ofName?_wished, Logged.result_bind, Logged.result_ofExcept]
  show ((loadActivities registry d).result >>= fun found => _) = _
  rw [hload]
  rfl

/-- The three uses of a document agree on its timelines, under any two registries. They fail for a
timeline in the same cases and with the same report. If they do not, the counts that a simulation
steps through are the lengths of the lists of steps in the summaries, and the numbers of rules of the
switches over steps in the compiled flow, activity by activity. -/
theorem uses_agree_on_timelines {one : Registry}
    (hload : (loadActivities one d).result = .ok activities) (other : Registry) :
    ∃ others, (loadActivities other d).result = .ok others ∧
      ∀ (calls : Nat) (session : String) (settings : Settings) (directory : Option String)
        (policy : Option Policy) (seed : Option Int) (spare : Int) (files : Tree),
        let simulated := (simulate activities calls session).result
        let summarised := (others.mapM Activity.summary).result
        let compiled := (compileDocument settings ⟨directory, policy.map Policy.name, seed⟩ spare
          files other (.ok d)).result
        (∀ v, (simulated = .error (.violation v) ↔ summarised = .error (.violation v)) ∧
          (simulated = .error (.violation v) ↔ compiled = .error (.violation v))) ∧
        ((∀ v, simulated ≠ .error (.violation v)) →
          ∃ counts, (activities.mapM Activity.stepCount).result = .ok counts ∧
            simulated = .ok ((Counter.ofCounts (counts.map Int.ofNat)).executeMany calls session).1 ∧
            (∃ summaries, summarised = .ok summaries ∧
              summaries.map listedSteps? = counts.map some) ∧
            ∀ nodes, compiled = .ok nodes → nodes.filterMap stepSwitch? =
              counts.mapIdx fun i n => (s!"activity {i + 1} step", n)) := by
  have hlegible := (loadActivities_eq_ok_iff one d).1 ⟨_, hload⟩
  obtain ⟨others, hothers⟩ := (loadActivities_eq_ok_iff other d).2 hlegible
  have htimed := timings_of_loadActivities hload
  have htimed' := timings_of_loadActivities hothers
  refine ⟨others, hothers, ?_⟩
  intro calls session settings directory policy seed spare files simulated summarised compiled
  have hcompile : compiled = (compile (wishedOptions settings directory policy) files
      (wishedPool Pool.ofSeed settings seed spare) others).result :=
    result_compileFrom Pool.ofSeed hothers settings directory policy seed spare files
  have hsimulate := simulate_eq_error_iff htimed calls session
  refine ⟨fun v => ⟨?_, ?_⟩, fun hnone => ?_⟩
  · rw [hsimulate, summaries_eq_error_iff htimed']
  · rw [hsimulate, hcompile, compile_eq_error_iff htimed']
  · have hsound : fault? d = none := by
      rw [Option.eq_none_iff_forall_ne_some]
      exact fun v hv => hnone v ((hsimulate v).2 hv)
    refine ⟨stepCounts d, result_stepCounts htimed hsound, ?_, result_summaries htimed' hsound, ?_⟩
    · show (simulate activities calls session).result = _
      rw [simulate, Logged.result_bind, result_stepCounts htimed hsound]
      rfl
    · intro nodes hnodes
      exact stepSwitches_eq htimed' (hcompile ▸ hnodes)

/-- A slide with a lamp, and these elements as its timing. -/
def timedSlide (timing : List Element) : Slide where
  element := ⟨some (fullName "p:sld"), [], [
    ⟨some (fullName "p:cNvPr"), [("id", "4"), ("descr", "lamp")], []⟩,
    ⟨some (fullName "p:timing"), [], timing⟩]⟩
  title := none

/-- A time node that waits for a click and shows the lamp. -/
def lampClick : Element :=
  ⟨some "cTn", [("nodeType", "clickEffect")], [⟨some "childTnLst", [], [⟨some "set", [], [
    ⟨some "cBhvr", [], [⟨some "tgtEl", [], [⟨some "spTgt", [("spid", "4")], []⟩]⟩]⟩]⟩]⟩]⟩

/-- A step of one group, in which the click stands. -/
def lampStep : Element :=
  ⟨some "childTnLst", [], [⟨some "par", [], [⟨some "cTn", [], [⟨some "childTnLst", [], [
    ⟨some "par", [], [lampClick]⟩]⟩]⟩]⟩]⟩

/-- A slide with two steps is compiled to a switch with two rules. If a click that stands in no group
follows on the next slide, that is what compiling reports, as a simulation under another registry
does. -/
theorem uses_agree_on_timelines_lamp :
    (∀ (other : Registry) (files : Tree) (nodes : List (Node String)),
      (compileDocument .defaults ⟨none, none, some 7⟩ 0 files other
        (.ok [timedSlide [lampStep, lampStep]])).result = .ok nodes →
      nodes.filterMap stepSwitch? = [("activity 1 step", 2)]) ∧
    ∀ (other : Registry) (files : Tree), (compileDocument .defaults ⟨none, none, some 7⟩ 0 files other
      (.ok [timedSlide [lampStep, lampStep], timedSlide [lampClick]])).result =
        .error (.violation (.ancestry "<cTn>" 1 "par" "shape block" "<timing>")) := by
  constructor
  · intro other files nodes hnodes
    obtain ⟨activities, hload⟩ : ∃ activities, (loadActivities .empty
        [timedSlide [lampStep, lampStep]]).result = .ok activities := ⟨_, rfl⟩
    have hsound : fault? [timedSlide [lampStep, lampStep]] = none := by decide +kernel
    have htwo : stepCounts [timedSlide [lampStep, lampStep]] = [2] := by decide +kernel
    have htimed := timings_of_loadActivities hload
    obtain ⟨others, -, hagree⟩ := uses_agree_on_timelines hload other
    obtain ⟨counts, hcounts, -, -, hswitches⟩ :=
      (hagree 1 "default" .defaults none none (some 7) 0 files).2 fun v hv => by
        rw [simulate_eq_error_iff htimed, hsound] at hv
        cases hv
    rw [result_stepCounts htimed hsound, htwo] at hcounts
    cases hcounts
    exact hswitches nodes hnodes
  · intro other files
    obtain ⟨activities, hload⟩ : ∃ activities, (loadActivities .empty
        [timedSlide [lampStep, lampStep], timedSlide [lampClick]]).result = .ok activities :=
      ⟨_, rfl⟩
    have hfault : fault? [timedSlide [lampStep, lampStep], timedSlide [lampClick]] =
        some (.ancestry "<cTn>" 1 "par" "shape block" "<timing>") := by decide +kernel
    have htimed := timings_of_loadActivities hload
    obtain ⟨others, -, hagree⟩ := uses_agree_on_timelines hload other
    apply (((hagree 1 "default" .defaults none none (some 7) 0 files).1 _).2).1
    exact (simulate_eq_error_iff htimed 1 "default" _).2 hfault

end SlideFlow.Deck
