/-
What compiling comes to. The nodes of a flow are the nodes of a chart whose names are identifiers
that the pool gave out (`compile_eq_ok`). Compiling fails as planning fails, and in no other way as
long as the pool gives out identifiers (`compile_outcome`): a wire never dangles and an identifier
is never used twice.
-/
import SlideFlow.Compile.Basic
import SlideFlow.Proofs.Compile.Assembly
import SlideFlow.Proofs.Compile.Plan

namespace SlideFlow.Compile

open SlideFlow.Deck SlideFlow.Files SlideFlow.Flow SlideFlow.Ident SlideFlow.Timeline

/-- Where the fragments of a flow are kept and how their roles are chosen. -/
def Options.library (options : Options) (files : Tree) : Library where
  files := files
  directory := options.directory
  policy := options.policy

variable {σ : Type} [Source σ]

/-- A plan is put under identifiers; that can fail for want of identifiers only. -/
theorem result_compile (options : Options) (files : Tree) (pool : Pool σ)
    (activities : List Activity) :
    (compile options files pool activities).result =
      ((options.library files).plan activities).result >>= fun plan =>
        match pool.nexts (activitiesSize plan + 6) with
        | none => .error (.flow .exhausted)
        | some (ids, _) =>
          .ok (((flowChart plan).map fun i => ids.getD i "").nodes options.route options.method) := by
  unfold compile
  simp only [Logged.result_bind, Logged.result_ofExcept, Logged.result_report, Logged.result_pure]
  congr 1
  funext plan
  rw [assemble_eq_build, build_eq pool (layout_placed options.route options.method plan), length_layout]
  cases pool.nexts (activitiesSize plan + 6) with
  | none => rfl
  | some drawn =>
    simp only [layout_eq, FlowChart.nodes_map]
    rfl

/-- The nodes of a flow are those of the chart of its plan, under the identifiers that the pool gave
out, one for each node in order. -/
theorem compile_drawn {options : Options} {files : Tree} {pool : Pool σ}
    {activities : List Activity} {nodes : List (Node String)}
    (h : (compile options files pool activities).result = .ok nodes) :
    ∃ (plan : List ActivityPlan) (ids : List String) (pool' : Pool σ) (name : Nat → String),
      ((options.library files).plan activities).result = .ok plan ∧
      pool.nexts (activitiesSize plan + 6) = some (ids, pool') ∧
      nodes = ((flowChart plan).map name).nodes options.route options.method ∧
      ((flowChart plan).map name).names = ids := by
  rw [result_compile] at h
  obtain ⟨plan, hplan, h⟩ := bind_eq_ok_iff.1 h
  cases hd : pool.nexts (activitiesSize plan + 6) with
  | none => rw [hd] at h; cases h
  | some drawn =>
    obtain ⟨ids, p⟩ := drawn
    rw [hd] at h
    cases h
    refine ⟨plan, ids, p, fun i => ids.getD i "", hplan, hd, rfl, ?_⟩
    rw [FlowChart.names_map, names_flowChart, ← (Pool.nexts_fresh hd).length, map_getD_range]

/-- The nodes of a flow are those of the chart of its plan, under different identifiers. -/
theorem compile_eq_ok {options : Options} {files : Tree} {pool : Pool σ}
    {activities : List Activity} {nodes : List (Node String)}
    (h : (compile options files pool activities).result = .ok nodes) :
    ∃ (plan : List ActivityPlan) (name : Nat → String),
      ((options.library files).plan activities).result = .ok plan ∧
      nodes = ((flowChart plan).map name).nodes options.route options.method ∧
      ((flowChart plan).map name).names.Nodup := by
  obtain ⟨plan, ids, pool', name, hplan, hd, hnodes, hnames⟩ := compile_drawn h
  refine ⟨plan, name, hplan, hnodes, ?_⟩
  rw [hnames]
  exact (Pool.nexts_fresh hd).nodup

/-- Compiling fails as planning does, if there are identifiers for every node. -/
theorem failure?_compile {options : Options} {files : Tree} {pool : Pool σ}
    {activities : List Activity}
    (hids : ∀ plan, ((options.library files).plan activities).result = .ok plan →
      pool.nexts (layout options.route options.method plan).length ≠ none) :
    failure? (compile options files pool activities).result =
      failure? ((options.library files).plan activities).result := by
  rw [result_compile]
  cases hplan : ((options.library files).plan activities).result with
  | error e => rfl
  | ok plan =>
    have hdraw := hids plan hplan
    rw [length_layout] at hdraw
    obtain ⟨drawn, hd⟩ := Option.ne_none_iff_exists'.1 hdraw
    simp only [bind, Except.bind, hd]
    rfl

/-- A branch of a presentation is the branch of a bound animation. -/
theorem Library.mem_stepLoads (lib : Library) {bindings : Service.Bindings} {step : Step}
    {b : Branch} : b ∈ lib.stepLoads bindings step ↔
      ∃ g ∈ step, ∃ x ∈ g, ∃ service, Ordered.get? x.shape bindings = some service ∧
        { shape := x.shape, service, role := lib.policy.role step x } = b := by
  simp only [stepLoads, List.mem_flatMap, List.mem_reverse, branches, List.mem_filterMap, branchOf,
    Option.map_eq_some_iff, Policy.role]

theorem Library.mem_loads {lib : Library} {activities : List Activity} {b : Branch} :
    b ∈ lib.loads activities ↔
      ∃ a ∈ activities, ∃ step ∈ a.timing.walk.steps, b ∈ lib.stepLoads a.bindings step := by
  simp only [loads, List.mem_flatMap]

/-- Planning succeeds exactly if no timeline is malformed and every bound animation has a fragment. -/
theorem Library.failure?_plan_eq_none_iff (lib : Library) (activities : List Activity) :
    failure? (lib.plan activities).result = none ↔
      ∀ a ∈ activities, ∃ steps, a.steps.result = .ok steps ∧ ∀ step ∈ steps, ∀ g ∈ step, ∀ x ∈ g,
        ∀ service, Ordered.get? x.shape a.bindings = some service →
          ∃ f, (Fragment.loadFor lib.files lib.directory service (lib.policy.role step x)).result =
            .ok f := by
  rw [failure?_plan, Option.or_eq_none_iff, Option.map_eq_none_iff, Option.map_eq_none_iff,
    List.findSome?_eq_none_iff, List.findSome?_eq_none_iff]
  constructor
  · rintro ⟨hsound, hloads⟩ a ha
    refine ⟨a.timing.walk.steps, steps_eq_ok_iff.2 ⟨hsound a ha, rfl⟩, ?_⟩
    intro step hstep g hg x hx service hservice
    have hb := lib.mem_stepLoads.2 ⟨g, hg, x, hx, service, hservice, rfl⟩
    have hnone := hloads _ (mem_loads.2 ⟨a, ha, step, hstep, hb⟩)
    unfold fault? load at hnone
    exact failure?_eq_none_iff.1 hnone
  · intro h
    refine ⟨fun a ha => ?_, fun b hb => ?_⟩
    · obtain ⟨steps, hsteps, -⟩ := h a ha
      exact (steps_eq_ok_iff.1 hsteps).1
    · obtain ⟨a, ha, step, hstep, hb⟩ := mem_loads.1 hb
      obtain ⟨g, hg, x, hx, service, hservice, rfl⟩ := lib.mem_stepLoads.1 hb
      obtain ⟨steps, hsteps, hfiles⟩ := h a ha
      obtain ⟨-, rfl⟩ := steps_eq_ok_iff.1 hsteps
      unfold fault? load
      exact failure?_eq_none_iff.2 (hfiles step hstep g hg x hx service hservice)

/-- The exact outcome of compiling, if the pool has an identifier for every node. It succeeds if and
only if every timeline is sound and every bound animation has a fragment that loads. Otherwise it
fails with the violation of the first malformed timeline, whatever the fragments are, and else with
the fault of the first fragment in the order of loading: activity by activity, step by step, the
last group of a step first, branch by branch. It never fails for the graph itself. -/
theorem compile_outcome (options : Options) (files : Tree) (pool : Pool σ)
    (activities : List Activity)
    (hids : ∀ plan, ((options.library files).plan activities).result = .ok plan →
      pool.nexts (layout options.route options.method plan).length ≠ none) :
    ((∃ nodes, (compile options files pool activities).result = .ok nodes) ↔
      ∀ a ∈ activities, ∃ steps, a.steps.result = .ok steps ∧ ∀ step ∈ steps, ∀ g ∈ step, ∀ x ∈ g,
        ∀ service, Ordered.get? x.shape a.bindings = some service →
          ∃ f, (Fragment.loadFor files options.directory service
            (options.policy.role step x)).result = .ok f) ∧
    (∀ before a after e, activities = before ++ a :: after →
      (∀ b ∈ before, ∃ steps, b.steps.result = .ok steps) → a.steps.result = .error e →
      (∃ v, e = .violation v) ∧ (compile options files pool activities).result = .error e) ∧
    ((∀ a ∈ activities, ∃ steps, a.steps.result = .ok steps) →
      ∀ before b after e, (options.library files).loads activities = before ++ b :: after →
        (∀ b' ∈ before, ∃ f, (options.library files).load b' = .ok f) →
        (options.library files).load b = .error e →
        (compile options files pool activities).result = .error (.fragment e)) ∧
    ∀ why, (compile options files pool activities).result ≠ .error (.flow why) := by
  have hfail := failure?_compile hids
  have hplan := (options.library files).failure?_plan activities
  refine ⟨?_, ?_, ?_, ?_⟩
  · rw [← failure?_eq_none_iff, hfail]
    exact (options.library files).failure?_plan_eq_none_iff activities
  · -- steps are counted before any fragment is loaded
    rintro before a after e hsplit hbefore ha
    obtain ⟨v, hv, rfl⟩ := steps_eq_error_iff.1 ha
    have hfirst : (activities.findSome? fun a => a.timing.walk.fault) = some v := by
      refine List.findSome?_eq_some_iff.2 ⟨before, a, after, hsplit, hv, fun b hb => ?_⟩
      obtain ⟨steps, hsteps⟩ := hbefore b hb
      exact (steps_eq_ok_iff.1 hsteps).1
    refine ⟨⟨v, rfl⟩, failure?_eq_some_iff.1 ?_⟩
    rw [hfail, hplan, hfirst]
    rfl
  · -- once all steps are counted, the first load that fails decides
    intro hsound before b after e hsplit hbefore hb
    have hnone : (activities.findSome? fun a => a.timing.walk.fault) = none := by
      refine List.findSome?_eq_none_iff.2 fun a ha => ?_
      obtain ⟨steps, hsteps⟩ := hsound a ha
      exact (steps_eq_ok_iff.1 hsteps).1
    have hfirst : ((options.library files).loads activities).findSome?
        (options.library files).fault? = some e := by
      refine List.findSome?_eq_some_iff.2 ⟨before, b, after, hsplit, ?_, fun b' hb' => ?_⟩
      · exact failure?_eq_some_iff.2 hb
      · exact failure?_eq_none_iff.2 (hbefore b' hb')
    apply failure?_eq_some_iff.1
    rw [hfail, hplan, hnone, hfirst]
    rfl
  · -- a failure comes from a timeline or from a fragment
    intro why h
    rw [← failure?_eq_some_iff, hfail, hplan] at h
    rcases Option.or_eq_some_iff.1 h with h | ⟨-, h⟩
    · obtain ⟨v, -, hv⟩ := Option.map_eq_some_iff.1 h
      cases hv
    · obtain ⟨e, -, he⟩ := Option.map_eq_some_iff.1 h
      cases he

/-! ## A small presentation

One click on the first slide turns on a lamp, for which two shapes stand, and then rings a bell; shape
five stands for nothing. The second slide has no steps. -/

def lampOptions : Options where
  directory := "services"
  route := "/execute_next"
  method := "post"
  policy := .perBranch

def lampFragment : String :=
  "\x7b\"meta\":\x7b\"in\":\"a\",\"out\":\"b\"\x7d,\"flow\":[" ++
    "\x7b\"id\":\"a\",\"type\":\"t\",\"wires\":[[\"b\"]]\x7d,\x7b\"id\":\"b\",\"type\":\"t\"\x7d]\x7d"

def bellFragment : String :=
  "\x7b\"meta\":\x7b\"in\":\"a\",\"out\":\"a\"\x7d,\"flow\":[\x7b\"id\":\"a\",\"type\":\"t\"\x7d]\x7d"

def lampFiles : Tree where
  workingPathBytes := 16
  entries := [(["services"], .directory),
    (["services", "lamp-activation.json"], .file (.text lampFragment)),
    (["services", "bell-activation.json"], .file (.text bellFragment))]

/-- The same files with another fragment for the lamp. -/
def filesWithLamp (fragment : String) : Tree where
  workingPathBytes := 16
  entries := [(["services"], .directory),
    (["services", "lamp-activation.json"], .file (.text fragment)),
    (["services", "bell-activation.json"], .file (.text bellFragment))]

def lampBindings : Service.Bindings := [(2, "lamp"), (3, "bell"), (4, "lamp")]

def lampGroup : Group := [⟨2, .entrance, none⟩, ⟨5, .entrance, none⟩, ⟨4, .entrance, none⟩]

def bellGroup : Group := [⟨3, .entrance, none⟩]

def lampDeck : List Activity :=
  [{ index := 1
     timing := .given [[lampGroup, bellGroup]]
     bindings := lampBindings
     transition := none
     title := "" },
   { index := 2, timing := .tree none, bindings := [], transition := none, title := "" }]

/-- Identifiers from a twister that has just begun a block. -/
def lampPool : Pool Twister :=
  .ofSource { block := (Array.range 64).map UInt32.ofNat, used := 0 }

theorem lampDeck_plan : ∃ plan, ((lampOptions.library lampFiles).plan lampDeck).result = .ok plan ∧
    activitiesSize plan = 17 := by
  have hsize : (match ((lampOptions.library lampFiles).plan lampDeck).result with
      | .ok plan => activitiesSize plan
      | .error _ => 0) = 17 := by decide +kernel
  cases hplan : ((lampOptions.library lampFiles).plan lampDeck).result with
  | error e => rw [hplan] at hsize; cases hsize
  | ok plan => rw [hplan] at hsize; exact ⟨plan, rfl, hsize⟩

theorem lampDeck_ids (plan : List ActivityPlan)
    (hplan : ((lampOptions.library lampFiles).plan lampDeck).result = .ok plan) :
    lampPool.nexts (layout lampOptions.route lampOptions.method plan).length ≠ none := by
  obtain ⟨plan', hplan', hsize⟩ := lampDeck_plan
  rw [hplan] at hplan'
  cases hplan'
  rw [length_layout, hsize]
  decide +kernel

theorem lampDeck_compiles :
    ∃ nodes, (compile lampOptions lampFiles lampPool lampDeck).result = .ok nodes := by
  obtain ⟨plan, hplan, -⟩ := lampDeck_plan
  rw [← failure?_eq_none_iff, failure?_compile lampDeck_ids, hplan]
  rfl

/-- With its fragments the presentation compiles. Without them the bell is missed first, because its
group is the last one of the step. -/
theorem compile_outcome_lampDeck :
    (∃ nodes, (compile lampOptions lampFiles lampPool lampDeck).result = .ok nodes) ∧
    (compile lampOptions .empty lampPool lampDeck).result =
      .error (.fragment (.unreadable "services/bell-activation.json"
        (.missing "services/bell-activation.json"))) := by
  have hmissing : (lampOptions.library .empty).load ⟨3, "bell", .activation⟩ =
      .error (.unreadable "services/bell-activation.json"
        (.missing "services/bell-activation.json")) := rfl
  have hloads : (lampOptions.library .empty).loads lampDeck =
      [] ++ ⟨3, "bell", .activation⟩ ::
        [⟨2, "lamp", .activation⟩, ⟨4, "lamp", .activation⟩] := by decide +kernel
  have hsound : ∀ a ∈ lampDeck, ∃ steps, a.steps.result = .ok steps := by
    intro a ha
    simp only [lampDeck, List.mem_cons, List.not_mem_nil, or_false] at ha
    rcases ha with rfl | rfl
    · exact ⟨_, rfl⟩
    · exact ⟨_, rfl⟩
  have hfails : ∀ plan, ((lampOptions.library .empty).plan lampDeck).result = .ok plan →
      lampPool.nexts (layout lampOptions.route lampOptions.method plan).length ≠ none := by
    intro plan hplan
    have hnone := failure?_eq_none_iff.2 ⟨plan, hplan⟩
    rw [Library.failure?_plan, Option.or_eq_none_iff, Option.map_eq_none_iff,
      Option.map_eq_none_iff, hloads] at hnone
    have := List.findSome?_eq_none_iff.1 hnone.2 ⟨3, "bell", .activation⟩ (by simp)
    rw [Library.fault?, hmissing] at this
    cases this
  refine ⟨?_, ?_⟩
  · obtain ⟨plan, hplan, -⟩ := lampDeck_plan
    have hfiles := ((lampOptions.library lampFiles).failure?_plan_eq_none_iff lampDeck).1
      (failure?_eq_none_iff.2 ⟨plan, hplan⟩)
    exact (compile_outcome lampOptions lampFiles lampPool lampDeck lampDeck_ids).1.2 hfiles
  · exact (compile_outcome lampOptions .empty lampPool lampDeck hfails).2.2.1 hsound [] _ _ _ hloads
      (by simp) hmissing

end SlideFlow.Compile
