/-
Appending activities. A flow is laid out from its end to its beginning, so what is appended comes
behind the nodes of the first activities, and only the last four nodes of a flow look back on all of
them. Identifiers are drawn in the same order: with more to draw, the first ones are the same.

Hence the flow of more activities begins as the flow of the first ones does, up to its last four nodes
(`appending_keeps_nodes`).
-/
import SlideFlow.Proofs.Compile.Recompile

namespace SlideFlow.Flow

variable {ρ τ : Type} {f g : ρ → τ}

/-! ## Renamings that agree on a node -/

theorem Ref.map_congr {r : Ref ρ} (h : ∀ x ∈ r.names, f x = g x) : r.map f = r.map g := by
  cases r with
  | text s => rfl
  | node x => rw [map, map, h x (List.mem_singleton_self x)]

theorem Property.map_congr {p : Property ρ} (h : ∀ x ∈ p.names, f x = g x) : p.map f = p.map g := by
  cases p with
  | value v => rfl
  | one r => rw [map, map, Ref.map_congr h]
  | many rs =>
    rw [map, map, List.map_congr_left fun r hr =>
      Ref.map_congr fun x hx => h x (List.mem_flatMap.2 ⟨r, hr, hx⟩)]

/-- A node is the same under two renamings that agree on its name, on the names that it is wired to
and on those that it mentions. -/
theorem Node.map_congr {n : Node ρ} (hid : f n.id = g n.id) (htargets : ∀ x ∈ n.targets, f x = g x)
    (hmentioned : ∀ x ∈ n.mentioned, f x = g x) : n.map f = n.map g := by
  obtain ⟨id, type, name, wires, kind⟩ := n
  have hwires : wires.map (List.map f) = wires.map (List.map g) :=
    List.map_congr_left fun port hport =>
      List.map_congr_left fun x hx => htargets x (List.mem_flatten.2 ⟨port, hport, hx⟩)
  have hkind : kind.map f = kind.map g := by
    cases kind with
    | copy properties =>
      rw [Kind.map, Kind.map, List.map_congr_left fun p hp =>
        congrArg (Prod.mk p.1) (Property.map_congr fun x hx =>
          hmentioned x (List.mem_flatMap.2 ⟨p, hp, hx⟩))]
    | _ => rfl
  rw [map, map, hid, hwires, hkind]

end SlideFlow.Flow

namespace SlideFlow.Compile

open SlideFlow.Deck SlideFlow.Files SlideFlow.Flow SlideFlow.Ident

/-! ## Plans and layouts of more activities -/

/-- The plan of more activities begins with the plan of the first ones. -/
theorem Library.plan_append_eq_ok {lib : Library} {first more : List Activity}
    {plan : List ActivityPlan} (h : (lib.plan (first ++ more)).result = .ok plan) :
    ∃ plan₁ plan₂, (lib.plan first).result = .ok plan₁ ∧ plan = plan₁ ++ plan₂ := by
  rw [result_plan] at h
  obtain ⟨counts, hcounts, h⟩ := bind_eq_ok_iff.1 h
  obtain ⟨counts₁, -, hcounts₁, -, -⟩ := mapM_append_eq_ok hcounts
  obtain ⟨plan₁, plan₂, hplan₁, -, rfl⟩ := mapM_append_eq_ok h
  refine ⟨plan₁, plan₂, ?_, rfl⟩
  rw [result_plan, hcounts₁]
  exact hplan₁

theorem rowSize_append {α : Type} (size : α → Nat) : ∀ xs ys : List α,
    rowSize size (xs ++ ys) = rowSize size xs + rowSize size ys
  | [], ys => (Nat.zero_add _).symm
  | x :: xs, ys => by
    rw [List.cons_append, rowSize, rowSize, rowSize_append size xs ys, Nat.add_assoc]

theorem rowCharts_append {α β : Type} {size : α → Nat} {chart : Nat → α → β} :
    ∀ (base : Nat) (xs ys : List α), rowCharts size chart base (xs ++ ys) =
      rowCharts size chart base xs ++ rowCharts size chart (base + rowSize size xs) ys
  | _, [], _ => rfl
  | base, x :: xs, ys => by
    rw [List.cons_append, rowCharts, rowCharts, rowCharts_append, rowSize, Nat.add_assoc,
      List.cons_append]

namespace FlowChart

variable {ρ τ : Type}

/-- The nodes of a flow up to the last four. -/
def leading (c : FlowChart ρ) : List (Node ρ) :=
  .httpResponse c.answer :: c.respondNode :: c.activities.flatMap (·.nodes c.respond)

/-- The last four nodes of a flow. -/
def closing (c : FlowChart ρ) (route method : String) : List (Node ρ) :=
  [c.finishedNode, c.switchNode, c.counterNode, .httpIn c.request route method c.counter]

theorem nodes_eq_append (c : FlowChart ρ) (route method : String) :
    c.nodes route method = c.leading ++ c.closing route method := rfl

theorem leading_map (f : ρ → τ) (c : FlowChart ρ) :
    (c.map f).leading = c.leading.map (Node.map f) := by
  have hnodes := c.nodes_map f "" ""
  rw [nodes_eq_append, nodes_eq_append, List.map_append] at hnodes
  exact (List.append_inj' hnodes rfl).1

/-- A flow is the same under renamings that agree on its names. -/
theorem nodes_map_congr {c : FlowChart ρ} {f g : ρ → τ} (h : ∀ x ∈ c.names, f x = g x)
    (route method : String) : (c.map f).nodes route method = (c.map g).nodes route method := by
  rw [nodes_map, nodes_map]
  refine List.map_congr_left fun n hn => Node.map_congr ?_ ?_ ?_
  · exact h _ (c.ids_nodes route method ▸ List.mem_map_of_mem hn)
  · exact fun x hx => h x (c.nodes_targets route method n hn x hx)
  · exact fun x hx => h x (c.nodes_mentioned route method n hn x hx)

end FlowChart

/-- What is planned behind a plan is laid out behind its activities. -/
theorem leading_flowChart_append (plan₁ plan₂ : List ActivityPlan) :
    (flowChart plan₁).leading <+: (flowChart (plan₁ ++ plan₂)).leading := by
  have hactivities : (flowChart (plan₁ ++ plan₂)).activities =
      (flowChart plan₁).activities ++ activityCharts (2 + activitiesSize plan₁) plan₂ :=
    rowCharts_append 2 plan₁ plan₂
  refine ⟨(activityCharts (2 + activitiesSize plan₁) plan₂).flatMap (·.nodes 1), ?_⟩
  rw [FlowChart.leading, FlowChart.leading, hactivities, List.flatMap_append]
  rfl

/-! ## Flows of more activities -/

variable {σ : Type} [Source σ]

/-- Appending activities leaves the nodes of the first ones alone. If the flow of all of them
compiles, then so does the flow of the first ones, from the same identifiers and files. All its nodes
but the last four, which are told by their types and names, are the nodes at the same positions of the
longer flow, with the same identifiers, wires and properties. -/
theorem appending_keeps_nodes (options : Options) (files : Tree) (pool : Pool σ)
    (first more : List Activity) {nodes : List (Node String)}
    (h : (compile options files pool (first ++ more)).result = .ok nodes) :
    ∃ kept last, (compile options files pool first).result = .ok (kept ++ last) ∧
      last.map (fun n => (n.type, n.name)) =
        ([("function", "format task finished"), ("switch", "activity"),
          ("function", "execution counter"), ("http in", "")] : List (Text.RawText × String)) ∧
      kept <+: nodes := by
  rw [result_compile] at h
  obtain ⟨plan, hplan, h⟩ := bind_eq_ok_iff.1 h
  obtain ⟨plan₁, plan₂, hplan₁, rfl⟩ := Library.plan_append_eq_ok hplan
  have hsize : activitiesSize (plan₁ ++ plan₂) + 6 =
      activitiesSize plan₁ + 6 + activitiesSize plan₂ := by
    unfold activitiesSize
    rw [rowSize_append]
    omega
  cases hdraw : pool.nexts (activitiesSize (plan₁ ++ plan₂) + 6) with
  | none => rw [hdraw] at h; cases h
  | some drawn =>
    obtain ⟨ids, pool'⟩ := drawn
    rw [hdraw] at h
    cases h
    rw [hsize] at hdraw
    obtain ⟨ids₁, pool₁, ids₂, hdraw₁, -, rfl⟩ := Pool.nexts_of_add hdraw
    -- the positions of the first plan have the same identifiers in both flows
    have hnames : ∀ i ∈ (flowChart plan₁).names, ids₁.getD i "" = (ids₁ ++ ids₂).getD i "" := by
      intro i hi
      rw [names_flowChart, List.mem_range, ← (Pool.nexts_fresh hdraw₁).length] at hi
      rw [List.getD_eq_getElem?_getD, List.getD_eq_getElem?_getD, List.getElem?_append_left hi]
    refine ⟨((flowChart plan₁).map fun i => (ids₁ ++ ids₂).getD i "").leading,
      ((flowChart plan₁).map fun i => (ids₁ ++ ids₂).getD i "").closing options.route options.method,
      ?_, rfl, ?_⟩
    · rw [result_compile, hplan₁, ← FlowChart.nodes_eq_append, ← FlowChart.nodes_map_congr hnames]
      simp only [bind, Except.bind, hdraw₁]
    · rw [FlowChart.nodes_eq_append, FlowChart.leading_map, FlowChart.leading_map]
      exact ((leading_flowChart_append plan₁ plan₂).map _).trans (List.prefix_append _ _)

theorem appending_keeps_nodes_lampDeck : ∃ nodes kept last,
    (compile lampOptions lampFiles lampPool lampDeck).result = .ok nodes ∧
    (compile lampOptions lampFiles lampPool (lampDeck.take 1)).result = .ok (kept ++ last) ∧
    last.length = 4 ∧ kept <+: nodes := by
  obtain ⟨nodes, hnodes⟩ := lampDeck_compiles
  have hall : (compile lampOptions lampFiles lampPool (lampDeck.take 1 ++ lampDeck.drop 1)).result =
      .ok nodes := by rw [List.take_append_drop, hnodes]
  obtain ⟨kept, last, hfirst, hlast, hkept⟩ :=
    appending_keeps_nodes lampOptions lampFiles lampPool (lampDeck.take 1) (lampDeck.drop 1) hall
  have hfour := congrArg List.length hlast
  rw [List.length_map] at hfour
  exact ⟨nodes, kept, last, hnodes, hfirst, hfour, hkept⟩

end SlideFlow.Compile
