/-
No wire leaks. The groups of a compiled flow touch each other at their fan-outs only, and the copies
of fragments touch the rest of the flow at their entries and exits only (`GroupChart.Enclosed`). Every
wire of the flow is counted, so nothing can arrive from a part that was built later.

The wires of a group are looked for level by level: the flow holds them in one activity, the activity
in one step, and the chain of groups of the step in one group.
-/
import SlideFlow.Proofs.Compile.Wiring
import SlideFlow.Proofs.Flow.Wires

namespace SlideFlow.Compile

open SlideFlow.Deck SlideFlow.Files SlideFlow.Flow SlideFlow.Fragment SlideFlow.Ident

variable {ρ : Type} {kind : Wire ρ → Bool}

/-! ## From a flow to an activity, from an activity to a step -/

theorem FlowChart.nodup_activities {c : FlowChart ρ} (h : c.names.Nodup) :
    (c.activities.flatMap ActivityChart.names).Nodup := by
  unfold names at h
  exact h.of_append_left.of_cons.of_cons

/-- The nodes around the activities are none of their nodes. -/
theorem FlowChart.not_mem_activity {c : FlowChart ρ} (h : c.names.Nodup) {a : ActivityChart ρ}
    (ha : a ∈ c.activities) :
    ∀ t ∈ [c.answer, c.respond, c.finished, c.switch, c.counter, c.request], t ∉ a.names := by
  have hmid : ∀ t ∈ a.names, t ∈ c.activities.flatMap ActivityChart.names := fun t ht =>
    List.mem_flatMap.2 ⟨a, ha, ht⟩
  unfold names at h
  rw [List.nodup_append'] at h
  obtain ⟨hfirst, -, hdisjoint⟩ := h
  rw [List.nodup_cons, List.nodup_cons] at hfirst
  intro t ht hta
  have hlast : t ∉ [c.finished, c.switch, c.counter, c.request] := fun h =>
    hdisjoint (List.mem_cons_of_mem _ (List.mem_cons_of_mem _ (hmid t hta))) h
  rcases List.mem_cons.1 ht with rfl | ht
  · exact hfirst.1 (List.mem_cons_of_mem _ (hmid _ hta))
  · rcases List.mem_cons.1 ht with rfl | ht
    · exact hfirst.2.1 (hmid _ hta)
    · exact hlast ht

theorem FlowChart.filter_wires {c : FlowChart ρ} (hc : c.names.Nodup) {a : ActivityChart ρ}
    (ha : a ∈ c.activities) (hkind : Inside a.names a.switch kind) (route method : String) :
    (wires (c.nodes route method)).filter kind = (wires (a.nodes c.respond)).filter kind := by
  have hout := c.not_mem_activity hc ha
  refine hkind.filter_wires_row [.httpResponse c.answer, c.respondNode] (·.nodes c.respond)
    [c.finishedNode, c.switchNode, c.counterNode, .httpIn c.request route method c.counter] ha
    (c.nodup_activities hc) (fun b _ n hn => b.ids_nodes c.respond ▸ List.mem_map_of_mem hn) ?_ ?_
  · intro b _ n hn t ht
    refine (b.nodes_targets c.respond n hn t ht).imp id ?_
    rintro rfl
    exact hout _ (by simp)
  · -- the nodes around the activities lead into them at the switches only
    have hborder : ∀ t ∈ [c.answer, c.respond, c.finished, c.switch, c.counter, c.request],
        t ∈ a.names → t = a.switch := fun t ht hta => absurd hta (hout t ht)
    intro n hn
    simp only [List.cons_append, List.nil_append, List.mem_cons, List.not_mem_nil, or_false] at hn
    rcases hn with rfl | rfl | rfl | rfl | rfl | rfl
    · exact ⟨hout _ (by simp [Node.httpResponse]), fun t ht => by cases ht⟩
    · refine ⟨hout _ (by simp [respondNode, Node.function]), fun t ht => hborder t ?_⟩
      simp [List.mem_singleton.1 ht]
    · refine ⟨hout _ (by simp [finishedNode, Node.function]), fun t ht => hborder t ?_⟩
      simp [List.mem_singleton.1 ht]
    · refine ⟨hout _ (by simp [switchNode, Node.selector]), fun t ht hta => ?_⟩
      rw [switchNode, selector_targets, List.mem_append, List.mem_singleton] at ht
      rcases ht with ht | rfl
      · obtain ⟨b, hb, rfl⟩ := List.mem_map.1 ht
        rw [eq_of_mem_names (c.nodup_activities hc) hb ha b.switch_mem_names hta]
      · exact hborder _ (by simp) hta
    · refine ⟨hout _ (by simp [counterNode, Node.function]), fun t ht => hborder t ?_⟩
      simp [List.mem_singleton.1 ht]
    · refine ⟨hout _ (by simp [Node.httpIn]), fun t ht => hborder t ?_⟩
      simp [List.mem_singleton.1 ht]

theorem ActivityChart.nodup_steps {c : ActivityChart ρ} (h : c.names.Nodup) :
    (c.steps.flatMap StepChart.names).Nodup := by
  unfold names at h
  exact h.of_append_left.of_cons

theorem ActivityChart.not_mem_step {c : ActivityChart ρ} (h : c.names.Nodup) {s : StepChart ρ}
    (hs : s ∈ c.steps) : c.back ∉ s.names ∧ c.switch ∉ s.names :=
  border_not_mem h hs

theorem ActivityChart.filter_wires {c : ActivityChart ρ} (hc : c.names.Nodup) {respond : ρ}
    (hrespond : respond ∉ c.names) {s : StepChart ρ} (hs : s ∈ c.steps)
    (hkind : Inside s.names s.entry kind) :
    (wires (c.nodes respond)).filter kind = (wires (s.nodes c.back)).filter kind := by
  obtain ⟨hback, hswitch⟩ := c.not_mem_step hc hs
  refine hkind.filter_wires_row [c.backNode respond] (·.nodes c.back) [c.switchNode] hs
    (c.nodup_steps hc) (fun r _ n hn => r.ids_nodes c.back ▸ List.mem_map_of_mem hn) ?_ ?_
  · intro r _ n hn t ht
    refine (r.nodes_targets c.back n hn t ht).imp id ?_
    rintro rfl
    exact hback
  · intro n hn
    simp only [List.cons_append, List.nil_append, List.mem_cons, List.not_mem_nil, or_false] at hn
    rcases hn with rfl | rfl
    · refine ⟨hback, fun t ht hts => absurd (c.step_names_subset hs t hts) ?_⟩
      rwa [List.mem_singleton.1 ht]
    · -- the switch leads to the entries of all steps, this one among them
      refine ⟨hswitch, fun t ht hts => ?_⟩
      rw [switchNode, selector_targets] at ht
      obtain ⟨r, hr, rfl⟩ := List.mem_map.1 ht
      rw [eq_of_mem_names (c.nodup_steps hc) hr hs r.entry_mem_names hts]

/-! ## From a step to a group -/

/-- A chain leads into none of its groups but by the fan-out. -/
theorem chainHead_eq_fanOut {back : ρ} {gs : List (GroupChart ρ)} {g : GroupChart ρ}
    (hnodup : (gs.flatMap GroupChart.names).Nodup) (hg : g ∈ gs) (hback : back ∉ g.names)
    (h : chainHead back gs ∈ g.names) : chainHead back gs = g.fanOut := by
  cases gs with
  | nil => exact absurd h hback
  | cons g' gs =>
    rw [eq_of_mem_names hnodup hg (List.mem_cons_self ..) h g'.fanOut_mem_names]
    rfl

theorem chainHead_not_mem {back : ρ} {gs : List (GroupChart ρ)} {g : GroupChart ρ}
    (hdisjoint : List.Disjoint g.names (gs.flatMap GroupChart.names)) (hback : back ∉ g.names) :
    chainHead back gs ∉ g.names := by
  intro h
  rcases chainHead_mem back gs with hin | he
  · exact hdisjoint h hin
  · exact hback (he ▸ h)

theorem mem_names_of_mem_chainNodes {back : ρ} {gs : List (GroupChart ρ)} {n : Node ρ}
    (hn : n ∈ chainNodes back gs) : n.id ∈ gs.flatMap GroupChart.names := by
  have hid : n.id ∈ (chainNodes back gs).map (·.id) := List.mem_map_of_mem hn
  rw [ids_chainNodes, List.mem_flatMap] at hid
  obtain ⟨g, hg, hid⟩ := hid
  exact List.mem_flatMap.2 ⟨g, List.mem_reverse.1 hg, hid⟩

/-- The wires inside a group of a chain are those of its nodes, wherever the group leads on to. -/
theorem filter_wires_chainNodes {back : ρ} {g : GroupChart ρ} (hback : back ∉ g.names) :
    ∀ {gs : List (GroupChart ρ)}, g ∈ gs → (gs.flatMap GroupChart.names).Nodup →
      ∃ next, next ∉ g.names ∧ ∀ kind, Inside g.names g.fanOut kind →
        (wires (chainNodes back gs)).filter kind = (wires (g.nodes next)).filter kind
  | g' :: gs, hg, hnodup => by
    have hsplit := hnodup
    rw [List.flatMap_cons, List.nodup_append'] at hsplit
    obtain ⟨-, hgs, hdisjoint⟩ := hsplit
    rcases List.mem_cons.1 hg with rfl | hg
    · -- all that comes behind the group stays there or goes back
      refine ⟨chainHead back gs, chainHead_not_mem hdisjoint hback, fun kind hkind => ?_⟩
      have hrest : (wires (chainNodes back gs)).filter kind = [] := by
        refine hkind.filter_wires_eq_nil ?_ ?_
        · exact fun n hn hin => hdisjoint hin (mem_names_of_mem_chainNodes hn)
        · intro n hn t ht hin
          rcases chainNodes_targets back gs n hn t ht with h | rfl
          · exact absurd h (hdisjoint hin)
          · exact absurd hin hback
      rw [chainNodes, wires_append, List.filter_append, hrest, List.nil_append]
    · -- the first group leads to the fan-out of this one at most
      obtain ⟨next, hnext, hrest⟩ := filter_wires_chainNodes hback hg hgs
      refine ⟨next, hnext, fun kind hkind => ?_⟩
      have hfar : ∀ t ∈ g'.names, t ∉ g.names := fun t ht hin =>
        hdisjoint ht (List.mem_flatMap.2 ⟨g, hg, hin⟩)
      have hfirst : (wires (g'.nodes (chainHead back gs))).filter kind = [] := by
        refine hkind.filter_wires_eq_nil ?_ ?_
        · exact fun n hn => hfar _ (g'.ids_nodes _ ▸ List.mem_map_of_mem hn)
        · intro n hn t ht hin
          rcases g'.nodes_targets _ n hn t ht with h | rfl
          · exact absurd hin (hfar t h)
          · exact chainHead_eq_fanOut hgs hg hback hin
      rw [chainNodes, wires_append, List.filter_append, hfirst, hrest kind hkind, List.append_nil]

theorem StepChart.nodup_groups {c : StepChart ρ} (h : c.names.Nodup) :
    (c.groups.flatMap GroupChart.names).Nodup :=
  (((List.reverse_perm c.groups).flatMap_right _).nodup_iff).1 h.of_append_left

theorem StepChart.entry_not_mem {c : StepChart ρ} (h : c.names.Nodup) {g : GroupChart ρ}
    (hg : g ∈ c.groups) : c.entry ∉ g.names := by
  unfold names at h
  rw [List.nodup_append'] at h
  intro hin
  exact h.2.2 (List.mem_flatMap.2 ⟨g, List.mem_reverse.2 hg, hin⟩) (List.mem_singleton_self _)

theorem StepChart.filter_wires {c : StepChart ρ} (hc : c.names.Nodup) {back : ρ}
    (hback : back ∉ c.names) {g : GroupChart ρ} (hg : g ∈ c.groups) :
    ∃ next, next ∉ g.names ∧ ∀ kind, Inside g.names g.fanOut kind →
      (wires (c.nodes back)).filter kind = (wires (g.nodes next)).filter kind := by
  have hback' : back ∉ g.names := fun h =>
    hback (c.group_names_subset _ (List.mem_flatMap.2 ⟨g, hg, h⟩))
  obtain ⟨next, hnext, hchain⟩ := filter_wires_chainNodes hback' hg (c.nodup_groups hc)
  refine ⟨next, hnext, fun kind hkind => ?_⟩
  have hentry : (wires [c.entryNode back]).filter kind = [] := by
    refine hkind.filter_wires_eq_nil ?_ ?_
    · intro n hn
      rw [List.mem_singleton.1 hn]
      exact c.entry_not_mem hc hg
    · intro n hn t ht hin
      rw [List.mem_singleton.1 hn] at ht
      rw [show t = chainHead back c.groups from List.mem_singleton.1 ht] at hin ⊢
      exact chainHead_eq_fanOut (c.nodup_groups hc) hg hback' hin
  rw [nodes, wires_append, List.filter_append, hentry, hchain kind hkind, List.append_nil]

/-! ## Wires of a branch -/

theorem BranchChart.mark_not_mem {c : BranchChart ρ} (h : c.names.Nodup) : c.mark ∉ c.copy := by
  unfold names at h
  rw [List.nodup_append'] at h
  exact fun hin => h.2.2 hin (List.mem_singleton_self _)

theorem BranchChart.wires_nodes (c : BranchChart ρ) (join : ρ) :
    wires (c.nodes join) = wires (c.fragment.parts.map c.copyNode) ++ [⟨c.mark, 0, join⟩] :=
  wires_append _ _

/-- Wires of a copy begin in it, and end in it or at the mark. -/
theorem BranchChart.mem_wires_copies {c : BranchChart ρ} {w : Wire ρ}
    (h : w ∈ wires (c.fragment.parts.map c.copyNode)) :
    w.source ∈ c.copy ∧ (w.target ∈ c.copy ∨ w.target = c.mark) := by
  obtain ⟨n, hn, hw⟩ := List.mem_flatMap.1 h
  obtain ⟨hsource, htarget⟩ := Node.mem_outgoing hw
  refine ⟨hsource ▸ c.ids_copies ▸ List.mem_map_of_mem hn, ?_⟩
  obtain ⟨p, hp, rfl⟩ := List.mem_map.1 hn
  exact c.copyNode_targets hp _ htarget

/-- The exit has one wire more than the node that it copies. -/
theorem BranchChart.exitCopy_outgoing (c : BranchChart ρ) (p : Part) :
    ∃ first rest, (c.exitCopy p).outgoing = first ++ ⟨c.rename p.id, 0, c.mark⟩ :: rest ∧
      ∀ w ∈ first ++ rest, w.target ∈ (c.plainCopy p).targets := by
  have hout : (c.exitCopy p).outgoing = portWires (c.rename p.id) 0
      (((c.plainCopy p).wires.headD [] ++ [c.mark]) :: (c.plainCopy p).wires.tail) := rfl
  rw [portWires_cons, List.map_append, List.append_assoc] at hout
  refine ⟨_, _, hout, fun w hw => ?_⟩
  cases hports : (c.plainCopy p).wires with
  | nil =>
    rw [hports] at hw
    cases hw
  | cons port ports =>
    rw [hports] at hw
    rw [Node.targets, hports, List.flatten_cons, List.mem_append]
    rcases List.mem_append.1 hw with hw | hw
    · obtain ⟨t, ht, rfl⟩ := List.mem_map.1 hw
      exact Or.inl ht
    · exact Or.inr (mem_portWires hw).2

theorem GroupChart.nodup_branches {c : GroupChart ρ} (h : c.names.Nodup) :
    (c.branches.flatMap BranchChart.names).Nodup := by
  unfold names at h
  exact h.of_append_left.of_cons

theorem GroupChart.not_mem_branch {c : GroupChart ρ} (h : c.names.Nodup) {b : BranchChart ρ}
    (hb : b ∈ c.branches) : c.join ∉ b.names ∧ c.fanOut ∉ b.names :=
  border_not_mem h hb

theorem GroupChart.join_ne_fanOut {c : GroupChart ρ} (h : c.names.Nodup) : c.join ≠ c.fanOut := by
  unfold names at h
  rw [List.nodup_append'] at h
  exact fun he => h.2.2 (List.mem_cons_self ..) (he ▸ List.mem_singleton_self _)

theorem GroupChart.wires_nodes (c : GroupChart ρ) (next : ρ) :
    wires (c.nodes next) = ⟨c.join, 0, next⟩ ::
      (c.branches.flatMap fun b => wires (b.nodes c.join)) ++ c.fanOutNode.outgoing := by
  rw [nodes, wires_append, wires_cons, wires_flatMap]
  simp [wires, joinNode, Node.join, Node.outgoing, portWires]

/-- A group with branches fans out to their entries. -/
theorem GroupChart.fanOutNode_outgoing {c : GroupChart ρ} (h : c.branches ≠ []) :
    c.fanOutNode.outgoing = portWires c.fanOut 0 (c.branches.map fun b => [b.entry]) := by
  obtain ⟨join, branches, fanOut⟩ := c
  cases branches with
  | nil => exact absurd rfl h
  | cons b bs => rfl

theorem mem_portWires_entries {source : ρ} {first : Nat} {bs : List (BranchChart ρ)} {w : Wire ρ}
    (h : w ∈ portWires source first (bs.map fun b => [b.entry])) :
    w.source = source ∧ ∃ b ∈ bs, w.target = b.entry := by
  obtain ⟨hsource, htarget⟩ := mem_portWires h
  obtain ⟨port, hport, ht⟩ := List.mem_flatten.1 htarget
  obtain ⟨b, hb, rfl⟩ := List.mem_map.1 hport
  exact ⟨hsource, b, hb, List.mem_singleton.1 ht⟩

theorem BranchChart.mem_names_of_mem_copy {c : BranchChart ρ} {t : ρ} (h : t ∈ c.copy) :
    t ∈ c.names :=
  List.mem_append_left _ h

variable [DecidableEq ρ]

/-- A wire leaves a copy. -/
def BranchChart.leaves (c : BranchChart ρ) (w : Wire ρ) : Bool :=
  w.source ∈ c.copy ∧ w.target ∉ c.copy

/-- A wire enters a copy from outside. -/
def BranchChart.enters (c : BranchChart ρ) (w : Wire ρ) : Bool :=
  w.source ∉ c.copy ∧ w.target ∈ c.copy

theorem BranchChart.leaves_iff {c : BranchChart ρ} {w : Wire ρ} :
    c.leaves w ↔ w.source ∈ c.copy ∧ w.target ∉ c.copy := decide_eq_true_iff

theorem BranchChart.enters_iff {c : BranchChart ρ} {w : Wire ρ} :
    c.enters w ↔ w.source ∉ c.copy ∧ w.target ∈ c.copy := decide_eq_true_iff

/-- One wire leaves a copy: the exit leads on to the mark. -/
theorem BranchChart.filter_leaves {c : BranchChart ρ} (hc : c.names.Nodup) (join : ρ) :
    (wires (c.nodes join)).filter c.leaves = [⟨c.exit, 0, c.mark⟩] := by
  have hmark := c.mark_not_mem hc
  have hnodup : (c.fragment.parts.flatMap fun p => [p.id]).Nodup :=
    List.map_eq_flatMap ▸ c.fragment.nodup
  obtain ⟨p, hp, hexit⟩ := List.mem_map.1 c.fragment.exit_mem
  have hstay : ∀ q ∈ c.fragment.parts, ∀ ws : List (Wire ρ),
      (∀ w ∈ ws, w.target ∈ (c.plainCopy q).targets) → ws.filter c.leaves = [] := by
    intro q hq ws hws
    rw [List.filter_eq_nil_iff]
    intro w hw h
    exact (leaves_iff.1 h).2 (c.plainCopy_targets hq _ (hws w hw))
  have hcopies : (wires (c.fragment.parts.map c.copyNode)).filter c.leaves =
      [⟨c.exit, 0, c.mark⟩] := by
    -- the exit is one node of the fragment, and only its copy has the wire to the mark
    rw [wires, List.flatMap_map, List.filter_flatMap, flatMap_eq_at hp hnodup]
    · obtain ⟨first, rest, hout, hws⟩ := c.exitCopy_outgoing p
      have hleaves : c.leaves ⟨c.rename p.id, 0, c.mark⟩ :=
        leaves_iff.2 ⟨c.rename_mem_copy (List.mem_map_of_mem hp), hmark⟩
      rw [copyNode, if_pos hexit, hout, List.filter_append, List.filter_cons_of_pos hleaves,
        hstay p hp first fun w hw => hws w (List.mem_append_left _ hw),
        hstay p hp rest fun w hw => hws w (List.mem_append_right _ hw), hexit]
      rfl
    · intro q hq hne
      have hq' : q.id ≠ c.fragment.exit := by
        rw [← hexit]
        exact fun he => hne (List.mem_singleton_self _) (List.mem_singleton.2 he)
      rw [copyNode, if_neg hq']
      exact hstay q hq _ fun w hw => (Node.mem_outgoing hw).2
  rw [wires_nodes, List.filter_append, hcopies,
    List.filter_cons_of_neg fun h => hmark (leaves_iff.1 h).1]
  rfl

/-! ## Wires of a group -/

/-- The wires that the join of a group waits for. -/
def GroupChart.joinWires (c : GroupChart ρ) : List (Wire ρ) :=
  match c.branches with
  | [] => [⟨c.fanOut, 0, c.join⟩]
  | branches => branches.map fun b => ⟨b.mark, 0, c.join⟩

theorem BranchChart.filter_join {c : BranchChart ρ} {join : ρ} (hjoin : join ∉ c.names) :
    (wires (c.nodes join)).filter (·.target = join) = [⟨c.mark, 0, join⟩] := by
  have hcopies : (wires (c.fragment.parts.map c.copyNode)).filter (·.target = join) = [] := by
    rw [List.filter_eq_nil_iff]
    intro w hw h
    rw [← of_decide_eq_true h, names, List.mem_append, List.mem_singleton] at hjoin
    exact hjoin (mem_wires_copies hw).2
  rw [wires_nodes, List.filter_append, hcopies]
  simp

theorem GroupChart.filter_join {c : GroupChart ρ} (hc : c.names.Nodup) {next : ρ}
    (hnext : next ∉ c.names) :
    (wires (c.nodes next)).filter (·.target = c.join) = c.joinWires := by
  have hne : next ≠ c.join := fun h => hnext (h ▸ c.join_mem_names)
  have hbranches : (c.branches.flatMap fun b => wires (b.nodes c.join)).filter (·.target = c.join) =
      c.branches.map fun b => ⟨b.mark, 0, c.join⟩ := by
    rw [List.filter_flatMap, List.map_eq_flatMap]
    exact List.flatMap_congr fun b hb => b.filter_join (c.not_mem_branch hc hb).1
  rw [wires_nodes, List.cons_append, List.filter_cons_of_neg (by simpa using hne),
    List.filter_append, hbranches]
  by_cases hnone : c.branches = []
  · obtain ⟨join, branches, fanOut⟩ := c
    subst hnone
    simp [joinWires, fanOutNode, fanOutWires, Node.function, Node.outgoing, portWires]
  · have hfanOut : c.fanOutNode.outgoing.filter (·.target = c.join) = [] := by
      rw [List.filter_eq_nil_iff, c.fanOutNode_outgoing hnone]
      intro w hw h
      obtain ⟨-, b, hb, hentry⟩ := mem_portWires_entries hw
      refine (c.not_mem_branch hc hb).1 (b.mem_names_of_mem_copy ?_)
      rw [← of_decide_eq_true h, hentry]
      exact b.entry_mem_copy
    rw [hfanOut, List.append_nil, joinWires]
    split
    · contradiction
    · rfl

/-- The one wire that leaves a copy of a group leads to its mark. -/
theorem GroupChart.filter_leaves {c : GroupChart ρ} (hc : c.names.Nodup) {next : ρ}
    (hnext : next ∉ c.names) {b : BranchChart ρ} (hb : b ∈ c.branches) :
    (wires (c.nodes next)).filter b.leaves = [⟨b.exit, 0, b.mark⟩] := by
  obtain ⟨hjoin, hfanOut⟩ := c.not_mem_branch hc hb
  have hinside : Inside b.names b.entry b.leaves := fun w hw =>
    Or.inl (b.mem_names_of_mem_copy (BranchChart.leaves_iff.1 hw).1)
  rw [← b.filter_leaves ((List.nodup_flatMap.1 (c.nodup_branches hc)).1 b hb) c.join]
  refine hinside.filter_wires_row [c.joinNode next] (·.nodes c.join) [c.fanOutNode] hb
    (c.nodup_branches hc) (fun d _ n hn => d.ids_nodes c.join ▸ List.mem_map_of_mem hn) ?_ ?_
  · intro d _ n hn t ht
    refine (d.nodes_targets c.join n hn t ht).imp id ?_
    rintro rfl
    exact hjoin
  · intro n hn
    simp only [List.cons_append, List.nil_append, List.mem_cons, List.not_mem_nil, or_false] at hn
    rcases hn with rfl | rfl
    · refine ⟨hjoin, fun t ht hin => absurd (c.branch_names_subset hb t hin) ?_⟩
      rwa [List.mem_singleton.1 ht]
    · refine ⟨hfanOut, fun t ht hin => ?_⟩
      rcases c.fanOutNode_targets t ht with rfl | ⟨d, hd, rfl⟩
      · exact absurd hin hjoin
      · rw [eq_of_mem_names (c.nodup_branches hc) hd hb (d.mem_names_of_mem_copy d.entry_mem_copy)
          hin]

theorem filter_enters_entries {b : BranchChart ρ} {source : ρ} (hsource : source ∉ b.copy) :
    ∀ {bs : List (BranchChart ρ)} {i first : Nat}, bs[i]? = some b →
      (bs.flatMap BranchChart.names).Nodup →
        (portWires source first (bs.map fun d => [d.entry])).filter b.enters =
          [⟨source, first + i, b.entry⟩]
  | d :: bs, 0, first, h, hnodup => by
    cases h
    rw [List.flatMap_cons, List.nodup_append'] at hnodup
    have hrest : (portWires source (first + 1) (bs.map fun d => [d.entry])).filter b.enters = [] := by
      rw [List.filter_eq_nil_iff]
      intro w hw h
      obtain ⟨-, d, hd, hentry⟩ := mem_portWires_entries hw
      have hin : d.entry ∈ b.copy := hentry ▸ (BranchChart.enters_iff.1 h).2
      exact hnodup.2.2 (b.mem_names_of_mem_copy hin)
        (List.mem_flatMap.2 ⟨d, hd, d.mem_names_of_mem_copy d.entry_mem_copy⟩)
    have henters : b.enters ⟨source, first, b.entry⟩ :=
      BranchChart.enters_iff.2 ⟨hsource, b.entry_mem_copy⟩
    rw [List.map_cons, portWires_cons, List.filter_append, hrest, List.map_singleton,
      List.filter_cons_of_pos henters]
    rfl
  | d :: bs, i + 1, first, h, hnodup => by
    rw [List.flatMap_cons, List.nodup_append'] at hnodup
    rw [List.getElem?_cons_succ] at h
    have hd : ¬ b.enters ⟨source, first, d.entry⟩ := by
      intro h'
      have hb : b ∈ bs := List.mem_of_getElem? h
      exact hnodup.2.2 (d.mem_names_of_mem_copy d.entry_mem_copy)
        (List.mem_flatMap.2 ⟨b, hb, b.mem_names_of_mem_copy (BranchChart.enters_iff.1 h').2⟩)
    rw [List.map_cons, portWires_cons, List.filter_append, List.map_singleton,
      List.filter_cons_of_neg hd, filter_enters_entries hsource h hnodup.2.1, Nat.add_right_comm,
      Nat.add_assoc]
    rfl

/-- The one wire that enters a copy comes from the fan-out, at the port of the branch. -/
theorem GroupChart.filter_enters {c : GroupChart ρ} (hc : c.names.Nodup) {next : ρ}
    (hnext : next ∉ c.names) {i : Nat} {b : BranchChart ρ} (hb : c.branches[i]? = some b) :
    (wires (c.nodes next)).filter b.enters = [⟨c.fanOut, i, b.entry⟩] := by
  have hmem : b ∈ c.branches := List.mem_of_getElem? hb
  obtain ⟨hjoin, hfanOut⟩ := c.not_mem_branch hc hmem
  have hne : c.branches ≠ [] := List.ne_nil_of_mem hmem
  have honward : ¬ b.enters ⟨c.join, 0, next⟩ := fun h => hnext
    (c.branch_names_subset hmem _ (b.mem_names_of_mem_copy (BranchChart.enters_iff.1 h).2))
  have hbranches : (c.branches.flatMap fun d => wires (d.nodes c.join)).filter b.enters = [] := by
    rw [List.filter_eq_nil_iff]
    intro w hw h
    obtain ⟨hsource, htarget⟩ := BranchChart.enters_iff.1 h
    obtain ⟨d, hd, hw⟩ := List.mem_flatMap.1 hw
    rw [d.wires_nodes, List.mem_append, List.mem_singleton] at hw
    rcases hw with hw | rfl
    · -- a wire of another copy ends elsewhere, and a wire of this one begins in it
      obtain ⟨hin, hout⟩ := BranchChart.mem_wires_copies hw
      have ht : w.target ∈ d.names := by
        rw [BranchChart.names, List.mem_append, List.mem_singleton]
        exact hout
      obtain rfl := eq_of_mem_names (c.nodup_branches hc) hd hmem ht (b.mem_names_of_mem_copy htarget)
      exact hsource hin
    · exact hjoin (b.mem_names_of_mem_copy htarget)
  rw [wires_nodes, List.cons_append, List.filter_cons_of_neg honward, List.filter_append, hbranches,
    c.fanOutNode_outgoing hne,
    filter_enters_entries (fun h => hfanOut (b.mem_names_of_mem_copy h)) hb (c.nodup_branches hc),
    Nat.zero_add]
  rfl

/-! ## Wires into a fan-out -/

/-- A group leads on to one node; its other wires end in it, and none of them at its fan-out. -/
theorem GroupChart.filter_onward {c : GroupChart ρ} (hc : c.names.Nodup) (next : ρ) {t : ρ}
    (ht : t ∈ c.names → t = c.fanOut) :
    (wires (c.nodes next)).filter (·.target = t) =
      [Wire.mk c.join 0 next].filter (·.target = t) := by
  have hbranch : ∀ b ∈ c.branches, t ∉ b.names := by
    intro b hb hin
    exact (c.not_mem_branch hc hb).2 (ht (c.branch_names_subset hb t hin) ▸ hin)
  have hjoin : t ≠ c.join := by
    rintro rfl
    exact c.join_ne_fanOut hc (ht c.join_mem_names)
  have hinner : ((c.branches.flatMap fun b => wires (b.nodes c.join)) ++
      c.fanOutNode.outgoing).filter (·.target = t) = [] := by
    rw [List.filter_eq_nil_iff]
    intro w hw h
    obtain rfl := of_decide_eq_true h
    rcases List.mem_append.1 hw with hw | hw
    · obtain ⟨b, hb, hw⟩ := List.mem_flatMap.1 hw
      obtain ⟨n, hn, hw⟩ := List.mem_flatMap.1 hw
      exact (b.nodes_targets c.join n hn _ (Node.mem_outgoing hw).2).elim (hbranch b hb) hjoin
    · rcases c.fanOutNode_targets _ (Node.mem_outgoing hw).2 with h | ⟨b, hb, h⟩
      · exact hjoin h
      · exact hbranch b hb (h ▸ b.mem_names_of_mem_copy b.entry_mem_copy)
  rw [wires_nodes, List.cons_append, ← List.singleton_append, List.filter_append, hinner,
    List.append_nil]

/-- A chain of groups that is entered from one node has one wire into each of its fan-outs. -/
theorem filter_fanOut_chain {back : ρ} {g : GroupChart ρ} (hback : back ∉ g.names) :
    ∀ {gs : List (GroupChart ρ)} (source : ρ), g ∈ gs → (gs.flatMap GroupChart.names).Nodup →
      ∃ before, (wires (chainNodes back gs) ++ [Wire.mk source 0 (chainHead back gs)]).filter
        (·.target = g.fanOut) = [⟨before, 0, g.fanOut⟩]
  | g' :: gs, source, hg, hnodup => by
    rw [List.flatMap_cons, List.nodup_append'] at hnodup
    obtain ⟨hg', hgs, hdisjoint⟩ := hnodup
    rw [chainNodes, wires_append, chainHead, List.filter_append, List.filter_append]
    rcases List.mem_cons.1 hg with rfl | hg
    · -- the group comes first and is entered from the node in front of the chain
      refine ⟨source, ?_⟩
      have hrest : (wires (chainNodes back gs)).filter (·.target = g.fanOut) = [] := by
        rw [List.filter_eq_nil_iff]
        intro w hw h
        obtain ⟨n, hn, hw⟩ := List.mem_flatMap.1 hw
        rcases chainNodes_targets back gs n hn _ (Node.mem_outgoing hw).2 with hin | he
        · exact hdisjoint g.fanOut_mem_names (of_decide_eq_true h ▸ hin)
        · exact hback (he ▸ of_decide_eq_true h ▸ g.fanOut_mem_names)
      have hhead : chainHead back gs ≠ g.fanOut := fun h =>
        chainHead_not_mem hdisjoint hback (h ▸ g.fanOut_mem_names)
      rw [hrest, g.filter_onward hg' _ fun _ => rfl]
      simp [hhead]
    · -- otherwise the join of the first group is the node in front of the others
      have hfar : g.fanOut ∉ g'.names := fun h =>
        hdisjoint h (List.mem_flatMap.2 ⟨g, hg, g.fanOut_mem_names⟩)
      have hfirst : g'.fanOut ≠ g.fanOut := fun h => hfar (h ▸ g'.fanOut_mem_names)
      obtain ⟨before, h⟩ := filter_fanOut_chain hback g'.join hg hgs
      refine ⟨before, ?_⟩
      rw [g'.filter_onward hg' _ fun h => absurd h hfar, ← List.filter_append, h]
      simp [hfirst]

/-! ## Enclosed groups -/

/-- Among all wires of a flow, those that touch the join, the fan-out and the copies of a group from
outside of them. -/
structure GroupChart.Enclosed (all : List (Wire ρ)) (g : GroupChart ρ) : Prop where
  join : all.filter (·.target = g.join) = g.joinWires
  fanOut : ∃ before, all.filter (·.target = g.fanOut) = [⟨before, 0, g.fanOut⟩]
  leaves : ∀ b ∈ g.branches, all.filter b.leaves = [⟨b.exit, 0, b.mark⟩]
  enters : ∀ (i : Nat) (b : BranchChart ρ), g.branches[i]? = some b →
    all.filter b.enters = [⟨g.fanOut, i, b.entry⟩]

theorem StepChart.filter_fanOut {c : StepChart ρ} (hc : c.names.Nodup) {back : ρ}
    (hback : back ∉ c.names) {g : GroupChart ρ} (hg : g ∈ c.groups) :
    ∃ before, (wires (c.nodes back)).filter (·.target = g.fanOut) = [⟨before, 0, g.fanOut⟩] := by
  have hback' : back ∉ g.names := fun h =>
    hback (c.group_names_subset _ (List.mem_flatMap.2 ⟨g, hg, h⟩))
  rw [nodes, wires_append]
  exact filter_fanOut_chain hback' c.entry hg (c.nodup_groups hc)

/-- In a flow whose names are all different every group is enclosed. -/
theorem FlowChart.enclosed {c : FlowChart ρ} (hc : c.names.Nodup) (route method : String)
    {g : GroupChart ρ} (hg : g ∈ c.groups) : g.Enclosed (wires (c.nodes route method)) := by
  obtain ⟨a, ha, hg⟩ := List.mem_flatMap.1 hg
  obtain ⟨s, hs, hg⟩ := List.mem_flatMap.1 hg
  replace hg := List.mem_reverse.1 hg
  have hanames : a.names.Nodup := (List.nodup_flatMap.1 (c.nodup_activities hc)).1 a ha
  have hsnames : s.names.Nodup := (List.nodup_flatMap.1 (a.nodup_steps hanames)).1 s hs
  have hgnames : g.names.Nodup := (List.nodup_flatMap.1 (s.nodup_groups hsnames)).1 g hg
  have hsub : ∀ t ∈ g.names, t ∈ s.names := fun t ht =>
    s.group_names_subset t (List.mem_flatMap.2 ⟨g, hg, ht⟩)
  obtain ⟨hback, hswitch⟩ := a.not_mem_step hanames hs
  have hrespond : c.respond ∉ a.names := c.not_mem_activity hc ha _ (by simp)
  -- what is inside a step is to be looked for there, and what is inside the group in the group
  have hstep : ∀ kind, Inside s.names s.entry kind →
      (wires (c.nodes route method)).filter kind = (wires (s.nodes a.back)).filter kind := by
    intro kind hkind
    rw [c.filter_wires hc ha (hkind.mono (a.step_names_subset hs) hswitch),
      a.filter_wires hanames hrespond hs hkind]
  obtain ⟨next, hnext, hgroup⟩ := s.filter_wires hsnames hback hg
  have hinside : ∀ kind, Inside g.names g.fanOut kind →
      (wires (c.nodes route method)).filter kind = (wires (g.nodes next)).filter kind := by
    intro kind hkind
    rw [hstep kind (hkind.mono hsub (s.entry_not_mem hsnames hg)), hgroup kind hkind]
  have hcopy : ∀ b ∈ g.branches, ∀ t ∈ b.copy, t ∈ g.names ∧ t ≠ g.fanOut := by
    intro b hb t ht
    have hin := b.mem_names_of_mem_copy ht
    exact ⟨g.branch_names_subset hb t hin, fun he => (g.not_mem_branch hgnames hb).2 (he ▸ hin)⟩
  refine ⟨?_, ?_, ?_, ?_⟩
  · rw [hinside _ fun w hw => ?_, g.filter_join hgnames hnext]
    rw [of_decide_eq_true hw]
    exact Or.inr ⟨g.join_mem_names, g.join_ne_fanOut hgnames⟩
  · rw [hstep _ fun w hw => ?_]
    · exact s.filter_fanOut hsnames hback hg
    · rw [of_decide_eq_true hw]
      have hin := g.fanOut_mem_names
      exact Or.inr ⟨hsub _ hin, fun he => s.entry_not_mem hsnames hg (he ▸ hin)⟩
  · intro b hb
    rw [hinside _ fun w hw => ?_, g.filter_leaves hgnames hnext hb]
    exact Or.inl (hcopy b hb _ (BranchChart.leaves_iff.1 hw).1).1
  · intro i b hb
    rw [hinside _ fun w hw => ?_, g.filter_enters hgnames hnext hb]
    exact Or.inr (hcopy b (List.mem_of_getElem? hb) _ (BranchChart.enters_iff.1 hw).2)

variable {σ : Type} [Source σ] {options : Options} {files : Tree} {pool : Pool σ}
variable {activities : List Activity} {nodes : List (Node String)}

/-- No wire leaks between groups, branches or copies. The joins, the fan-outs and the copies of a
flow are those of the groups of its chart; a join is reached by one wire from each mark of its own
group, or from the fan-out if the group has no branches; a fan-out is reached by one wire; and a copy
is entered from its port of the fan-out and left by the exit to its mark, each by one wire. -/
theorem compiled_groups_enclosed
    (h : (compile options files pool activities).result = .ok nodes) :
    ∃ c : FlowChart String, c.Charts options files activities nodes ∧
      ∀ g ∈ c.groups, g.Enclosed (wires nodes) := by
  obtain ⟨c, hc, rfl⟩ := compile_charts h
  exact ⟨c, hc, fun g hg => c.enclosed hc.nodup _ _ hg⟩

/-- The groups of the lamp and the bell. The lamp is copied twice, and both copies are enclosed. -/
theorem compiled_groups_enclosed_lampDeck :
    ∃ nodes, (compile lampOptions lampFiles lampPool lampDeck).result = .ok nodes ∧
      ∃ lamp bell : GroupChart String, lamp.Enclosed (wires nodes) ∧ bell.Enclosed (wires nodes) ∧
        lamp.branches.length = 2 ∧ bell.branches.length = 1 ∧
        (nodes.filter Node.isJoin).map (·.id) = [bell.join, lamp.join] := by
  obtain ⟨nodes, hnodes⟩ := lampDeck_compiles
  refine ⟨nodes, hnodes, ?_⟩
  obtain ⟨c, hc, henclosed⟩ := compiled_groups_enclosed hnodes
  obtain ⟨one, two, s, lamp, bell, ha, hone, htwo, hgs, -, -, hlamp, hbell⟩ :=
    lampDeck_shape hc.activities
  have hgroups : c.groups = [bell, lamp] := by
    rw [FlowChart.groups, ha]
    simp [hone, htwo, hgs]
  rw [hgroups] at henclosed
  refine ⟨lamp, bell, henclosed _ (by simp), henclosed _ (by simp), hlamp.branches.length_eq.symm,
    hbell.branches.length_eq.symm, ?_⟩
  rw [hc.joins, hgroups]
  rfl

end SlideFlow.Compile
