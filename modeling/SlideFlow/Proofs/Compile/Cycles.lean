/-
Where a compiled flow can loop. A flow is built from its end to its beginning, so what is generated
leads to nodes that were built before (`LeadsBack`). Copies of fragments need not: they are wired as
the fragment is, and the exit leads on to the mark behind it. With each copy contracted to its mark
the order of construction is a rank that never grows along wires, and it stays the same only inside
a copy. So a cycle of a flow is a cycle of one fragment, under the names of one of its copies.
-/
import SlideFlow.Proofs.Compile.Enclosure
import SlideFlow.Proofs.Flow.Walk
import Mathlib.Data.List.Flatten

namespace SlideFlow.Compile

open SlideFlow.Deck SlideFlow.Files SlideFlow.Flow SlideFlow.Fragment SlideFlow.Ident

variable {ρ α : Type}

/-! ## Order of construction -/

/-- Every generated node leads to nodes in front of it, or to some that are there before. -/
def LeadsBack (before : List ρ) : List (Node ρ) → Prop
  | [] => True
  | n :: rest =>
    (n.isCopy = false → ∀ t ∈ n.targets, t ∈ before) ∧ LeadsBack (before ++ [n.id]) rest

theorem LeadsBack.mono {before before' : List ρ} (hsub : before ⊆ before') :
    ∀ {nodes : List (Node ρ)}, LeadsBack before nodes → LeadsBack before' nodes
  | [], _ => trivial
  | n :: rest, h => by
    refine ⟨fun hn t ht => hsub (h.1 hn t ht), h.2.mono fun t ht => ?_⟩
    rw [List.mem_append] at ht ⊢
    exact ht.imp (fun h => hsub h) id

theorem leadsBack_append {before : List ρ} {xs ys : List (Node ρ)} :
    LeadsBack before (xs ++ ys) ↔
      LeadsBack before xs ∧ LeadsBack (before ++ xs.map (·.id)) ys := by
  induction xs generalizing before with
  | nil => simp [LeadsBack]
  | cons n xs ih => simp [LeadsBack, ih, and_assoc]

theorem leadsBack_of_forall {before : List ρ} : ∀ {nodes : List (Node ρ)},
    (∀ n ∈ nodes, n.isCopy = false → ∀ t ∈ n.targets, t ∈ before) → LeadsBack before nodes
  | [], _ => trivial
  | n :: rest, h => by
    refine ⟨h n (List.mem_cons_self ..), (leadsBack_of_forall fun m hm => ?_).mono
      (List.subset_append_left before [n.id])⟩
    exact h m (List.mem_cons_of_mem _ hm)

theorem leadsBack_flatMap {before : List ρ} {f : α → List (Node ρ)} : ∀ {xs : List α},
    (∀ x ∈ xs, LeadsBack before (f x)) → LeadsBack before (xs.flatMap f)
  | [], _ => trivial
  | x :: xs, h => by
    rw [List.flatMap_cons, leadsBack_append]
    refine ⟨h x (List.mem_cons_self ..), (leadsBack_flatMap fun y hy => ?_).mono
      (List.subset_append_left before _)⟩
    exact h y (List.mem_cons_of_mem _ hy)

theorem LeadsBack.targets_mem {n : Node ρ} (hn : n.isCopy = false) :
    ∀ {before : List ρ} {nodes : List (Node ρ)} {i : Nat}, LeadsBack before nodes →
      nodes[i]? = some n → ∀ t ∈ n.targets, t ∈ before ++ (nodes.take i).map (·.id)
  | before, m :: nodes, 0, h, hi, t, ht => by
    cases hi
    exact List.mem_append_left _ (h.1 hn t ht)
  | before, m :: nodes, i + 1, h, hi, t, ht => by
    rw [List.getElem?_cons_succ] at hi
    have := h.2.targets_mem hn hi t ht
    rwa [List.append_assoc, List.singleton_append, ← List.map_cons, ← List.take_succ_cons] at this

theorem BranchChart.leadsBack (c : BranchChart ρ) {before : List ρ} {join : ρ}
    (hjoin : join ∈ before) : LeadsBack before (c.nodes join) := by
  refine leadsBack_of_forall fun n hn hcopy t ht => ?_
  rcases List.mem_append.1 hn with hn | hn
  · obtain ⟨p, -, rfl⟩ := List.mem_map.1 hn
    obtain ⟨properties, hkind⟩ := c.copyNode_kind p
    simp [Node.isCopy, hkind] at hcopy
  · rw [List.mem_singleton.1 hn] at ht
    rwa [show t = join from List.mem_singleton.1 ht]

theorem GroupChart.leadsBack (c : GroupChart ρ) {before : List ρ} {next : ρ}
    (hnext : next ∈ before) : LeadsBack before (c.nodes next) := by
  unfold nodes
  rw [leadsBack_append]
  refine ⟨⟨fun _ t ht => ?_, leadsBack_flatMap fun b _ => b.leadsBack ?_⟩, fun _ t ht => ?_, trivial⟩
  · rwa [show t = next from List.mem_singleton.1 ht]
  · exact List.mem_append_right _ (List.mem_singleton_self _)
  · -- the fan-out is the last node of its group
    apply List.mem_append_right
    have hids := c.ids_nodes next
    rw [nodes, List.map_append, names] at hids
    rw [(List.append_inj' hids rfl).1]
    rcases c.fanOutNode_targets t ht with rfl | ⟨b, hb, rfl⟩
    · exact List.mem_cons_self ..
    · exact List.mem_cons_of_mem _
        (List.mem_flatMap.2 ⟨b, hb, b.mem_names_of_mem_copy b.entry_mem_copy⟩)

theorem chainHead_mem_ids {back : ρ} (gs : List (GroupChart ρ)) {before : List ρ}
    (hback : back ∈ before) :
    chainHead back gs ∈ before ++ (chainNodes back gs).map (·.id) := by
  rw [List.mem_append, ids_chainNodes]
  rcases chainHead_mem back gs with h | h
  · obtain ⟨g, hg, h⟩ := List.mem_flatMap.1 h
    exact Or.inr (List.mem_flatMap.2 ⟨g, List.mem_reverse.2 hg, h⟩)
  · rw [h]
    exact Or.inl hback

theorem leadsBack_chainNodes {back : ρ} {before : List ρ} (hback : back ∈ before) :
    ∀ gs : List (GroupChart ρ), LeadsBack before (chainNodes back gs)
  | [] => trivial
  | g :: gs => by
    unfold chainNodes
    rw [leadsBack_append]
    exact ⟨leadsBack_chainNodes hback gs, g.leadsBack (chainHead_mem_ids gs hback)⟩

theorem StepChart.leadsBack (c : StepChart ρ) {before : List ρ} {back : ρ}
    (hback : back ∈ before) : LeadsBack before (c.nodes back) := by
  unfold nodes
  rw [leadsBack_append]
  refine ⟨leadsBack_chainNodes hback c.groups, fun _ t ht => ?_, trivial⟩
  rw [show t = chainHead back c.groups from List.mem_singleton.1 ht]
  exact chainHead_mem_ids c.groups hback

theorem ActivityChart.leadsBack (c : ActivityChart ρ) {before : List ρ} {respond : ρ}
    (hrespond : respond ∈ before) : LeadsBack before (c.nodes respond) := by
  unfold nodes
  rw [leadsBack_append]
  refine ⟨⟨fun _ t ht => ?_, leadsBack_flatMap fun s _ => s.leadsBack ?_⟩, fun _ t ht => ?_, trivial⟩
  · rwa [show t = respond from List.mem_singleton.1 ht]
  · exact List.mem_append_right _ (List.mem_singleton_self _)
  · rw [switchNode, selector_targets] at ht
    obtain ⟨s, hs, rfl⟩ := List.mem_map.1 ht
    simp only [List.map_cons, List.map_flatMap, StepChart.ids_nodes]
    exact List.mem_append_right _
      (List.mem_cons_of_mem _ (List.mem_flatMap.2 ⟨s, hs, s.entry_mem_names⟩))

/-- What is generated leads back in the order of construction. -/
theorem FlowChart.leadsBack (c : FlowChart ρ) (route method : String) :
    LeadsBack [] (c.nodes route method) := by
  unfold nodes
  rw [leadsBack_append]
  refine ⟨⟨fun _ t ht => ?_, fun _ t ht => ht, ?_⟩, ?_⟩
  · cases ht
  · refine leadsBack_flatMap fun a _ => a.leadsBack ?_
    exact List.mem_append_right _ (List.mem_singleton_self _)
  · have hids : (([] : List ρ) ++ (.httpResponse c.answer :: c.respondNode ::
        c.activities.flatMap (·.nodes c.respond)).map (·.id)) =
        c.answer :: c.respond :: c.activities.flatMap ActivityChart.names := by
      simp only [List.nil_append, List.map_cons, List.map_flatMap, ActivityChart.ids_nodes]
      rfl
    rw [hids]
    refine ⟨fun _ t ht => ?_, fun _ t ht => ?_, fun _ t ht => ?_, fun _ t ht => ?_, trivial⟩
    · rw [show t = c.answer from List.mem_singleton.1 ht]
      exact List.mem_cons_self ..
    · rw [switchNode, selector_targets] at ht
      refine List.mem_append.2 ((List.mem_append.1 ht).imp (fun ht => ?_) id)
      obtain ⟨a, ha, rfl⟩ := List.mem_map.1 ht
      exact List.mem_cons_of_mem _
        (List.mem_cons_of_mem _ (List.mem_flatMap.2 ⟨a, ha, a.switch_mem_names⟩))
    · exact List.mem_append_right _ ht
    · exact List.mem_append_right _ ht

/-! ## Branches of a flow -/

/-- The branches of a flow in the order of construction. -/
def FlowChart.branches (c : FlowChart ρ) : List (BranchChart ρ) := c.groups.flatMap (·.branches)

theorem FlowChart.mem_branches {c : FlowChart ρ} {b : BranchChart ρ} :
    b ∈ c.branches ↔ ∃ g ∈ c.groups, b ∈ g.branches := List.mem_flatMap

/-- The names of the groups come in the order of construction. -/
theorem FlowChart.names_groups_sublist (c : FlowChart ρ) :
    (c.groups.flatMap GroupChart.names).Sublist c.names := by
  have hstep : ∀ s : StepChart ρ, (s.groups.reverse.flatMap GroupChart.names).Sublist s.names :=
    fun s => List.sublist_append_left _ _
  have hactivity : ∀ a : ActivityChart ρ, (a.steps.flatMap fun s =>
      s.groups.reverse.flatMap GroupChart.names).Sublist a.names := by
    intro a
    refine List.Sublist.trans ?_ (List.sublist_append_left _ _)
    exact (List.Sublist.flatMap_right _ fun s _ => hstep s).trans (List.sublist_cons_self _ _)
  simp only [groups, List.flatMap_assoc]
  refine List.Sublist.trans ?_ (List.sublist_append_left _ _)
  refine List.Sublist.trans ?_ ((List.sublist_cons_self _ _).trans (List.sublist_cons_self _ _))
  exact List.Sublist.flatMap_right _ fun a _ => hactivity a

theorem FlowChart.names_group_sublist {c : FlowChart ρ} {g : GroupChart ρ} (hg : g ∈ c.groups) :
    g.names.Sublist c.names := by
  refine List.Sublist.trans ?_ c.names_groups_sublist
  rw [List.flatMap_def]
  exact List.sublist_flatten_of_mem (List.mem_map_of_mem hg)

theorem FlowChart.names_branches_sublist (c : FlowChart ρ) :
    (c.branches.flatMap BranchChart.names).Sublist c.names := by
  refine List.Sublist.trans ?_ c.names_groups_sublist
  rw [branches, List.flatMap_assoc]
  exact List.Sublist.flatMap_right _ fun g _ =>
    (List.sublist_cons_self _ _).trans (List.sublist_append_left _ _)

/-- Different branches have no name in common. -/
theorem FlowChart.branch_eq {c : FlowChart ρ} (hc : c.names.Nodup) {b d : BranchChart ρ}
    (hb : b ∈ c.branches) (hd : d ∈ c.branches) {t : ρ} (htb : t ∈ b.names) (htd : t ∈ d.names) :
    b = d :=
  eq_of_mem_names (hc.sublist c.names_branches_sublist) hb hd htb htd

theorem FlowChart.nodup_branch {c : FlowChart ρ} (hc : c.names.Nodup) {b : BranchChart ρ}
    (hb : b ∈ c.branches) : b.names.Nodup :=
  (List.nodup_flatMap.1 (hc.sublist c.names_branches_sublist)).1 b hb

theorem BranchChart.mark_mem_names (c : BranchChart ρ) : c.mark ∈ c.names :=
  List.mem_append_right _ (List.mem_singleton_self _)

theorem FlowChart.mark_mem_names {c : FlowChart ρ} {b : BranchChart ρ} (hb : b ∈ c.branches) :
    b.mark ∈ c.names :=
  c.names_branches_sublist.subset (List.mem_flatMap.2 ⟨b, hb, b.mark_mem_names⟩)

/-- No copy holds a mark. -/
theorem FlowChart.mark_not_mem_copy {c : FlowChart ρ} (hc : c.names.Nodup) {b d : BranchChart ρ}
    (hb : b ∈ c.branches) (hd : d ∈ c.branches) : b.mark ∉ d.copy := by
  intro h
  obtain rfl := c.branch_eq hc hb hd b.mark_mem_names (d.mem_names_of_mem_copy h)
  exact b.mark_not_mem (c.nodup_branch hc hb) h

/-- The nodes of a group are nodes of the flow. -/
theorem FlowChart.group_nodes_subset (c : FlowChart ρ) (route method : String) {g : GroupChart ρ}
    (hg : g ∈ c.groups) : ∃ next, g.nodes next ⊆ c.nodes route method := by
  obtain ⟨a, ha, hg⟩ := List.mem_flatMap.1 hg
  obtain ⟨s, hs, hg⟩ := List.mem_flatMap.1 hg
  obtain ⟨m, hm⟩ := List.mem_iff_getElem?.1 (List.mem_reverse.1 hg)
  refine ⟨chainHead a.back (s.groups.drop (m + 1)), fun n hn => ?_⟩
  have hstep : n ∈ s.nodes a.back :=
    List.mem_append_left _ (nodes_subset_chainNodes a.back s.groups m g hm hn)
  exact c.activity_nodes_subset route method ha (a.step_nodes_subset c.respond hs hstep)

theorem FlowChart.copyNode_mem {c : FlowChart ρ} (route method : String) {b : BranchChart ρ}
    (hb : b ∈ c.branches) {p : Part} (hp : p ∈ b.fragment.parts) :
    b.copyNode p ∈ c.nodes route method := by
  obtain ⟨g, hg, hb⟩ := c.mem_branches.1 hb
  obtain ⟨next, hsub⟩ := c.group_nodes_subset route method hg
  have hbranch : b.copyNode p ∈ b.nodes g.join := List.mem_append_left _ (List.mem_map_of_mem hp)
  exact hsub (g.branch_nodes_subset next hb hbranch)

/-! ## Copies contracted to their marks -/

section Rank

variable [DecidableEq ρ]

/-- Where a node stands if each copy is contracted to its mark. -/
def FlowChart.anchor (c : FlowChart ρ) (x : ρ) : ρ :=
  ((c.branches.find? (x ∈ ·.copy)).map (·.mark)).getD x

/-- The order of construction with each copy contracted to its mark. -/
def FlowChart.rank (c : FlowChart ρ) (x : ρ) : Nat := c.names.idxOf (c.anchor x)

theorem FlowChart.anchor_of_mem_copy {c : FlowChart ρ} (hc : c.names.Nodup) {b : BranchChart ρ}
    (hb : b ∈ c.branches) {x : ρ} (hx : x ∈ b.copy) : c.anchor x = b.mark := by
  unfold anchor
  cases hfind : c.branches.find? (x ∈ ·.copy) with
  | none =>
    have := List.find?_eq_none.1 hfind b hb
    simp [hx] at this
  | some d =>
    have hxd : x ∈ d.copy := by simpa using List.find?_some hfind
    rw [c.branch_eq hc hb (List.mem_of_find?_eq_some hfind) (b.mem_names_of_mem_copy hx)
      (d.mem_names_of_mem_copy hxd)]
    rfl

theorem FlowChart.anchor_of_not_mem_copy {c : FlowChart ρ} {x : ρ}
    (hx : ∀ b ∈ c.branches, x ∉ b.copy) : c.anchor x = x := by
  have hfind : c.branches.find? (x ∈ ·.copy) = none :=
    List.find?_eq_none.2 fun b hb => by simpa using hx b hb
  rw [anchor, hfind]
  rfl

/-- In a list of different names each one stands behind those in front of it. -/
theorem pairwise_idxOf {l : List ρ} (h : l.Nodup) :
    l.Pairwise fun x y => l.idxOf x < l.idxOf y := by
  rw [List.pairwise_iff_getElem]
  intro i j hi hj hij
  rwa [h.idxOf_getElem i, h.idxOf_getElem j]

/-- The marks of a group stand in front of its fan-out. -/
theorem FlowChart.mark_lt_fanOut {c : FlowChart ρ} (hc : c.names.Nodup) {g : GroupChart ρ}
    (hg : g ∈ c.groups) {b : BranchChart ρ} (hb : b ∈ g.branches) :
    c.names.idxOf b.mark < c.names.idxOf g.fanOut := by
  have horder := (pairwise_idxOf hc).sublist (c.names_group_sublist hg)
  unfold GroupChart.names at horder
  refine (List.pairwise_append.1 horder).2.2 b.mark ?_ g.fanOut (List.mem_singleton_self _)
  exact List.mem_cons_of_mem _ (List.mem_flatMap.2 ⟨b, hb, b.mark_mem_names⟩)

/-- A generated node leads to names in front of its own. -/
theorem FlowChart.lt_of_leads {c : FlowChart ρ} (hc : c.names.Nodup) {route method : String}
    {x y : ρ} (h : Leads (c.nodes route method) x y) (hx : ∀ b ∈ c.branches, x ∉ b.copy) :
    c.names.idxOf y < c.names.idxOf x := by
  obtain ⟨n, hn, rfl, hy⟩ := h
  have hcopy : n.isCopy = false := by
    by_contra hcopy
    have hid : n.id ∈ ((c.nodes route method).filter Node.isCopy).map (·.id) :=
      List.mem_map_of_mem (List.mem_filter.2 ⟨hn, by simpa using hcopy⟩)
    rw [c.copies_nodes, List.mem_flatMap] at hid
    obtain ⟨g, hg, hid⟩ := hid
    obtain ⟨b, hb, hid⟩ := List.mem_flatMap.1 hid
    exact hx b (c.mem_branches.2 ⟨g, hg, hb⟩) hid
  obtain ⟨i, hi⟩ := List.mem_iff_getElem?.1 hn
  have hin := (c.leadsBack route method).targets_mem hcopy hi y hy
  rw [List.nil_append, List.map_take, c.ids_nodes] at hin
  -- the names are those in front of the node, its own, and those behind it
  have hname : c.names[i]? = some n.id := by
    rw [← c.ids_nodes route method, List.getElem?_map, hi]
    rfl
  have horder := pairwise_idxOf hc
  rw [← List.take_append_drop i c.names, List.pairwise_append] at horder
  refine List.take_append_drop i c.names ▸ horder.2.2 y hin n.id ?_
  obtain ⟨hlt, hget⟩ := List.getElem?_eq_some_iff.1 hname
  rw [List.drop_eq_getElem_cons hlt, hget]
  exact List.mem_cons_self ..

/-- Along a wire the contracted order falls, unless the wire begins in a copy: then it ends in it or
at its mark. -/
theorem FlowChart.rank_of_leads {c : FlowChart ρ} (hc : c.names.Nodup) {route method : String}
    {x y : ρ} (h : Leads (c.nodes route method) x y) :
    c.rank y < c.rank x ∨ ∃ b ∈ c.branches, x ∈ b.copy ∧ c.anchor y = b.mark := by
  obtain ⟨port, hwire⟩ := h.exists_wire
  by_cases hx : ∃ b ∈ c.branches, x ∈ b.copy
  · obtain ⟨b, hb, hxb⟩ := hx
    refine Or.inr ⟨b, hb, hxb, ?_⟩
    by_cases hyb : y ∈ b.copy
    · exact c.anchor_of_mem_copy hc hb hyb
    · -- the one wire that leaves the copy leads to the mark
      obtain ⟨g, hg, hbg⟩ := c.mem_branches.1 hb
      have hleaves := List.mem_filter.2 ⟨hwire, BranchChart.leaves_iff.2 ⟨hxb, hyb⟩⟩
      rw [(c.enclosed hc route method hg).leaves b hbg, List.mem_singleton] at hleaves
      obtain rfl : y = b.mark := congrArg Wire.target hleaves
      exact c.anchor_of_not_mem_copy fun d hd => c.mark_not_mem_copy hc hb hd
  · push Not at hx
    left
    unfold rank
    rw [c.anchor_of_not_mem_copy hx]
    by_cases hy : ∃ b ∈ c.branches, y ∈ b.copy
    · -- the one wire that enters a copy comes from the fan-out
      obtain ⟨b, hb, hyb⟩ := hy
      rw [c.anchor_of_mem_copy hc hb hyb]
      obtain ⟨g, hg, hbg⟩ := c.mem_branches.1 hb
      obtain ⟨i, hi⟩ := List.mem_iff_getElem?.1 hbg
      have henters := List.mem_filter.2 ⟨hwire, BranchChart.enters_iff.2 ⟨hx b hb, hyb⟩⟩
      rw [(c.enclosed hc route method hg).enters i b hi, List.mem_singleton] at henters
      obtain rfl : x = g.fanOut := congrArg Wire.source henters
      exact c.mark_lt_fanOut hc hg hbg
    · push Not at hy
      rw [c.anchor_of_not_mem_copy hy]
      exact c.lt_of_leads hc h hx

/-- A cycle stays in one copy. -/
theorem FlowChart.cycle_in_copy {c : FlowChart ρ} (hc : c.names.Nodup) {route method : String}
    {first : ρ} {rest : List ρ} (h : IsCycle (Leads (c.nodes route method)) first rest) :
    ∃ b ∈ c.branches, ∀ x ∈ first :: rest, x ∈ b.copy := by
  have hrank : ∀ x y, Leads (c.nodes route method) x y → c.rank y ≤ c.rank x := by
    intro x y hxy
    rcases c.rank_of_leads hc hxy with hlt | ⟨b, hb, hx, hy⟩
    · exact Nat.le_of_lt hlt
    · rw [rank, rank, c.anchor_of_mem_copy hc hb hx, hy]
  -- the rank cannot fall, so every node of the cycle is in some copy
  have hcopy : ∀ x ∈ first :: rest, ∃ b ∈ c.branches, x ∈ b.copy ∧
      c.names.idxOf b.mark = c.rank first := by
    intro x hx
    obtain ⟨hfirst, y, hxy, hy⟩ := h.rank_eq hrank hx
    rcases c.rank_of_leads hc hxy with hlt | ⟨b, hb, hxb, -⟩
    · omega
    · exact ⟨b, hb, hxb, by rw [← hfirst, rank, c.anchor_of_mem_copy hc hb hxb]⟩
  obtain ⟨b, hb, -, hmark⟩ := hcopy first (List.mem_cons_self ..)
  refine ⟨b, hb, fun x hx => ?_⟩
  obtain ⟨d, hd, hxd, hmark'⟩ := hcopy x hx
  have hsame : d.mark = b.mark :=
    (List.idxOf_inj (c.mark_mem_names hd)).1 (hmark'.trans hmark.symm)
  rwa [← c.branch_eq hc hd hb d.mark_mem_names (hsame ▸ b.mark_mem_names)]

end Rank

/-! ## Cycles of fragments -/

/-- Wires inside a copy are wires of the fragment. -/
theorem FlowChart.leads_of_leads_rename {c : FlowChart ρ} (hc : c.names.Nodup)
    {route method : String} {b : BranchChart ρ} (hb : b ∈ c.branches) {s t : Text.RawText}
    (hs : s ∈ Fragment.names b.fragment.parts) (ht : t ∈ Fragment.names b.fragment.parts)
    (h : Leads (c.nodes route method) (b.rename s) (b.rename t)) : b.fragment.Leads s t := by
  have hbnames := c.nodup_branch hc hb
  have hinj : ∀ u ∈ Fragment.names b.fragment.parts, ∀ v ∈ Fragment.names b.fragment.parts,
      b.rename u = b.rename v → u = v := fun u hu v hv =>
    List.inj_on_of_nodup_map hbnames.of_append_left hu hv
  obtain ⟨n, hn, hid, ht'⟩ := h
  obtain ⟨p, hp, rfl⟩ := List.mem_map.1 hs
  -- names are given once, so the node is the copy
  have hids : ((c.nodes route method).map (·.id)).Nodup := by rwa [c.ids_nodes]
  obtain rfl : n = b.copyNode p := by
    refine List.inj_on_of_nodup_map hids hn (c.copyNode_mem route method hb hp) ?_
    rw [hid, b.copyNode_id]
  have hplain : b.rename t ∈ (b.plainCopy p).targets := by
    unfold BranchChart.copyNode at ht'
    split at ht'
    · refine (b.exitCopy_targets p _ ht').resolve_right fun he => ?_
      exact b.mark_not_mem hbnames (he ▸ b.rename_mem_copy ht)
    · exact ht'
  obtain ⟨port, hport, hin⟩ := List.mem_flatten.1 hplain
  obtain ⟨named, hnamed, rfl⟩ := List.mem_map.1 hport
  obtain ⟨u, hu, he⟩ := List.mem_map.1 hin
  obtain rfl := hinj u (b.fragment.closed p hp named hnamed u hu) t ht he
  exact ⟨p, hp, rfl, List.mem_flatten.2 ⟨named, hnamed, hu⟩⟩

/-- A cycle of a flow is a cycle of one of its fragments, under the names of one copy. -/
theorem FlowChart.cycle_of_fragment [DecidableEq ρ] {c : FlowChart ρ} (hc : c.names.Nodup)
    {route method : String} {first : ρ} {rest : List ρ}
    (h : IsCycle (Leads (c.nodes route method)) first rest) :
    ∃ b ∈ c.branches, ∃ s path, (∀ u ∈ s :: path, u ∈ Fragment.names b.fragment.parts) ∧
      first :: rest = (s :: path).map b.rename ∧ IsCycle b.fragment.Leads s path := by
  obtain ⟨b, hb, hin⟩ := c.cycle_in_copy hc h
  have hnamed : ∀ x, x ∈ b.copy → ∃ s, s ∈ Fragment.names b.fragment.parts ∧ b.rename s = x :=
    fun x hx => List.mem_map.1 hx
  choose! original hmem hrename using hnamed
  refine ⟨b, hb, original first, rest.map original, ?_, ?_, ?_⟩
  · rw [← List.map_cons]
    intro u hu
    obtain ⟨x, hx, rfl⟩ := List.mem_map.1 hu
    exact hmem x (hin x hx)
  · rw [← List.map_cons, List.map_map]
    exact ((List.map_congr_left fun x hx => hrename x (hin x hx)).trans (List.map_id _)).symm
  · show ((first :: rest).map original ++ [first].map original).IsChain b.fragment.Leads
    rw [← List.map_append, List.isChain_map]
    have hall : ∀ x ∈ first :: rest ++ [first], x ∈ b.copy := by
      intro x hx
      rcases List.mem_append.1 hx with hx | hx
      · exact hin x hx
      · exact hin x (List.mem_singleton.1 hx ▸ List.mem_cons_self ..)
    refine List.IsChain.imp_of_mem_imp (fun x y hx hy hxy => ?_) h
    rw [← hrename x (hall x hx), ← hrename y (hall y hy)] at hxy
    exact c.leads_of_leads_rename hc hb (hmem x (hall x hx)) (hmem y (hall y hy)) hxy

/-! ## Compiled flows -/

variable {σ : Type} [Source σ] {options : Options} {files : Tree} {pool : Pool σ}
variable {activities : List Activity} {nodes : List (Node String)}

/-- Compiling makes no loops. A generated node leads to nodes that stand in front of it in the flow,
and a cycle of wires stays in one copy of a fragment, in which it is a cycle already. -/
theorem compiled_cycles_in_copies
    (h : (compile options files pool activities).result = .ok nodes) :
    ∃ c : FlowChart String, c.Charts options files activities nodes ∧
      (∀ (i : Nat) (n : Node String), nodes[i]? = some n → n.isCopy = false →
        ∀ t ∈ n.targets, t ∈ (nodes.take i).map (·.id)) ∧
      ∀ first rest, IsCycle (Leads nodes) first rest →
        ∃ g ∈ c.groups, ∃ b ∈ g.branches, (∀ x ∈ first :: rest, x ∈ b.copy) ∧
          ∃ s path, first = b.rename s ∧ rest = path.map b.rename ∧
            IsCycle b.fragment.Leads s path := by
  obtain ⟨c, hc, rfl⟩ := compile_charts h
  refine ⟨c, hc, fun i n hi hn t ht => ?_, fun first rest hcycle => ?_⟩
  · have := (c.leadsBack options.route options.method).targets_mem hn hi t ht
    rwa [List.nil_append] at this
  · obtain ⟨b, hb, s, path, hnamed, hpath, hfragment⟩ := c.cycle_of_fragment hc.nodup hcycle
    obtain ⟨g, hg, hb⟩ := c.mem_branches.1 hb
    refine ⟨g, hg, b, hb, fun x hx => ?_, s, path, (List.cons.inj hpath).1, (List.cons.inj hpath).2,
      hfragment⟩
    rw [hpath] at hx
    obtain ⟨u, hu, rfl⟩ := List.mem_map.1 hx
    exact b.rename_mem_copy (hnamed u hu)

/-- The files of the lamp and the bell, with a lamp whose exit leads back to its entry. -/
def loopFiles : Tree := filesWithLamp
  ("\x7b\"meta\":\x7b\"in\":\"a\",\"out\":\"b\"\x7d,\"flow\":[" ++
    "\x7b\"id\":\"a\",\"type\":\"t\",\"wires\":[[\"b\"]]\x7d," ++
    "\x7b\"id\":\"b\",\"type\":\"t\",\"wires\":[[\"a\"]]\x7d]\x7d")

/-- With that lamp the flow has a cycle, which is the one of the lamp. -/
theorem compiled_cycles_in_copies_loop :
    ∃ nodes, (compile lampOptions loopFiles lampPool lampDeck).result = .ok nodes ∧
      ∃ (x y : String), IsCycle (Leads nodes) x [y] ∧
        ∃ (b : BranchChart String) (s t : Text.RawText), x = b.rename s ∧ y = b.rename t ∧
          IsCycle b.fragment.Leads s [t] := by
  have hcheck : (match (compile lampOptions loopFiles lampPool lampDeck).result with
      | .ok nodes => decide (∃ n ∈ nodes, ∃ m ∈ nodes, m.id ∈ n.targets ∧ n.id ∈ m.targets)
      | .error _ => false) = true := by decide +kernel
  split at hcheck
  · rename_i nodes hnodes
    obtain ⟨n, hn, m, hm, hnm, hmn⟩ := of_decide_eq_true hcheck
    have hcycle : IsCycle (Leads nodes) n.id [m.id] :=
      .cons_cons (leads_of_mem hn hnm) (.cons_cons (leads_of_mem hm hmn) (.singleton _))
    obtain ⟨c, -, -, hcycles⟩ := compiled_cycles_in_copies hnodes
    obtain ⟨g, -, b, -, -, s, path, hs, hpath, hfragment⟩ := hcycles _ _ hcycle
    obtain ⟨t, rest, rfl, ht, hrest⟩ := List.map_eq_cons_iff.1 hpath.symm
    obtain rfl := List.map_eq_nil_iff.1 hrest
    exact ⟨nodes, hnodes, n.id, m.id, hcycle, b, s, t, hs, ht.symm, hfragment⟩
  · cases hcheck

end SlideFlow.Compile
