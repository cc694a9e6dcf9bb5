/-
What a request comes to. If a message can pass each fragment from the entry to the exit, then it can
pass the copies, and with them every group, every step and the whole flow: all of the flow is reached
from where requests come in, and from everywhere the answer is reached. The exceptions are the return
of an activity without steps and, if no activity has any, the node that answers a request while
activities are left. Nothing leads there.
-/
import SlideFlow.Proofs.Compile.Enclosure
import SlideFlow.Proofs.Flow.Walk

namespace SlideFlow.Fragment

/-- The exit of a fragment is reached from its entry. -/
def Passable (f : Fragment) : Prop := Relation.ReflTransGen f.Leads f.entry f.exit

end SlideFlow.Fragment

namespace SlideFlow.Compile

open SlideFlow.Deck SlideFlow.Files SlideFlow.Flow SlideFlow.Fragment SlideFlow.Ident
open SlideFlow.Timeline

variable {ρ : Type} {all : List (Node ρ)}

/-! ## Through a branch -/

/-- The copy of a node has the wires of the node. -/
theorem BranchChart.plainCopy_targets_subset (c : BranchChart ρ) (p : Part) :
    ∀ t ∈ (c.plainCopy p).targets, t ∈ (c.copyNode p).targets := by
  intro t ht
  unfold copyNode
  split
  · unfold exitCopy
    unfold Node.targets at ht ⊢
    cases hw : (c.plainCopy p).wires with
    | nil => simp [hw] at ht
    | cons port ports =>
      rw [hw, List.flatten_cons, List.mem_append] at ht
      simp only [List.headD_cons, List.tail_cons, List.flatten_cons, List.mem_append]
      exact ht.imp Or.inl id
  · exact ht

theorem BranchChart.mark_mem_exitCopy_targets (c : BranchChart ρ) (p : Part) :
    c.mark ∈ (c.exitCopy p).targets := by
  unfold exitCopy Node.targets
  rw [List.flatten_cons, List.mem_append]
  exact Or.inl (List.mem_append_right _ (List.mem_singleton_self _))

/-- Walks through a fragment are walks through its copies. -/
theorem BranchChart.reaches_rename {c : BranchChart ρ} {join : ρ} (hall : c.nodes join ⊆ all)
    {s t : Text.RawText} (h : Relation.ReflTransGen c.fragment.Leads s t) :
    Reaches all (c.rename s) (c.rename t) := by
  refine Relation.ReflTransGen.lift c.rename ?_ _ _ h
  rintro s t ⟨p, hp, rfl, ht⟩
  obtain ⟨port, hport, ht⟩ := List.mem_flatten.1 ht
  have htarget : c.rename t ∈ (c.plainCopy p).targets :=
    List.mem_flatten.2 ⟨_, List.mem_map_of_mem hport, List.mem_map_of_mem ht⟩
  have hnode : c.copyNode p ∈ all := hall (List.mem_append_left _ (List.mem_map_of_mem hp))
  exact ⟨c.copyNode p, hnode, c.copyNode_id p, c.plainCopy_targets_subset p _ htarget⟩

theorem BranchChart.reaches_mark {c : BranchChart ρ} {join : ρ} (hall : c.nodes join ⊆ all)
    (hpass : c.fragment.Passable) : Reaches all c.entry c.mark := by
  obtain ⟨p, hp, hexit⟩ := List.mem_map.1 c.fragment.exit_mem
  have hnode : c.copyNode p ∈ all := hall (List.mem_append_left _ (List.mem_map_of_mem hp))
  have hout : Leads all c.exit c.mark := by
    refine ⟨c.copyNode p, hnode, by rw [c.copyNode_id, hexit]; rfl, ?_⟩
    rw [copyNode, if_pos hexit]
    exact c.mark_mem_exitCopy_targets p
  exact (c.reaches_rename hall hpass).tail hout

theorem BranchChart.leads_join {c : BranchChart ρ} {join : ρ} (hall : c.nodes join ⊆ all) :
    Leads all c.mark join :=
  ⟨c.markNode join, hall (List.mem_append_right _ (List.mem_singleton_self _)), rfl,
    List.mem_singleton_self _⟩

/-! ## Through a group -/

theorem GroupChart.leads_next {c : GroupChart ρ} {next : ρ} (hall : c.nodes next ⊆ all) :
    Leads all c.join next :=
  ⟨c.joinNode next, hall (List.mem_cons_self ..), rfl, List.mem_singleton_self _⟩

theorem GroupChart.leads_fanOut {c : GroupChart ρ} {next : ρ} (hall : c.nodes next ⊆ all) {t : ρ}
    (ht : t ∈ c.fanOutWires.flatten) : Leads all c.fanOut t :=
  ⟨c.fanOutNode, hall (List.mem_append_right _ (List.mem_singleton_self _)), rfl, ht⟩

theorem GroupChart.leads_entry {c : GroupChart ρ} {next : ρ} (hall : c.nodes next ⊆ all)
    {b : BranchChart ρ} (hb : b ∈ c.branches) : Leads all c.fanOut b.entry := by
  apply c.leads_fanOut hall
  unfold fanOutWires
  split
  · rename_i hnone
    rw [hnone] at hb
    cases hb
  · exact List.mem_flatten.2 ⟨[b.entry], List.mem_map_of_mem hb, List.mem_singleton_self _⟩

/-- The nodes of a group outside of the copies. -/
def GroupChart.stations (c : GroupChart ρ) : List ρ :=
  c.fanOut :: c.branches.map (·.mark) ++ [c.join]

/-- A group that can be passed, from the fan-out over each of its nodes to the next node. -/
theorem GroupChart.reaches {c : GroupChart ρ} {next : ρ} (hall : c.nodes next ⊆ all)
    (hpass : ∀ b ∈ c.branches, b.fragment.Passable) :
    ∀ x ∈ c.stations, Reaches all c.fanOut x ∧ Reaches all x next := by
  have hnext : Reaches all c.join next := .single (c.leads_next hall)
  have hmark : ∀ b ∈ c.branches, Reaches all c.fanOut b.mark ∧ Reaches all b.mark c.join := by
    intro b hb
    have hbranch : b.nodes c.join ⊆ all := fun n hn => hall (c.branch_nodes_subset next hb hn)
    exact ⟨.head (c.leads_entry hall hb) (b.reaches_mark hbranch (hpass b hb)),
      .single (b.leads_join hbranch)⟩
  have hjoin : Reaches all c.fanOut c.join := by
    cases hbranches : c.branches with
    | nil =>
      refine .single (c.leads_fanOut hall ?_)
      rw [fanOutWires, hbranches]
      exact List.mem_singleton_self _
    | cons b bs =>
      have hb := hmark b (hbranches ▸ List.mem_cons_self ..)
      exact hb.1.trans hb.2
  intro x hx
  simp only [stations, List.cons_append, List.mem_cons, List.mem_append, List.mem_map,
    List.not_mem_nil, or_false] at hx
  rcases hx with rfl | ⟨b, hb, rfl⟩ | rfl
  · exact ⟨.refl, hjoin.trans hnext⟩
  · exact ⟨(hmark b hb).1, (hmark b hb).2.trans hnext⟩
  · exact ⟨hjoin, hnext⟩

/-! ## Through a step -/

/-- A chain of groups that can be passed, from where it is entered to its end. -/
theorem chain_reaches {back : ρ} : ∀ {gs : List (GroupChart ρ)}, chainNodes back gs ⊆ all →
    (∀ g ∈ gs, ∀ b ∈ g.branches, b.fragment.Passable) →
      Reaches all (chainHead back gs) back ∧ ∀ g ∈ gs, ∀ x ∈ g.stations,
        Reaches all (chainHead back gs) x ∧ Reaches all x back
  | [], _, _ => ⟨.refl, fun g hg => by cases hg⟩
  | g :: gs, hall, hpass => by
    have hrest : chainNodes back gs ⊆ all := fun n hn => hall (List.mem_append_left _ hn)
    have hgroup : g.nodes (chainHead back gs) ⊆ all := fun n hn => hall (List.mem_append_right _ hn)
    obtain ⟨hback, hstations⟩ := chain_reaches hrest fun g' hg' => hpass g' (List.mem_cons_of_mem _ hg')
    have hfirst := g.reaches hgroup (hpass g (List.mem_cons_self ..))
    have hthrough : Reaches all g.fanOut (chainHead back gs) :=
      (hfirst g.fanOut (List.mem_cons_self ..)).2
    refine ⟨hthrough.trans hback, fun g' hg' x hx => ?_⟩
    rcases List.mem_cons.1 hg' with rfl | hg'
    · exact ⟨(hfirst x hx).1, (hfirst x hx).2.trans hback⟩
    · exact ⟨hthrough.trans (hstations g' hg' x hx).1, (hstations g' hg' x hx).2⟩

/-- The nodes of a step outside of the copies. -/
def StepChart.stations (c : StepChart ρ) : List ρ :=
  c.entry :: c.groups.flatMap GroupChart.stations

/-- A step that can be passed, from its entry over each of its nodes to the return. -/
theorem StepChart.reaches {c : StepChart ρ} {back : ρ} (hall : c.nodes back ⊆ all)
    (hpass : ∀ g ∈ c.groups, ∀ b ∈ g.branches, b.fragment.Passable) :
    ∀ x ∈ c.stations, Reaches all c.entry x ∧ Reaches all x back := by
  have hentry : Leads all c.entry (chainHead back c.groups) :=
    ⟨c.entryNode back, hall (List.mem_append_right _ (List.mem_singleton_self _)), rfl,
      List.mem_singleton_self _⟩
  obtain ⟨hback, hgroups⟩ :=
    chain_reaches (fun n hn => hall (List.mem_append_left _ hn)) hpass
  intro x hx
  rcases List.mem_cons.1 hx with rfl | hx
  · exact ⟨.refl, .head hentry hback⟩
  · obtain ⟨g, hg, hx⟩ := List.mem_flatMap.1 hx
    exact ⟨.head hentry (hgroups g hg x hx).1, (hgroups g hg x hx).2⟩

/-! ## Through a flow -/

theorem ActivityChart.leads_respond {c : ActivityChart ρ} {respond : ρ}
    (hall : c.nodes respond ⊆ all) : Leads all c.back respond :=
  ⟨c.backNode respond, hall (List.mem_cons_self ..), rfl, List.mem_singleton_self _⟩

theorem ActivityChart.leads_entry {c : ActivityChart ρ} {respond : ρ}
    (hall : c.nodes respond ⊆ all) {s : StepChart ρ} (hs : s ∈ c.steps) :
    Leads all c.switch s.entry := by
  refine ⟨c.switchNode, hall (List.mem_append_right _ (List.mem_singleton_self _)), rfl, ?_⟩
  rw [switchNode, selector_targets]
  exact List.mem_map_of_mem hs

namespace FlowChart

variable {c : FlowChart ρ} {route method : String}

/-- The nodes of the steps of a flow, outside of the copies. -/
def stations (c : FlowChart ρ) : List ρ :=
  c.activities.flatMap fun a => a.steps.flatMap StepChart.stations

theorem leads_answer : Leads (c.nodes route method) c.respond c.answer ∧
    Leads (c.nodes route method) c.finished c.answer :=
  ⟨⟨c.respondNode, by simp [nodes], rfl, List.mem_singleton_self _⟩,
    ⟨c.finishedNode, by simp [nodes], rfl, List.mem_singleton_self _⟩⟩

theorem reaches_switch : Reaches (c.nodes route method) c.request c.counter ∧
    Reaches (c.nodes route method) c.request c.switch := by
  have hrequest : Leads (c.nodes route method) c.request c.counter :=
    ⟨.httpIn c.request route method c.counter, by simp [nodes], rfl, List.mem_singleton_self _⟩
  have hcounter : Leads (c.nodes route method) c.counter c.switch :=
    ⟨c.counterNode, by simp [nodes], rfl, List.mem_singleton_self _⟩
  exact ⟨.single hrequest, .tail (.single hrequest) hcounter⟩

theorem leads_of_switch {t : ρ} (ht : t ∈ c.activities.map (·.switch) ++ [c.finished]) :
    Leads (c.nodes route method) c.switch t := by
  refine ⟨c.switchNode, by simp [nodes], rfl, ?_⟩
  rwa [switchNode, selector_targets]

theorem reaches_activity {a : ActivityChart ρ} (ha : a ∈ c.activities) :
    Reaches (c.nodes route method) c.request a.switch :=
  c.reaches_switch.2.tail
    (c.leads_of_switch (List.mem_append_left _ (List.mem_map_of_mem ha)))

/-- Requests come to each station and on to the return of its activity. -/
theorem reaches_station
    (hpass : ∀ g ∈ c.groups, ∀ b ∈ g.branches, b.fragment.Passable) {a : ActivityChart ρ}
    (ha : a ∈ c.activities) {s : StepChart ρ} (hs : s ∈ a.steps) :
    ∀ x ∈ s.stations, Reaches (c.nodes route method) c.request x ∧
      Reaches (c.nodes route method) x a.back := by
  have hactivity := c.activity_nodes_subset route method ha
  have hgroups : ∀ g ∈ s.groups, g ∈ c.groups := fun g hg =>
    List.mem_flatMap.2 ⟨a, ha, List.mem_flatMap.2 ⟨s, hs, List.mem_reverse.2 hg⟩⟩
  have hstep := s.reaches (fun n hn => hactivity (a.step_nodes_subset c.respond hs hn))
    fun g hg => hpass g (hgroups g hg)
  have hentry := (c.reaches_activity ha).tail (a.leads_entry hactivity hs)
  exact fun x hx => ⟨hentry.trans (hstep x hx).1, (hstep x hx).2⟩

/-! ## Where nothing leads -/

/-- Only the returns of activities lead to the answer while activities are left. -/
theorem eq_back_of_leads (hc : c.names.Nodup) {x : ρ}
    (h : Leads (c.nodes route method) x c.respond) : ∃ a ∈ c.activities, x = a.back := by
  obtain ⟨n, hn, rfl, ht⟩ := h
  have hdistinct := hc
  simp only [names, List.cons_append, List.nodup_cons, List.mem_cons, List.mem_append,
    List.nodup_append'] at hdistinct
  obtain ⟨hanswer, hrespond, -⟩ := hdistinct
  -- the nodes around the activities lead elsewhere, and so do those inside of an activity
  simp only [nodes, List.cons_append, List.mem_cons, List.mem_append, List.mem_flatMap,
    List.not_mem_nil, or_false] at hn
  rcases hn with rfl | rfl | ⟨a, ha, hn⟩ | rfl | rfl | rfl | rfl
  · cases ht
  · exact absurd (List.mem_singleton.1 ht).symm fun h => hanswer (Or.inl h)
  · have hout : c.respond ∉ a.names := c.not_mem_activity hc ha _ (by simp)
    simp only [ActivityChart.nodes, List.cons_append, List.mem_cons, List.mem_append,
      List.mem_flatMap, List.not_mem_nil, or_false] at hn
    rcases hn with rfl | ⟨s, hs, hn⟩ | rfl
    · exact ⟨a, ha, rfl⟩
    · rcases s.nodes_targets a.back n hn _ ht with h | h
      · exact absurd (a.step_names_subset hs _ h) hout
      · exact absurd (h ▸ a.back_mem_names) hout
    · rw [ActivityChart.switchNode, selector_targets] at ht
      obtain ⟨s, hs, he⟩ := List.mem_map.1 ht
      exact absurd (he ▸ a.step_names_subset hs _ s.entry_mem_names) hout
  · exact absurd (List.mem_singleton.1 ht).symm fun h => hanswer (Or.inl h)
  · rw [switchNode, selector_targets, List.mem_append, List.mem_singleton] at ht
    rcases ht with ht | ht
    · obtain ⟨a, ha, he⟩ := List.mem_map.1 ht
      exact absurd (he ▸ a.switch_mem_names) (c.not_mem_activity hc ha _ (by simp))
    · exact absurd ht fun h => hrespond (by simp [h])
  · exact absurd (List.mem_singleton.1 ht) fun h => hrespond (by simp [h])
  · exact absurd (List.mem_singleton.1 ht) fun h => hrespond (by simp [h])

/-- Nothing leads to the return of an activity without steps. -/
theorem steps_ne_nil_of_leads [DecidableEq ρ] (hc : c.names.Nodup) {a : ActivityChart ρ}
    (ha : a ∈ c.activities) {x : ρ} (h : Leads (c.nodes route method) x a.back) : a.steps ≠ [] := by
  intro hsteps
  have hout : c.respond ∉ a.names := c.not_mem_activity hc ha _ (by simp)
  have hanames : a.names.Nodup := (List.nodup_flatMap.1 (c.nodup_activities hc)).1 a ha
  have hne : a.back ≠ a.switch := by
    rw [ActivityChart.names, List.nodup_append'] at hanames
    exact fun he => hanames.2.2 (List.mem_cons_self ..) (he ▸ List.mem_singleton_self _)
  have hinside : Inside a.names a.switch (·.target = a.back) := by
    intro w hw
    rw [of_decide_eq_true hw]
    exact Or.inr ⟨a.back_mem_names, hne⟩
  -- wires to the return are to be looked for in the activity, and there are none
  obtain ⟨port, hwire⟩ := h.exists_wire
  have hin : ⟨x, port, a.back⟩ ∈ (wires (c.nodes route method)).filter (·.target = a.back) :=
    List.mem_filter.2 ⟨hwire, decide_eq_true rfl⟩
  rw [c.filter_wires hc ha hinside, List.mem_filter] at hin
  obtain ⟨n, hn, hw⟩ := List.mem_flatMap.1 hin.1
  have htarget := (Node.mem_outgoing hw).2
  rw [ActivityChart.nodes, hsteps, List.flatMap_nil, List.cons_append, List.nil_append] at hn
  rcases List.mem_cons.1 hn with rfl | hn
  · exact hout (List.mem_singleton.1 htarget ▸ a.back_mem_names)
  · rw [List.mem_singleton.1 hn, ActivityChart.switchNode, selector_targets, hsteps] at htarget
    cases htarget

/-! ## What is reached -/

/-- A request comes to the return of an activity exactly if the activity has a step. -/
theorem reaches_back_iff [DecidableEq ρ] (hc : c.names.Nodup)
    (hpass : ∀ g ∈ c.groups, ∀ b ∈ g.branches, b.fragment.Passable) {a : ActivityChart ρ}
    (ha : a ∈ c.activities) :
    Reaches (c.nodes route method) c.request a.back ↔ a.steps ≠ [] := by
  constructor
  · intro h
    rcases Relation.ReflTransGen.cases_tail h with he | ⟨x, -, hx⟩
    · exact absurd (he ▸ a.back_mem_names) (c.not_mem_activity hc ha c.request (by simp))
    · exact c.steps_ne_nil_of_leads hc ha hx
  · intro h
    obtain ⟨s, hs⟩ := List.exists_mem_of_ne_nil _ h
    have hentry : Reaches (c.nodes route method) c.request s.entry ∧
        Reaches (c.nodes route method) s.entry a.back :=
      c.reaches_station hpass ha hs s.entry (List.mem_cons_self ..)
    exact hentry.1.trans hentry.2

theorem reaches_respond_iff [DecidableEq ρ] (hc : c.names.Nodup)
    (hpass : ∀ g ∈ c.groups, ∀ b ∈ g.branches, b.fragment.Passable) :
    Reaches (c.nodes route method) c.request c.respond ↔ ∃ a ∈ c.activities, a.steps ≠ [] := by
  constructor
  · intro h
    rcases Relation.ReflTransGen.cases_tail h with he | ⟨x, hreach, hx⟩
    · have hdistinct := hc
      simp only [names, List.cons_append, List.nodup_cons] at hdistinct
      exact absurd (by simp [he]) hdistinct.2.1
    · obtain ⟨a, ha, rfl⟩ := c.eq_back_of_leads hc hx
      exact ⟨a, ha, (c.reaches_back_iff hc hpass ha).1 hreach⟩
  · rintro ⟨a, ha, hsteps⟩
    exact ((c.reaches_back_iff hc hpass ha).2 hsteps).tail
      (a.leads_respond (c.activity_nodes_subset route method ha))

theorem reaches_of_request
    (hpass : ∀ g ∈ c.groups, ∀ b ∈ g.branches, b.fragment.Passable) :
    ∀ x ∈ [c.counter, c.switch, c.finished] ++ c.activities.map (·.switch) ++ c.stations,
      Reaches (c.nodes route method) c.request x := by
  intro x hx
  simp only [List.mem_append, List.mem_cons, List.not_mem_nil, or_false, List.mem_map] at hx
  rcases hx with ((rfl | rfl | rfl) | ⟨a, ha, rfl⟩) | hx
  · exact c.reaches_switch.1
  · exact c.reaches_switch.2
  · exact c.reaches_switch.2.tail (c.leads_of_switch (by simp))
  · exact c.reaches_activity ha
  · obtain ⟨a, ha, hx⟩ := List.mem_flatMap.1 hx
    obtain ⟨s, hs, hx⟩ := List.mem_flatMap.1 hx
    exact (c.reaches_station hpass ha hs x hx).1

theorem reaches_answer (hpass : ∀ g ∈ c.groups, ∀ b ∈ g.branches, b.fragment.Passable) :
    ∀ x ∈ [c.respond, c.finished] ++ c.activities.map (·.back) ++ c.stations,
      Reaches (c.nodes route method) x c.answer := by
  have hback : ∀ a ∈ c.activities, Reaches (c.nodes route method) a.back c.answer := fun a ha =>
    .head (a.leads_respond (c.activity_nodes_subset route method ha)) (.single c.leads_answer.1)
  intro x hx
  simp only [List.mem_append, List.mem_cons, List.not_mem_nil, or_false, List.mem_map] at hx
  rcases hx with ((rfl | rfl) | ⟨a, ha, rfl⟩) | hx
  · exact .single c.leads_answer.1
  · exact .single c.leads_answer.2
  · exact hback a ha
  · obtain ⟨a, ha, hx⟩ := List.mem_flatMap.1 hx
    obtain ⟨s, hs, hx⟩ := List.mem_flatMap.1 hx
    exact (c.reaches_station hpass ha hs x hx).2.trans (hback a ha)

end FlowChart

/-! ## Compiled flows -/

variable {options : Options} {files : Tree} {activities : List Activity} {nodes : List (Node ρ)}

/-- The fragments of a chart are loaded for branches of the presentation. -/
theorem FlowChart.Charts.exists_load {c : FlowChart ρ} (hc : c.Charts options files activities nodes)
    {g : GroupChart ρ} (hg : g ∈ c.groups) {b : BranchChart ρ} (hb : b ∈ g.branches) :
    ∃ b' ∈ (options.library files).loads activities,
      (options.library files).load b' = .ok b.fragment := by
  obtain ⟨ac, hac, hg⟩ := List.mem_flatMap.1 hg
  obtain ⟨sc, hsc, hg⟩ := List.mem_flatMap.1 hg
  obtain ⟨a, ha, hwired⟩ := exists_of_forall₂_of_mem hc.activities hac
  obtain ⟨steps, hsteps, hwired⟩ := hwired.steps
  obtain ⟨step, hstep, hs⟩ := exists_of_forall₂_of_mem hwired hsc
  obtain ⟨m, hm⟩ := List.mem_iff_getElem?.1 (List.mem_reverse.1 hg)
  have hlt : m < step.length := hs.length ▸ (List.getElem?_eq_some_iff.1 hm).1
  have hgroup := hs.groups m step[m] g (List.getElem?_eq_getElem hlt) hm
  obtain ⟨b', hb', hload⟩ := exists_of_forall₂_of_mem hgroup.branches hb
  refine ⟨b', Library.mem_loads.2 ⟨a, ha, step, (steps_eq_ok_iff.1 hsteps).2 ▸ hstep, ?_⟩,
    hload.fragment⟩
  exact List.mem_flatMap.2 ⟨step[m], List.mem_reverse.2 (List.getElem_mem hlt), hb'⟩

theorem ActivityChart.Wired.steps_ne_nil_iff {lib : Library} {respond : ρ} {a : Activity}
    {ac : ActivityChart ρ} (h : ac.Wired lib nodes respond a) :
    ac.steps ≠ [] ↔ ∃ step rest, a.steps.result = .ok (step :: rest) := by
  obtain ⟨steps, hsteps, hwired⟩ := h.steps
  rw [hsteps, Ne, ← List.length_eq_zero_iff, ← hwired.length_eq]
  cases steps with
  | nil => simp
  | cons step rest => simp

/-- All parts of a flow are reached, and answer, if a message can pass every fragment that is loaded.
Requests come to the counter, to the switches, to the node that answers once everything has run, and
to every entry, fan-out, mark and join of every step. They come to the return of an activity exactly
if it has a step, and to the node that answers while activities are left exactly if some activity has
one. The answer is reached from all of these. -/
theorem compiled_flow_reached {σ : Type} [Source σ] {pool : Pool σ} {nodes : List (Node String)}
    (h : (compile options files pool activities).result = .ok nodes)
    (hpass : ∀ b ∈ (options.library files).loads activities, ∀ f,
      (options.library files).load b = .ok f → f.Passable) :
    ∃ c : FlowChart String, c.Charts options files activities nodes ∧
      (∀ x ∈ [c.counter, c.switch, c.finished] ++ c.activities.map (·.switch) ++ c.stations,
        Reaches nodes c.request x) ∧
      List.Forall₂ (fun a ac => Reaches nodes c.request ac.back ↔
        ∃ step rest, a.steps.result = .ok (step :: rest)) activities c.activities ∧
      (Reaches nodes c.request c.respond ↔
        ∃ a ∈ activities, ∃ step rest, a.steps.result = .ok (step :: rest)) ∧
      ∀ x ∈ [c.respond, c.finished] ++ c.activities.map (·.back) ++ c.stations,
        Reaches nodes x c.answer := by
  obtain ⟨c, hc, rfl⟩ := compile_charts h
  have hpassable : ∀ g ∈ c.groups, ∀ b ∈ g.branches, b.fragment.Passable := by
    intro g hg b hb
    obtain ⟨b', hb', hload⟩ := hc.exists_load hg hb
    exact hpass b' hb' _ hload
  have hback : ∀ ac ∈ c.activities,
      Reaches (c.nodes options.route options.method) c.request ac.back ↔ ac.steps ≠ [] :=
    fun ac hac => c.reaches_back_iff hc.nodup hpassable hac
  refine ⟨c, hc, c.reaches_of_request hpassable, ?_, ?_, c.reaches_answer hpassable⟩
  · exact forall₂_imp_of_mem hc.activities fun a ac hac ha =>
      (hback ac hac).trans ha.steps_ne_nil_iff
  · rw [c.reaches_respond_iff hc.nodup hpassable]
    constructor
    · rintro ⟨ac, hac, hsteps⟩
      obtain ⟨a, ha, hwired⟩ := exists_of_forall₂_of_mem hc.activities hac
      exact ⟨a, ha, hwired.steps_ne_nil_iff.1 hsteps⟩
    · rintro ⟨a, ha, hsteps⟩
      obtain ⟨ac, hac, hwired⟩ := exists_of_forall₂_of_mem hc.activities.flip ha
      exact ⟨ac, hac, hwired.steps_ne_nil_iff.2 hsteps⟩

/-- In the presentation of the lamp and the bell all parts are reached but the return of the second
activity, which has no steps. -/
theorem compiled_flow_reached_lampDeck :
    ∃ nodes, (compile lampOptions lampFiles lampPool lampDeck).result = .ok nodes ∧
      ∃ (c : FlowChart String) (one two : ActivityChart String) (lamp bell : GroupChart String),
        c.activities = [one, two] ∧ c.groups = [bell, lamp] ∧
        Reaches nodes c.request lamp.join ∧ Reaches nodes c.request bell.join ∧
        Reaches nodes c.request one.back ∧ ¬ Reaches nodes c.request two.back ∧
        Reaches nodes c.request c.respond ∧ Reaches nodes lamp.fanOut c.answer := by
  have hdirect : ∀ b ∈ (lampOptions.library lampFiles).loads lampDeck,
      ((lampOptions.library lampFiles).load b).toOption.all (fun f => decide (f.entry = f.exit ∨
        ∃ p ∈ f.parts, p.id = f.entry ∧ f.exit ∈ p.wires.flatten)) = true := by decide +kernel
  have hpass : ∀ b ∈ (lampOptions.library lampFiles).loads lampDeck, ∀ f,
      (lampOptions.library lampFiles).load b = .ok f → f.Passable := by
    intro b hb f hf
    have hf' := hdirect b hb
    rw [hf] at hf'
    rcases of_decide_eq_true hf' with he | hleads
    · rw [Passable, he]
    · exact .single hleads
  obtain ⟨nodes, hnodes⟩ := lampDeck_compiles
  obtain ⟨c, hc, hreached, hbacks, hrespond, hanswer⟩ := compiled_flow_reached hnodes hpass
  obtain ⟨one, two, s, lamp, bell, ha, hone, htwo, hgs, -⟩ := lampDeck_shape hc.activities
  rw [ha] at hbacks
  obtain ⟨one', rest, hfirst, hrest, he⟩ := List.forall₂_cons_left_iff.1 hbacks
  cases he
  obtain ⟨two', none, hsecond, -, he⟩ := List.forall₂_cons_left_iff.1 hrest
  cases he
  have hstations : c.stations = s.entry :: lamp.stations ++ bell.stations := by
    simp [FlowChart.stations, ha, hone, htwo, StepChart.stations, hgs]
  refine ⟨nodes, hnodes, c, one, two, lamp, bell, ha, ?_, ?_, ?_, hfirst.2 ⟨_, _, rfl⟩, ?_,
    hrespond.2 ⟨_, List.mem_cons_self .., _, _, rfl⟩, ?_⟩
  · rw [FlowChart.groups, ha]
    simp [hone, htwo, hgs]
  · exact hreached _ (by simp [hstations, GroupChart.stations])
  · exact hreached _ (by simp [hstations, GroupChart.stations])
  · rw [hsecond]
    rintro ⟨step, rest, h⟩
    cases h
  · exact hanswer _ (by simp [hstations, GroupChart.stations])

end SlideFlow.Compile
