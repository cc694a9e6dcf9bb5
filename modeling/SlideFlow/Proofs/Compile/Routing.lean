/-
Where requests go. The counter of a compiled flow, run outside of the flow, says what becomes of each
request (`requests_follow_counter`): the two switches take it to the step at which the counter stands,
or to the answer that everything has run, and what is answered is what simulating the presentation
answers. For this every place that the counter comes to has to have a rule, which is what settled
places are for.
-/
import SlideFlow.Deck.Slides
import SlideFlow.Proofs.Compile.Wiring
import SlideFlow.Proofs.Counter.Run
import SlideFlow.Proofs.Flow.Scripts

namespace SlideFlow.Flow.Node

variable {ρ : Type}

/-! ## Rules of switches -/

/-- A switch on a property of the message: exactly one of its rules is written as this value, and the
port of that rule is wired to this node and no other. -/
def Routes (n : Node ρ) (property : String) (value : Int) (target : ρ) : Prop :=
  ∃ rules, n.kind = .switch property "msg" rules false ∧
    ∃ i, (∀ j : Nat, (rules.map toString)[j]? = some (toString value) ↔ j = i) ∧
      n.wires[i]? = some [target]

theorem selector_routes {targets : List ρ} {i : Nat} {target : ρ} (h : targets[i]? = some target)
    (id : ρ) (property name : String) :
    (selector id property name targets).Routes property (i + 1 : Nat) target := by
  have hi : i < targets.length := (List.getElem?_eq_some_iff.1 h).1
  have hrule : ∀ j, (List.range' 1 targets.length)[j]? = if j < targets.length then some (j + 1)
      else none := by
    intro j
    split
    · rename_i hj
      rw [List.getElem?_range' hj, Nat.one_mul, Nat.add_comm]
    · rename_i hj
      rw [List.getElem?_eq_none_iff, List.length_range']
      exact Nat.not_lt.1 hj
  refine ⟨_, rfl, i, fun j => ?_, by simp [selector, h]⟩
  rw [List.map_map, List.getElem?_map, hrule, Option.map_eq_some_iff]
  constructor
  · rintro ⟨n, hn, hvalue⟩
    split at hn
    · cases hn
      -- both values are read back from their digits
      have hwritten : (j + 1).repr = (i + 1).repr := hvalue
      have hread := congrArg (fun s => Nat.ofDigitChars 10 s.toList 0) hwritten
      simpa using hread
    · cases hn
  · rintro rfl
    exact ⟨j + 1, if_pos hi, rfl⟩

end SlideFlow.Flow.Node

namespace SlideFlow.Compile

open SlideFlow.Deck SlideFlow.Files SlideFlow.Flow SlideFlow.Ident

variable {ρ : Type} {options : Options} {files : Tree} {activities : List Activity}
variable {nodes : List (Node ρ)} {c : FlowChart ρ}

/-! ## Numbers of steps -/

theorem FlowChart.Charts.length_activities (hc : c.Charts options files activities nodes) :
    c.activities.length = activities.length :=
  hc.activities.length_eq.symm

theorem FlowChart.Charts.length_stepCounts (hc : c.Charts options files activities nodes) :
    c.stepCounts.length = activities.length := by
  rw [FlowChart.stepCounts, List.length_map, hc.length_activities]

theorem ActivityChart.Wired.stepCount {lib : Library} {respond : ρ} {a : Activity}
    {ac : ActivityChart ρ} (h : ac.Wired lib nodes respond a) :
    a.stepCount.result = .ok ac.steps.length := by
  obtain ⟨steps, hsteps, hwired⟩ := h.steps
  rw [Activity.stepCount, Logged.result_bind, hsteps, ← hwired.length_eq]
  rfl

/-- The numbers of steps are those of the chart. -/
theorem FlowChart.Charts.result_stepCounts (hc : c.Charts options files activities nodes) :
    (activities.mapM Activity.stepCount).result = .ok (c.activities.map (·.steps.length)) := by
  rw [Logged.result_mapM, mapM_eq_ok_iff, List.forall₂_map_right_iff]
  exact hc.activities.imp fun a ac ha => ha.stepCount

theorem FlowChart.stepCounts_eq (c : FlowChart ρ) :
    (c.activities.map (·.steps.length)).map Int.ofNat = c.stepCounts := by
  rw [List.map_map]
  rfl

/-- Simulating a presentation is running the counter of its chart. -/
theorem FlowChart.Charts.simulate (hc : c.Charts options files activities nodes) (calls : Nat)
    (session : String) : (simulate activities calls session).result =
      .ok ((List.range calls).map fun i => Counter.responseAt c.stepCounts
        (((Counter.ofCounts c.stepCounts).advances session (i + 1)).place session)) := by
  rw [Deck.simulate, Logged.result_bind, hc.result_stepCounts]
  show Except.ok _ = _
  rw [c.stepCounts_eq, Counter.executeMany_eq]
  rfl

/-! ## Where a request goes -/

/-- A request for which the counter stands at a step of an activity: the switch of the flow takes it
to the switch of that activity, and this one takes it to the entry of that step. It is answered with
the place of the counter, which the script of the answer reads from the message. -/
structure FlowChart.RunsStep (c : FlowChart ρ) (nodes : List (Node ρ)) (p : Counter.Place)
    (r : Counter.Response) : Prop where
  response : r = { activity := p.activity, step := p.step, finished := false }
  respond : .function c.respond
    (Script.answering "msg.execution.activity" "msg.execution.step" "false") "format response"
    [[c.answer]] ∈ nodes
  route : ∃ (a : ActivityChart ρ) (s : StepChart ρ) (i : Nat),
    c.activities[p.activity - 1]? = some a ∧ p.step = (i + 1 : Nat) ∧ a.steps[i]? = some s ∧
      (∃ n ∈ nodes, n.id = c.switch ∧ n.Routes "execution.activity" p.activity a.switch) ∧
      ∃ n ∈ nodes, n.id = a.switch ∧ n.Routes "execution.step" p.step s.entry

/-- A request for which the counter stands behind the last activity: the switch of the flow takes it
to the node that answers so, in whose script the last activity and its last step are written out. -/
structure FlowChart.Finishes (c : FlowChart ρ) (nodes : List (Node ρ)) (p : Counter.Place)
    (r : Counter.Response) : Prop where
  response : r.finished = true ∧ (r.activity, r.step) = Counter.finishedPair c.stepCounts
  respond : .function c.finished
    (Script.answering (toString r.activity) (toString r.step) "true") "format task finished"
    [[c.answer]] ∈ nodes
  route : ∃ n ∈ nodes, n.id = c.switch ∧ n.Routes "execution.activity" p.activity c.finished

theorem FlowChart.Charts.runsStep (hc : c.Charts options files activities nodes) {p : Counter.Place}
    (hp : Counter.Settled c.stepCounts p) (hle : p.activity ≤ activities.length) :
    c.RunsStep nodes p (Counter.responseAt c.stepCounts p) := by
  have hlength := hc.length_stepCounts
  have hpos := hp.activity_pos
  obtain ⟨count, hcount, hstep, hbound⟩ := hp.step (hlength ▸ hle)
  -- the activity and the step of the chart
  rw [stepCounts, List.getElem?_map, Option.map_eq_some_iff] at hcount
  obtain ⟨a, ha, rfl⟩ := hcount
  obtain ⟨i, hi⟩ : ∃ i : Nat, p.step = (i + 1 : Nat) := ⟨p.step.toNat - 1, by omega⟩
  have hs : i < a.steps.length := by omega
  have hrespond := hc.respond
  rw [respondNode, Script.response_eq] at hrespond
  refine ⟨?_, hrespond, a, a.steps[i], i, ha, hi, List.getElem?_eq_getElem hs, ?_, ?_⟩
  · rw [Counter.responseAt, if_neg (by omega)]
  · refine ⟨_, hc.switch, rfl, ?_⟩
    have htarget : (c.activities.map (·.switch) ++ [c.finished])[p.activity - 1]? = some a.switch := by
      rw [List.getElem?_append_left (by rw [List.length_map, hc.length_activities]; omega),
        List.getElem?_map, ha]
      rfl
    have hroutes := Node.selector_routes htarget c.switch "execution.activity" "activity"
    rwa [Nat.sub_add_cancel hpos] at hroutes
  · have hactivity : p.activity - 1 < activities.length := by omega
    have hwired := forall₂_getElem? hc.activities (List.getElem?_eq_getElem hactivity) ha
    refine ⟨_, hwired.switch, rfl, ?_⟩
    rw [hi]
    refine Node.selector_routes ?_ _ _ _
    rw [List.getElem?_map, List.getElem?_eq_getElem hs]
    rfl

theorem FlowChart.Charts.finishes (hc : c.Charts options files activities nodes) {p : Counter.Place}
    (hp : Counter.Settled c.stepCounts p) (hlt : activities.length < p.activity) :
    c.Finishes nodes p (Counter.responseAt c.stepCounts p) := by
  have hlength := hc.length_stepCounts
  have hactivity : p.activity = activities.length + 1 := by
    have := hp.activity_le
    omega
  have hresponse : Counter.responseAt c.stepCounts p =
      { activity := (Counter.finishedPair c.stepCounts).1
        step := (Counter.finishedPair c.stepCounts).2
        finished := true } := by
    rw [Counter.responseAt, if_pos (by omega)]
  have hfinished := hc.finished
  simp only [finishedNode, Script.response_eq] at hfinished
  rw [hresponse]
  refine ⟨⟨rfl, rfl⟩, hfinished, _, hc.switch, rfl, ?_⟩
  rw [hactivity]
  refine Node.selector_routes ?_ _ _ _
  rw [← hc.length_activities, ← List.length_map (·.switch), List.getElem?_concat_length]

variable {σ : Type} [Source σ] {pool : Pool σ} {nodes : List (Node String)}

/-- A compiled flow routes every request as the simulation says. Its counter node runs the counter
over the numbers of steps of the activities, which are written out in its script, and is wired to the
switch of the flow only. After any number of calls of a session, the place of the counter decides where
the last of them goes and how it is answered: at a step of an activity, or behind the last activity. -/
theorem requests_follow_counter (h : (compile options files pool activities).result = .ok nodes) :
    ∃ (c : FlowChart String) (counts : List Nat), c.Charts options files activities nodes ∧
      (activities.mapM Activity.stepCount).result = .ok counts ∧
      c.stepCounts = counts.map Int.ofNat ∧
      .function c.counter (Script.counter (counts.map Int.ofNat) Script.sessionStore)
        "execution counter" [[c.switch]] ∈ nodes ∧
      (∃ body, ∀ counts, Script.counter counts Script.sessionStore = Script.counting body counts) ∧
      ∀ (session : String) (k : Nat), 1 ≤ k → ∃ (p : Counter.Place) (r : Counter.Response),
        p = ((Counter.ofCounts (counts.map Int.ofNat)).advances session k).place session ∧
        (∀ calls, k ≤ calls → ∃ responses,
          (simulate activities calls session).result = .ok responses ∧ responses[k - 1]? = some r) ∧
        (p.activity ≤ activities.length → c.RunsStep nodes p r) ∧
        (activities.length < p.activity → c.Finishes nodes p r) := by
  obtain ⟨c, hc, -⟩ := compile_charts h
  refine ⟨c, _, hc, hc.result_stepCounts, c.stepCounts_eq.symm, ?_,
    Script.counter_eq Script.sessionStore, fun session k hk => ?_⟩
  · rw [c.stepCounts_eq]
    exact hc.counter
  · rw [c.stepCounts_eq]
    obtain ⟨calls, rfl⟩ := Nat.exists_eq_add_of_le' hk
    -- the place has a rule in each switch because the session is settled
    have hsettled : Counter.Settled c.stepCounts
        (((Counter.ofCounts c.stepCounts).advances session (calls + 1)).place session) := by
      rw [Counter.place_advances]
      exact Counter.settled_iterate c.stepCounts calls
    refine ⟨_, _, rfl, fun n hn => ⟨_, hc.simulate n session, ?_⟩, hc.runsStep hsettled,
      hc.finishes hsettled⟩
    rw [List.getElem?_map, Nat.add_sub_cancel, List.getElem?_range hn]
    rfl

/-- The first request of the presentation turns on the lamp and rings the bell. The second one finds
no step, neither in the first activity nor in the second. -/
theorem requests_follow_counter_lampDeck :
    ∃ nodes, (compile lampOptions lampFiles lampPool lampDeck).result = .ok nodes ∧
      ∃ c : FlowChart String, c.RunsStep nodes ⟨1, 1⟩ ⟨1, 1, false⟩ ∧
        c.Finishes nodes ⟨3, 1⟩ ⟨2, 0, true⟩ := by
  obtain ⟨nodes, hnodes⟩ := lampDeck_compiles
  obtain ⟨c, counts, hc, hcounts, -, -, -, hroute⟩ := requests_follow_counter hnodes
  cases hcounts
  refine ⟨nodes, hnodes, c, ?_, ?_⟩
  · obtain ⟨p, r, rfl, hanswers, hruns, -⟩ := hroute "default" 1 (by decide)
    obtain ⟨responses, hresponses, hr⟩ := hanswers 1 (by decide)
    cases hresponses
    cases hr
    exact hruns (by decide)
  · obtain ⟨p, r, rfl, hanswers, -, hfinishes⟩ := hroute "default" 2 (by decide)
    obtain ⟨responses, hresponses, hr⟩ := hanswers 2 (by decide)
    cases hresponses
    cases hr
    exact hfinishes (by decide)

end SlideFlow.Compile
