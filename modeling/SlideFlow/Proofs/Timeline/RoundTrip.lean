/-
Reading back what was written: the steps recovered from the timing tree of a timeline are the steps
of that timeline. A step is found from its click, so two things have to be seen. Of all nodes of the
tree only the first animation of each step that has one waits for a click, and from there the climb
ends at the list of the step's own groups.
-/
import Mathlib.Data.List.Forall2
import SlideFlow.Proofs.Timeline.Reading

namespace SlideFlow.Timeline

open SlideFlow.Markup SlideFlow.Number

/-! ## Clicks -/

/-- The checkpoints of a tree that stands below some ancestors. -/
def clicks (above : List Element) (e : Element) : List (Element × List Element) :=
  (e.visits above).filter fun (e, _) => isCheckpoint e

/-- The checkpoints of several trees below the same ancestors. -/
def clicksAll (above : List Element) (es : List Element) : List (Element × List Element) :=
  (Element.visitsAll above es).filter fun (e, _) => isCheckpoint e

@[simp] theorem clicksAll_nil (above : List Element) : clicksAll above [] = [] := by
  simp [clicksAll, Element.visitsAll]

@[simp] theorem clicksAll_cons (above : List Element) (e : Element) (es : List Element) :
    clicksAll above (e :: es) = clicks above e ++ clicksAll above es := by
  simp [clicksAll, clicks, Element.visitsAll]

theorem clicks_of_checkpoint {e : Element} (h : isCheckpoint e = true) (above : List Element) :
    clicks above e = (e, above) :: clicksAll (e :: above) e.children := by
  obtain ⟨tag?, attrs, children⟩ := e
  rw [clicks, Element.visits, List.filter_cons_of_pos (by simpa using h)]
  rfl

theorem clicks_of_not_checkpoint {e : Element} (h : isCheckpoint e = false)
    (above : List Element) : clicks above e = clicksAll (e :: above) e.children := by
  obtain ⟨tag?, attrs, children⟩ := e
  rw [clicks, Element.visits, List.filter_cons_of_neg (by simpa using h)]
  rfl

/-- Only time nodes wait for a click. -/
theorem clicks_tagged {name : String} (h : '\x7d' ∉ name.toList) (hne : name ≠ "cTn")
    (attrs : List (String × String)) (children above : List Element) :
    clicks above (tagged name attrs children) =
      clicksAll (tagged name attrs children :: above) children := by
  refine clicks_of_not_checkpoint ?_ above
  simp [isCheckpoint, name_tagged h, hne]

theorem isCheckpoint_timeNode (id : Nat) {attrs : List (String × String)} (children : List Element)
    (h : ∀ p ∈ attrs, '\x7d' ∉ p.1.toList) :
    isCheckpoint (timeNode id attrs children) =
      decide (Ordered.get? "nodeType" attrs = some "clickEffect") := by
  have hattr : (timeNode id attrs children).attr? "nodeType" = Ordered.get? "nodeType" attrs :=
    attr?_tagged _ _ (List.forall_mem_cons.2 ⟨by simp, h⟩) _
  simp [isCheckpoint, hattr]

/-- A time node of another type does not wait for a click. -/
theorem clicks_timeNode (id : Nat) {attrs : List (String × String)} (children above : List Element)
    (h : ∀ p ∈ attrs, '\x7d' ∉ p.1.toList)
    (hne : Ordered.get? "nodeType" attrs ≠ some "clickEffect") :
    clicks above (timeNode id attrs children) =
      clicksAll (timeNode id attrs children :: above) children := by
  refine clicks_of_not_checkpoint ?_ above
  rw [isCheckpoint_timeNode id children h]
  exact decide_eq_false hne

@[simp] theorem clicks_startConditions (above : List Element) (delay : String) :
    clicks above (startConditions delay) = [] := by
  simp (disch := decide) [startConditions, clicks_tagged]

@[simp] theorem clicks_childList (above children : List Element) :
    clicks above (childList children) = clicksAll (childList children :: above) children :=
  clicks_tagged (by decide) (by decide) ..

@[simp] theorem clicks_target (above : List Element) (shape : Int) :
    clicks above (target shape) = [] := by
  simp (disch := decide) [target, clicks_tagged]

@[simp] theorem clicks_setVisible (above : List Element) (id : Nat) (shape : Int) :
    clicks above (setVisible id shape) = [] := by
  have htime (above : List Element) :
      clicks above (timeNode id [("dur", "1"), ("fill", "hold")] [startConditions "0"]) = [] := by
    rw [clicks_timeNode _ _ _ (by simp) (by decide)]
    simp
  simp (disch := decide) [setVisible, clicks_tagged, htime]

@[simp] theorem clicks_fadeIn (above : List Element) (id : Nat) (shape : Int) :
    clicks above (fadeIn id shape) = [] := by
  have htime (above : List Element) : clicks above (timeNode id [("dur", "500")] []) = [] := by
    rw [clicks_timeNode _ _ _ (by simp) (by decide)]
    simp
  simp (disch := decide) [fadeIn, clicks_tagged, htime]

theorem clicks_slideConditions {name : String} (h : '\x7d' ∉ name.toList)
    (hne : name ≠ "cTn") (event : String) (above : List Element) :
    clicks above (slideConditions name event) = [] := by
  simp (disch := first | decide | assumption) [slideConditions, clicks_tagged]

/-- The clicks of a block that holds others are those of the blocks it holds. -/
theorem clicks_block (above : List Element) (id : Nat) (delay : String) (children : List Element) :
    clicks above (block id delay children) =
      clicksAll
        (childList children :: holder id delay children :: block id delay children :: above)
        children := by
  rw [block, clicks_tagged (by decide) (by decide), clicksAll_cons, clicksAll_nil, List.append_nil,
    holder, clicks_timeNode _ _ _ (by simp) (by decide)]
  simp

/-- Of the nodes in the block of an animation only its time node may wait for a click. -/
theorem clicks_cue (above : List Element) (id : Nat) (nodeType : String) (c : Cue) :
    clicks above (c.block id nodeType) =
      if nodeType = "clickEffect" then [(c.time id nodeType, c.block id nodeType :: above)]
      else [] := by
  have hcheck : isCheckpoint (c.time id nodeType) = decide (nodeType = "clickEffect") := by
    rw [Cue.time, isCheckpoint_timeNode _ _ (by simp)]
    simp [Ordered.get?]
  -- its behaviours have time nodes too, but none of these has a node type
  have hchildren (above : List Element) : clicksAll above (c.time id nodeType).children = [] := by
    simp [Cue.time, timeNode, tagged]
  rw [Cue.block, clicks_tagged (by decide) (by decide), clicksAll_cons, clicksAll_nil,
    List.append_nil]
  split
  · next h =>
    rw [clicks_of_checkpoint (hcheck.trans (decide_eq_true h)), hchildren]
  · next h =>
    rw [clicks_of_not_checkpoint (hcheck.trans (decide_eq_false h)), hchildren]

theorem clicksAll_cueBlocks_clicked (above : List Element) {later : String}
    (hlater : later ≠ "clickEffect") (id : Nat) (group : List Cue) :
    clicksAll above (cueBlocks later true id group) = [] := by
  induction group generalizing id with
  | nil => simp [cueBlocks]
  | cons c group ih => simp [cueBlocks, clicks_cue, hlater, ih]

theorem clicksAll_groupBlocks_clicked (above : List Element) {later : String}
    (hlater : later ≠ "clickEffect") (id : Nat) (step : List (List Cue)) :
    clicksAll above (groupBlocks later true id step) = [] := by
  induction step generalizing later id with
  | nil => simp [groupBlocks]
  | cons group step ih =>
    rw [groupBlocks, clicksAll_cons, clicks_block, clicksAll_cueBlocks_clicked _ hlater,
      Bool.true_or, ih (by decide)]
    rfl

/-- The ancestors that a checkpoint has in a group of a step, below those of the group. -/
def InGroup (above : List Element) (ancestors : List Element) : Prop :=
  ∃ shape list time group, ancestors = shape :: list :: time :: group :: above ∧
    shape.name = "par" ∧ list.name = "childTnLst" ∧ time.name = "cTn" ∧ group.name = "par"

/-- The climb from a checkpoint in a group ends at the list of groups. -/
theorem stepBlock_of_inGroup {above ancestors : List Element} {groups : List Element}
    (h : InGroup (childList groups :: above) ancestors) (checkpoint : Element) :
    stepBlock checkpoint ancestors = .ok (childList groups) := by
  obtain ⟨shape, list, time, group, rfl, hshape, hlist, htime, hgroup⟩ := h
  simp [stepBlock, ancestry, climb, hshape, hlist, htime, hgroup]

/-- A step without an animation has no click. -/
theorem clicksAll_groupBlocks_of_not_hasCue (above : List Element) (later : String) (id : Nat)
    {step : List (List Cue)} (h : hasCue step = false) :
    clicksAll above (groupBlocks later false id step) = [] := by
  induction step generalizing later id with
  | nil => simp [groupBlocks]
  | cons group step ih =>
    rw [hasCue, List.any_cons, Bool.or_eq_false_iff] at h
    obtain rfl : group = [] := by simpa using h.1
    rw [groupBlocks, clicksAll_cons, clicks_block]
    simpa [cueBlocks] using ih _ _ h.2

/-- A step with an animation has one click, and that stands in one of its groups. -/
theorem clicksAll_groupBlocks_of_hasCue (above : List Element) {later : String}
    (hlater : later ≠ "clickEffect") (id : Nat) {step : List (List Cue)}
    (h : hasCue step = true) :
    ∃ checkpoint ancestors, InGroup above ancestors ∧
      clicksAll above (groupBlocks later false id step) = [(checkpoint, ancestors)] := by
  induction step generalizing later id with
  | nil => cases h
  | cons group step ih =>
    rw [groupBlocks, clicksAll_cons, clicks_block]
    cases group with
    | nil =>
      -- an empty group leaves the click to the groups behind it
      simpa [cueBlocks] using ih (by decide) (id + 1) h
    | cons c group =>
      rw [cueBlocks, clicksAll_cons, clicks_cue, clicksAll_cueBlocks_clicked _ hlater]
      -- from here on the step is clicked, so neither this group nor a later one has a click
      simp only [List.isEmpty_cons, Bool.not_false, Bool.or_true]
      rw [clicksAll_groupBlocks_clicked _ (by decide)]
      exact ⟨_, _, ⟨_, _, _, _, rfl, Cue.name_block .., name_childList _, name_holder ..,
        name_block ..⟩, rfl⟩

/-! ## Walks -/

/-- A walk yields the steps in front of the first one that cannot be read, which ends it. -/
theorem Walk.ofResults_of_reads {γ : Type} {P : γ → Prop} [DecidablePred P] {g : γ → Step}
    {results : List (Except Violation Step)} {cs : List γ}
    (h : List.Forall₂ (fun x c => Reads (P c) x (g c)) results cs) :
    (ofResults results).steps = (cs.takeWhile (P ·)).map g ∧
      ((∀ c ∈ cs, P c) → (ofResults results).fault = none) ∧
      ((∃ c ∈ cs, ¬P c) → ∃ v, (ofResults results).fault = some v) := by
  induction h with
  | nil => exact ⟨rfl, fun _ => rfl, nofun⟩
  | @cons x c results cs hx _ ih =>
    by_cases hc : P c
    · obtain ⟨hsteps, hall, hsome⟩ := ih
      rw [hx.1 hc, List.takeWhile_cons_of_pos (by simpa using hc)]
      refine ⟨congrArg (g c :: ·) hsteps, ?_, ?_⟩
      · intro hcs
        exact hall fun d hd => hcs d (List.mem_cons_of_mem _ hd)
      · rintro ⟨d, hd, hnot⟩
        obtain rfl | hd := List.mem_cons.1 hd
        · exact absurd hc hnot
        · exact hsome ⟨d, hd, hnot⟩
    · obtain ⟨v, rfl⟩ := hx.2 hc
      rw [List.takeWhile_cons_of_neg (by simpa using hc)]
      exact ⟨rfl, fun hcs => absurd (hcs c List.mem_cons_self) hc, fun _ => ⟨v, rfl⟩⟩

theorem Walk.eq_of_fault_none {w : Walk} {steps : List Step} (hsteps : w.steps = steps)
    (h : w.fault = none) : w = { steps, fault := none } := by
  cases w
  cases hsteps
  cases h
  rfl

theorem Walk.count_of_fault_none {w : Walk} (h : w.fault = none) :
    w.count = .ok w.steps.length := by
  rw [count, toExcept, h]
  rfl

theorem Walk.count_of_fault_some {w : Walk} {v : Violation} (h : w.fault = some v) :
    w.count = .error v := by
  rw [count, toExcept, h]
  rfl

/-! ## Timelines -/

/-- The numbers of a step are not too long to be read. -/
def StepReadable (step : List (List Cue)) : Prop := ∀ group ∈ step, ∀ c ∈ group, c.Readable

instance (step : List (List Cue)) : Decidable (StepReadable step) :=
  inferInstanceAs (Decidable (∀ group ∈ step, ∀ c ∈ group, c.Readable))

/-- The step that a written one stands for. -/
def playedStep (step : List (List Cue)) : Step := step.map (·.map Cue.animation)

/-- A step is read as it was written, from a click in any of its groups. -/
theorem reads_step {above ancestors : List Element} {later : String} {clicked : Bool} {id : Nat}
    {step : List (List Cue)}
    (h : InGroup (childList (groupBlocks later clicked id step) :: above) ancestors)
    (checkpoint : Element) :
    Reads (StepReadable step) (readStep checkpoint ancestors) (playedStep step) := by
  rw [readStep, stepBlock_of_inGroup h]
  show Reads _ (((childList _).childrenNamed "par").mapM readGroup) _
  rw [childrenNamed_groupBlocks]
  exact .mapM (forall₂_groupBlocks later clicked id step)

/-- The clicks of the steps are those of the steps that have an animation. -/
theorem forall₂_stepBlocks (above : List Element) (id : Nat) (steps : List (List (List Cue))) :
    List.Forall₂
      (fun v step => Reads (StepReadable step) (readStep v.1 v.2) (playedStep step))
      (clicksAll above (stepBlocks id steps)) (steps.filter hasCue) := by
  induction steps generalizing id with
  | nil => simp [stepBlocks]
  | cons step steps ih =>
    rw [stepBlocks, clicksAll_cons, clicks_block]
    cases hcue : hasCue step with
    | false =>
      rw [clicksAll_groupBlocks_of_not_hasCue _ _ _ hcue, List.nil_append,
        List.filter_cons_of_neg (by simp [hcue])]
      exact ih _
    | true =>
      obtain ⟨checkpoint, ancestors, hin, hclicks⟩ :=
        clicksAll_groupBlocks_of_hasCue _ (by decide : "withEffect" ≠ "clickEffect") id hcue
      rw [hclicks, List.filter_cons_of_pos hcue]
      exact .cons (reads_step hin checkpoint) (ih _)

theorem clicks_mainSequence (above : List Element) (steps : List (List (List Cue))) :
    clicks above (mainSequence steps) =
      clicksAll
        (childList (stepBlocks 3 steps) :: sequenceTime steps :: mainSequence steps :: above)
        (stepBlocks 3 steps) := by
  rw [mainSequence, clicks_tagged (by decide) (by decide), clicksAll_cons, sequenceTime,
    clicks_timeNode _ _ _ (by simp) (by decide)]
  simp (disch := decide) [clicks_slideConditions]

/-- Outside of the steps no node of the tree waits for a click. -/
theorem checkpoints_encode (steps : List (List (List Cue))) :
    ∃ above, checkpoints (encode steps) = clicksAll above (stepBlocks 3 steps) := by
  show ∃ above, clicks [] (encode steps) = _
  -- down through the list, the block and the time node of the root to the sequence
  rw [encode, clicks_tagged (by decide) (by decide), clicksAll_cons,
    clicks_tagged (by decide) (by decide), clicksAll_cons, clicks_tagged (by decide) (by decide),
    clicksAll_cons, clicks_timeNode _ _ _ (by simp) (by decide), clicksAll_cons, clicks_childList,
    clicksAll_cons]
  simp only [clicks_mainSequence, clicksAll_nil, List.append_nil]
  exact ⟨_, rfl⟩

/-- The walk over a written timeline goes over its steps that have an animation. -/
theorem walk_encode (timeline : List (List (List Cue))) :
    (recover (some (encode timeline))).steps =
        ((timeline.filter hasCue).takeWhile (StepReadable ·)).map playedStep ∧
      ((∀ step ∈ timeline.filter hasCue, StepReadable step) →
        (recover (some (encode timeline))).fault = none) ∧
      ((∃ step ∈ timeline.filter hasCue, ¬StepReadable step) →
        ∃ v, (recover (some (encode timeline))).fault = some v) := by
  obtain ⟨above, habove⟩ := checkpoints_encode timeline
  rw [recover, habove]
  refine Walk.ofResults_of_reads ?_
  rw [List.forall₂_map_left_iff]
  exact forall₂_stepBlocks above 3 timeline

theorem hasCue_of_not_readable {step : List (List Cue)} (h : ¬StepReadable step) :
    hasCue step = true := by
  rw [hasCue, List.any_eq_true]
  simp only [StepReadable, not_forall] at h
  obtain ⟨group, hgroup, c, hc, -⟩ := h
  exact ⟨group, hgroup, by simpa using List.ne_nil_of_mem hc⟩

/-- The steps recovered from a written timeline are those of its steps that have an animation, each
with all its groups, as long as every number in it can be read. A number that cannot ends the walk
at its step. -/
theorem recover_encode (timeline : List (List (List Cue))) :
    ((∀ step ∈ timeline, StepReadable step) →
      recover (some (encode timeline)) =
          { steps := (timeline.filter hasCue).map playedStep, fault := none } ∧
        (recover (some (encode timeline))).count = .ok (timeline.filter hasCue).length) ∧
    ((∃ step ∈ timeline, ¬StepReadable step) →
      (recover (some (encode timeline))).steps =
          ((timeline.filter hasCue).takeWhile (StepReadable ·)).map playedStep ∧
        ∃ v, (recover (some (encode timeline))).fault = some v ∧
          (recover (some (encode timeline))).count = .error v) := by
  obtain ⟨hsteps, hnone, hsome⟩ := walk_encode timeline
  constructor
  · intro hall
    have hcued : ∀ step ∈ timeline.filter hasCue, StepReadable step :=
      fun step hstep => hall step (List.mem_filter.1 hstep).1
    have hwalk : recover (some (encode timeline)) =
        { steps := (timeline.filter hasCue).map playedStep, fault := none } := by
      rw [List.takeWhile_eq_self_iff.2 (by simpa using hcued)] at hsteps
      exact Walk.eq_of_fault_none hsteps (hnone hcued)
    refine ⟨hwalk, ?_⟩
    rw [hwalk, Walk.count_of_fault_none rfl, List.length_map]
  · rintro ⟨step, hstep, hnot⟩
    obtain ⟨v, hv⟩ := hsome ⟨step, List.mem_filter.2 ⟨hstep, hasCue_of_not_readable hnot⟩, hnot⟩
    exact ⟨hsteps, v, hv, Walk.count_of_fault_some hv⟩

/-- Three steps, the second without an animation; the third begins with a group that has none. -/
def sampleTimeline : List (List (List Cue)) :=
  [[[⟨4, "entr", some 0⟩, ⟨-5, "exit", some 250⟩], [⟨6, "emph", none⟩]],
    [[]],
    [[], [⟨4, "exit", some 0⟩]]]

theorem recover_encode_sample :
    (∀ step ∈ sampleTimeline, StepReadable step) ∧
      recover (some (encode sampleTimeline)) =
        { steps :=
            [[[⟨4, .entrance, some 0⟩, ⟨-5, .exit, some 250⟩], [⟨6, .entrance, none⟩]],
              [[], [⟨4, .exit, some 0⟩]]]
          fault := none } ∧
      (recover (some (encode sampleTimeline))).count = .ok 2 := by
  have hread : ∀ step ∈ sampleTimeline, StepReadable step := by decide
  exact ⟨hread, (recover_encode sampleTimeline).1 hread⟩

/-- A timeline of one step, whose one shape has the shortest number that is too long. -/
def longTimeline : List (List (List Cue)) := [[[⟨Nat.pow 10 maxDigits, "entr", some 0⟩]]]

theorem not_readable_longTimeline : ∀ step ∈ longTimeline, ¬StepReadable step := by
  intro step hstep hread
  obtain rfl := List.mem_singleton.1 hstep
  have hshape : Number.Readable (Nat.pow 10 maxDigits : Nat) :=
    (hread _ List.mem_cons_self _ List.mem_cons_self).1
  exact Nat.lt_irrefl _ ((readable_natCast_iff _).1 hshape)

/-- Its step is not recovered, and its steps cannot be counted. -/
theorem longTimeline_not_recovered :
    (recover (some (encode longTimeline))).steps = [] ∧
      (recover (some (encode longTimeline))).count ≠ .ok 1 := by
  obtain ⟨hsteps, -, hsome⟩ := walk_encode longTimeline
  have hcued : longTimeline.filter hasCue = longTimeline := rfl
  rw [hcued] at hsteps hsome
  obtain ⟨v, hv⟩ := hsome ⟨_, List.mem_cons_self, not_readable_longTimeline _ List.mem_cons_self⟩
  constructor
  · refine hsteps.trans ?_
    rw [longTimeline, List.takeWhile_cons_of_neg]
    · rfl
    · exact fun h => not_readable_longTimeline _ List.mem_cons_self (of_decide_eq_true h)
  · intro hcount
    have herror := Walk.count_of_fault_some hv
    exact nomatch hcount.symm.trans herror

end SlideFlow.Timeline
