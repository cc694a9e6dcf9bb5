/-
Comments and namespaces play no part in a timeline. Each reading of a part of a timing tree gives the
same for the bare form of that part, violations included, and so does the walk
(`recover_bare`). Two trees with one bare form therefore have the same timeline
(`recover_eq_of_bare_eq`).
-/
import SlideFlow.Proofs.Markup.Bare
import SlideFlow.Proofs.Timeline.Coverage

namespace SlideFlow.Timeline

open SlideFlow.Markup SlideFlow.Number

/-! ## Animations -/

theorem neat_of_childNamed? {e c : Element} (h : e.Neat) {key : String}
    (hc : e.childNamed? key = some c) : c.Neat :=
  h.of_mem_children (List.mem_of_find?_eq_some hc)

theorem startDelay_bare {time : Element} (h : time.Neat) :
    startDelay time.bare = startDelay time := by
  unfold startDelay
  rw [Element.childNamed?_bare (by decide), Element.describe_bare h.distinct]
  cases hconditions : time.childNamed? "stCondLst" with
  | none => rfl
  | some conditions =>
    have hneat := neat_of_childNamed? h hconditions
    simp only [Option.map_some, Option.bind_eq_bind, Option.bind_some]
    rw [Element.childNamed?_bare (by decide)]
    cases hcondition : conditions.childNamed? "cond" with
    | none => rfl
    | some condition =>
      simp only [Option.map_some, Option.bind_some]
      rw [Element.attr?_bare (neat_of_childNamed? hneat hcondition).distinct (by decide)]

theorem descend_bare {time behaviour : Element} (htime : time.Distinct)
    (hbehaviour : behaviour.Distinct) {path : List String} (hpath : "" ∉ path) (e : Element) :
    descend time.bare behaviour.bare e.bare path =
      (descend time behaviour e path).map Element.bare := by
  induction path generalizing e with
  | nil => rfl
  | cons tag path ih =>
    rw [List.mem_cons, not_or] at hpath
    rw [descend, descend, Element.childNamed?_bare (Ne.symm hpath.1)]
    cases e.childNamed? tag with
    | some child => exact ih hpath.2 child
    | none =>
      simp only [Option.map_none, Element.describe_bare htime, Element.describe_bare hbehaviour]
      rfl

theorem setBehaviour?_bare (time : Element) :
    setBehaviour? time.bare = (setBehaviour? time).map Element.bare := by
  unfold setBehaviour?
  rw [Element.childNamed?_bare (by decide)]
  cases time.childNamed? "childTnLst" with
  | none => rfl
  | some list => exact Element.childNamed?_bare (by decide) list

theorem neat_of_setBehaviour? {time behaviour : Element} (h : time.Neat)
    (hset : setBehaviour? time = some behaviour) : behaviour.Neat := by
  obtain ⟨list, hlist, hbehaviour⟩ := Option.bind_eq_some_iff.1 hset
  exact neat_of_childNamed? (neat_of_childNamed? h hlist) hbehaviour

theorem neat_of_descend {time behaviour e target : Element} (h : e.Neat) {path : List String}
    (htarget : descend time behaviour e path = .ok target) : target.Neat := by
  induction path generalizing e with
  | nil =>
    cases htarget
    exact h
  | cons tag path ih =>
    rw [descend] at htarget
    cases hchild : e.childNamed? tag with
    | none =>
      rw [hchild] at htarget
      cases htarget
    | some child =>
      rw [hchild] at htarget
      exact ih (neat_of_childNamed? h hchild) htarget

theorem targetShape_bare {time target : Element} (htime : time.Distinct)
    (htarget : target.Distinct) :
    targetShape time.bare target.bare = targetShape time target := by
  rw [targetShape, targetShape, Element.attr?_bare htarget (by decide),
    Element.describe_bare htime]

/-- The animation of a block depends on its bare form only. -/
theorem readAnimation_bare {block : Element} (h : block.Neat) :
    readAnimation block.bare = readAnimation block := by
  have htimeBare := Element.childNamed?_bare (by decide : "cTn" ≠ "") block
  cases htime : block.childNamed? "cTn" with
  | none =>
    rw [htime] at htimeBare
    simp only [readAnimation, htime, htimeBare, Option.map_none, Element.describe_bare h.distinct]
  | some time =>
    have hneat := neat_of_childNamed? h htime
    have hsetBare := setBehaviour?_bare time
    rw [htime] at htimeBare
    cases hset : setBehaviour? time with
    | none =>
      rw [hset] at hsetBare
      simp only [readAnimation, htime, htimeBare, hset, hsetBare, Option.map_some, Option.map_none,
        Element.describe_bare hneat.distinct]
    | some behaviour =>
      have hbehaviour := neat_of_setBehaviour? hneat hset
      have htargetBare := descend_bare hneat.distinct hbehaviour.distinct
        (by decide : "" ∉ targetPath) behaviour
      rw [hset] at hsetBare
      cases htarget : descend time behaviour behaviour targetPath with
      | error v =>
        rw [htarget] at htargetBare
        simp only [readAnimation, htime, htimeBare, hset, hsetBare, htarget, htargetBare,
          Option.map_some]
        rfl
      | ok target =>
        rw [htarget] at htargetBare
        rw [readAnimation_eq htimeBare hsetBare htargetBare, readAnimation_eq htime hset htarget,
          targetShape_bare hneat.distinct (neat_of_descend hbehaviour htarget).distinct,
          startDelay_bare hneat, Element.attr?_bare hneat.distinct (by decide)]

/-! ## Groups and steps -/

theorem readGroup_bare {par : Element} (h : par.Neat) : readGroup par.bare = readGroup par := by
  unfold readGroup
  rw [Element.firstElement?_bare, Element.describe_bare h.distinct]
  cases htime : par.firstElement? with
  | none => rfl
  | some time =>
    have hneat : time.Neat := h.of_mem_children (List.mem_of_find?_eq_some htime)
    simp only [Option.map_some, Element.name_bare, Element.describe_bare hneat.distinct]
    rw [Element.childNamed?_bare (by decide)]
    cases hlist : time.childNamed? "childTnLst" with
    | none => rfl
    | some list =>
      have hlistNeat := neat_of_childNamed? hneat hlist
      simp only [Option.map_some]
      rw [Element.childrenNamed_bare (by decide), mapM_map_congr]
      intro block hblock
      exact readAnimation_bare (hlistNeat.of_mem_children (List.mem_filter.1 hblock).1)

/-- The climb goes through the bare forms of the ancestors. -/
theorem climb_bare {checkpoint : Element} (hcheckpoint : checkpoint.Distinct) (below : Nat)
    (current : Element) (expected : List (String × String)) {above : List Element}
    (h : ∀ e ∈ above, e.Distinct) :
    climb checkpoint.bare below current.bare expected (above.map Element.bare) =
      (climb checkpoint below current expected above).map Element.bare := by
  induction expected generalizing below current above with
  | nil => cases above <;> rfl
  | cons first expected ih =>
    obtain ⟨tag, role⟩ := first
    cases above with
    | nil =>
      rw [List.map_nil, climb, climb, Element.describe_bare hcheckpoint]
      rfl
    | cons up above =>
      rw [List.forall_mem_cons] at h
      rw [List.map_cons, climb, climb, Element.name_bare, Element.describe_bare hcheckpoint,
        Element.describe_bare h.1]
      split
      · exact ih (below + 1) up h.2
      · rfl

theorem mem_of_stepBlock {checkpoint block : Element} {above : List Element}
    (h : stepBlock checkpoint above = .ok block) : block ∈ checkpoint :: above := by
  obtain ⟨found, hfound, -, hmem⟩ | ⟨_, _, -, -, -, herror⟩ :=
    climb_cases checkpoint 0 checkpoint ancestry above
  · cases h.symm.trans hfound
    exact List.mem_of_getElem? hmem
  · cases h.symm.trans herror

theorem stepBlock_bare {checkpoint : Element} (hcheckpoint : checkpoint.Distinct)
    {above : List Element} (h : ∀ e ∈ above, e.Distinct) :
    stepBlock checkpoint.bare (above.map Element.bare) =
      (stepBlock checkpoint above).map Element.bare :=
  climb_bare hcheckpoint 0 checkpoint ancestry h

/-- The step of a checkpoint depends on the bare forms of its ancestors only. -/
theorem readStep_bare {checkpoint : Element} {above : List Element} (hcheckpoint : checkpoint.Neat)
    (h : ∀ e ∈ above, e.Neat) :
    readStep checkpoint.bare (above.map Element.bare) = readStep checkpoint above := by
  unfold readStep
  rw [stepBlock_bare hcheckpoint.distinct fun e he => (h e he).distinct]
  cases hblock : stepBlock checkpoint above with
  | error v => rfl
  | ok block =>
    have hneat : block.Neat := List.forall_mem_cons.2 ⟨hcheckpoint, h⟩ block (mem_of_stepBlock hblock)
    show (block.bare.childrenNamed "par").mapM readGroup = (block.childrenNamed "par").mapM readGroup
    rw [Element.childrenNamed_bare (by decide), mapM_map_congr]
    intro par hpar
    exact readGroup_bare (hneat.of_mem_children (List.mem_filter.1 hpar).1)

/-! ## The walk -/

theorem isCheckpoint_bare {e : Element} (h : e.Distinct) :
    isCheckpoint e.bare = isCheckpoint e := by
  rw [isCheckpoint, isCheckpoint, Element.name_bare, Element.attr?_bare h (by decide)]

theorem not_isComment_of_isCheckpoint {e : Element} (h : isCheckpoint e = true) :
    e.isComment = false := by
  refine Element.not_isComment_of_name_ne ?_
  rw [(isCheckpoint_iff.1 h).1]
  decide

theorem neat_of_visit {root : Element} (h : root.Neat) {v : Element × List Element}
    (hv : v ∈ root.visits []) : v.1.Neat ∧ ∀ e ∈ v.2, e.Neat := by
  obtain ⟨a, -, hnode, habove⟩ := exists_of_forall₂_of_mem (Element.forall₂_visits root) hv
  refine ⟨h.of_nodeAt? hnode, ?_⟩
  intro e he
  rw [← habove] at he
  obtain ⟨b, hb⟩ := Element.exists_nodeAt?_of_mem_ancestors he
  exact h.of_nodeAt? hb

/-- The checkpoints of the bare form are the bare forms of the checkpoints. -/
theorem checkpoints_bare {root : Element} (h : root.Neat) :
    checkpoints root.bare = (checkpoints root).map Element.bareVisit := by
  cases hroot : root.isComment with
  | false =>
    have hvisits := Element.visits_bare [] hroot
    show ((Element.visits ([].map Element.bare) root.bare).filter fun v => isCheckpoint v.1) =
      ((root.visits []).filter fun v => isCheckpoint v.1).map Element.bareVisit
    rw [hvisits, List.filter_map, List.filter_filter]
    congr 1
    refine List.filter_congr fun v hv => ?_
    have hcheck : isCheckpoint v.1.bare = isCheckpoint v.1 :=
      isCheckpoint_bare (neat_of_visit h hv).1.distinct
    rw [Function.comp_apply, Element.bareVisit, hcheck]
    cases hv : isCheckpoint v.1 with
    | false => rfl
    | true =>
      rw [not_isComment_of_isCheckpoint hv]
      rfl
  | true =>
    -- a comment alone has no checkpoint, nor has its bare form
    obtain ⟨tag?, attrs, children⟩ := root
    obtain ⟨htag, hchildren⟩ := Bool.and_eq_true_iff.1 hroot
    obtain rfl : tag? = none := Option.isNone_iff_eq_none.1 htag
    obtain rfl : children = [] := List.isEmpty_iff.1 hchildren
    simp [checkpoints, Element.visits, Element.visitsAll, Element.bare, Element.bareAll,
      isCheckpoint, Element.name]

/-- The timeline of a tree is that of its bare form. -/
theorem recover_bare {root : Element} (h : root.Neat) :
    recover (some root.bare) = recover (some root) := by
  show Walk.ofResults ((checkpoints root.bare).map fun v => readStep v.1 v.2) =
    Walk.ofResults ((checkpoints root).map fun v => readStep v.1 v.2)
  rw [checkpoints_bare h, List.map_map]
  congr 1
  refine List.map_congr_left fun v hv => ?_
  obtain ⟨hnode, habove⟩ := neat_of_visit h (List.mem_filter.1 hv).1
  exact readStep_bare hnode habove

/-- Trees that differ in comments and namespaces only have the same timeline: the same steps, ended by
the same violation or by none, and as many of them. -/
theorem recover_eq_of_bare_eq (a b : Element) (ha : a.Neat) (hb : b.Neat)
    (h : a.bare = b.bare) :
    recover (some a) = recover (some b) ∧
      (recover (some a)).count = (recover (some b)).count := by
  have hwalk : recover (some a) = recover (some b) := by
    rw [← recover_bare ha, h, recover_bare hb]
  exact ⟨hwalk, congrArg Walk.count hwalk⟩

/-- A step, and behind it a click outside of any block. -/
def strayClick : Element :=
  plain "timing" [] [
    commentedGroup,
    plain "cTn" [("id", "9"), ("nodeType", "clickEffect")] []]

/-- The same with its comment elsewhere and names in a namespace. -/
def spacedStrayClick : Element :=
  plain "\x7bu\x7dtiming" [] [
    plain "\x7bu\x7dchildTnLst" [] [
      plain "par" [] [
        plain "\x7bu\x7dcTn" [("id", "3")] [plain "childTnLst" [] [clickedShape, .comment]]]],
    .comment,
    plain "cTn" [("\x7bu\x7did", "9"), ("\x7bu\x7dnodeType", "clickEffect")] []]

theorem recover_eq_of_bare_eq_strayClick :
    strayClick.Neat ∧ spacedStrayClick.Neat ∧ strayClick.bare = spacedStrayClick.bare ∧
    recover (some strayClick) =
      { steps := [[[⟨4, .entrance, some 0⟩]]]
        fault := some (.ancestry "<cTn id=9>" 1 "par" "shape block" "<timing>") } ∧
    recover (some strayClick) = recover (some spacedStrayClick) := by
  have hneat : strayClick.Neat := by decide
  have hspaced : spacedStrayClick.Neat := by decide
  have hbare : strayClick.bare = spacedStrayClick.bare := by rfl
  exact ⟨hneat, hspaced, hbare, by decide,
    (recover_eq_of_bare_eq strayClick spacedStrayClick hneat hspaced hbare).1⟩

end SlideFlow.Timeline
