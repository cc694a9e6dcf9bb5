/-
The way down from a step block. A step is read from the shape blocks that its groups lead to: for each
group through its first named child, and from there through the first child list. The way up from a
click accepts any time node and any child list, so that the two ways need not meet.

A step holds the animations of exactly the blocks that the way down leads to, and the clicked one is
among them if and only if the time node and the child list above it are the first ones
(`clicked_animation_read_iff`). Otherwise it is passed over, and nothing is reported
(`second_time_node_passed_over`).
-/
import SlideFlow.Proofs.Timeline.Ancestry
import SlideFlow.Proofs.Traverse

namespace SlideFlow.Markup.Element

/-! ## Children by address -/

/-- The addresses of the children with a property, in order. -/
def childAddresses (root : Element) (p : Element → Bool) (up : Address) : List Address :=
  match root.nodeAt? up with
  | none => []
  | some e => (e.children.zipIdx.filter fun c => p c.1).map fun c => c.2 :: up

variable {root e : Element} {p : Element → Bool} {up a : Address}

theorem childAddresses_eq (h : root.nodeAt? up = some e) (p : Element → Bool) :
    root.childAddresses p up = (e.children.zipIdx.filter fun c => p c.1).map fun c => c.2 :: up := by
  rw [childAddresses, h]

theorem forall₂_childAddresses (h : root.nodeAt? up = some e) (p : Element → Bool) :
    List.Forall₂ (fun a c => root.nodeAt? a = some c) (root.childAddresses p up)
      (e.children.filter p) := by
  have hchildren : e.children.filter p = (e.children.zipIdx.filter fun c => p c.1).map (·.1) := by
    conv_lhs => rw [← List.zipIdx_map_fst 0 e.children, List.filter_map]
    rfl
  rw [childAddresses_eq h, hchildren, List.forall₂_map_left_iff, List.forall₂_map_right_iff,
    List.forall₂_same]
  intro c hc
  rw [nodeAt?, h]
  exact List.mem_zipIdx_iff_getElem?.1 (List.mem_filter.1 hc).1

theorem mem_childAddresses_iff :
    a ∈ root.childAddresses p up ↔ ∃ i c, a = i :: up ∧ root.nodeAt? a = some c ∧ p c = true := by
  cases h : root.nodeAt? up with
  | none =>
    have hnil : root.childAddresses p up = [] := by rw [childAddresses, h]
    rw [hnil]
    constructor
    · exact nofun
    · rintro ⟨i, c, rfl, hc, -⟩
      rw [nodeAt?, h] at hc
      cases hc
  | some e =>
    rw [childAddresses_eq h, List.mem_map]
    constructor
    · rintro ⟨⟨c, i⟩, hmem, rfl⟩
      obtain ⟨hmem, hp⟩ := List.mem_filter.1 hmem
      exact ⟨i, c, rfl, by rw [nodeAt?, h]; exact List.mem_zipIdx_iff_getElem?.1 hmem, hp⟩
    · rintro ⟨i, c, rfl, hc, hp⟩
      rw [nodeAt?, h] at hc
      exact ⟨(c, i), List.mem_filter.2 ⟨List.mem_zipIdx_iff_getElem?.2 hc, hp⟩, rfl⟩

/-- The first child with a property stands at the first of the addresses. -/
theorem head?_childAddresses (h : root.nodeAt? up = some e) (p : Element → Bool) :
    (root.childAddresses p up).head?.bind root.nodeAt? = e.children.find? p := by
  have hforall := forall₂_childAddresses h p
  rw [← List.head?_filter]
  generalize root.childAddresses p up = as, e.children.filter p = cs at hforall
  cases hforall with
  | nil => rfl
  | cons hfirst _ => exact hfirst

end SlideFlow.Markup.Element

namespace SlideFlow.Timeline

open SlideFlow.Markup

/-! ## What a step is read from -/

/-- The blocks that a group is read from: those in the first child list of its first named child. -/
def groupSources (root : Element) (group : Address) : List Address :=
  let list? := (root.childAddresses (·.name ≠ "") group).head?.bind fun time =>
    (root.childAddresses (·.name = "childTnLst") time).head?
  list?.elim [] (root.childAddresses (·.name = "par"))

/-- The blocks that a step is read from, group by group. -/
def stepSources (root : Element) (block : Address) : List (List Address) :=
  (root.childAddresses (·.name = "par") block).map (groupSources root)

/-- The shape block at an address has an animation. -/
def AnimationAt (root : Element) (a : Address) (animation : Animation) : Prop :=
  ∃ block, root.nodeAt? a = some block ∧ readAnimation block = .ok animation

theorem readGroup_eq_ok {par : Element} {group : Group} (h : readGroup par = .ok group) :
    ∃ time, par.firstElement? = some time ∧
      (time.childNamed? "childTnLst" = none ∧ group = [] ∨
        ∃ list, time.childNamed? "childTnLst" = some list ∧
          (list.childrenNamed "par").mapM readAnimation = .ok group) := by
  unfold readGroup at h
  cases htime : par.firstElement? with
  | none =>
    rw [htime] at h
    cases h
  | some time =>
    rw [htime] at h
    dsimp only at h
    split at h
    · cases h
    · refine ⟨time, rfl, ?_⟩
      cases hlist : time.childNamed? "childTnLst" with
      | none =>
        rw [hlist] at h
        cases h
        exact .inl ⟨rfl, rfl⟩
      | some list =>
        rw [hlist] at h
        exact .inr ⟨list, rfl, h⟩

variable {root par block : Element} {a : Address} {group : Group} {step : Step}

/-- A group holds the animations of the blocks that it is read from. -/
theorem forall₂_of_readGroup (ha : root.nodeAt? a = some par) (h : readGroup par = .ok group) :
    List.Forall₂ (AnimationAt root) (groupSources root a) group := by
  obtain ⟨time, htime, hlist⟩ := readGroup_eq_ok h
  rw [Element.firstElement?, ← Element.head?_childAddresses ha] at htime
  obtain ⟨t, ht, htime⟩ := Option.bind_eq_some_iff.1 htime
  rw [groupSources, ht, Option.bind_some]
  have hfirst := Element.head?_childAddresses htime (·.name = "childTnLst")
  obtain ⟨hnone, rfl⟩ | ⟨list, hsome, hread⟩ := hlist
  · -- no child list, so no first one
    rw [Element.childNamed?] at hnone
    rw [hnone, Option.bind_eq_none_iff] at hfirst
    cases hhead : (root.childAddresses (·.name = "childTnLst") t).head? with
    | none => exact .nil
    | some l =>
      obtain ⟨i, c, -, hc, -⟩ := Element.mem_childAddresses_iff.1 (List.mem_of_head? hhead)
      cases hc.symm.trans (hfirst l hhead)
  · rw [Element.childNamed?] at hsome
    rw [hsome] at hfirst
    obtain ⟨l, hl, hlist⟩ := Option.bind_eq_some_iff.1 hfirst
    rw [hl, Option.elim_some]
    exact forall₂_of_mapM (Element.forall₂_childAddresses hlist _) hread
      fun _ c _ hc hanimation => ⟨c, hc, hanimation⟩

/-- A step holds the animations of the blocks that it is read from. -/
theorem forall₂_of_groups (ha : root.nodeAt? a = some block)
    (h : (block.childrenNamed "par").mapM readGroup = .ok step) :
    List.Forall₂ (List.Forall₂ (AnimationAt root)) (stepSources root a) step := by
  rw [stepSources, List.forall₂_map_left_iff]
  exact forall₂_of_mapM (Element.forall₂_childAddresses ha _) h
    fun _ _ _ hpar hgroup => forall₂_of_readGroup hpar hgroup

/-! ## The clicked block -/

/-- The time node and the child list above a click are those that the way down leads through. -/
def FirstOnTheWay (root : Element) (a : Address) : Prop :=
  (root.childAddresses (·.name ≠ "") (a.drop 4)).head? = some (a.drop 3) ∧
    (root.childAddresses (·.name = "childTnLst") (a.drop 3)).head? = some (a.drop 2)

theorem mem_groupSources_iff {group : Address} : a ∈ groupSources root group ↔
    ∃ t l, (root.childAddresses (·.name ≠ "") group).head? = some t ∧
      (root.childAddresses (·.name = "childTnLst") t).head? = some l ∧
      a ∈ root.childAddresses (·.name = "par") l := by
  unfold groupSources
  constructor
  · intro h
    cases hlist : (root.childAddresses (·.name ≠ "") group).head?.bind fun time =>
        (root.childAddresses (·.name = "childTnLst") time).head? with
    | none =>
      rw [hlist] at h
      cases h
    | some l =>
      rw [hlist] at h
      obtain ⟨t, ht, hl⟩ := Option.bind_eq_some_iff.1 hlist
      exact ⟨t, l, ht, hl, h⟩
  · rintro ⟨t, l, ht, hl, h⟩
    rw [ht, Option.bind_some, hl]
    exact h

/-- The way down leads to the clicked block exactly if it leads through the time node and the child
list above it. -/
theorem mem_stepSources_iff (h : Follows root a 5) :
    (∃ sources ∈ stepSources root (a.drop 5), a.drop 1 ∈ sources) ↔ FirstOnTheWay root a := by
  obtain ⟨shape, hshape, hshapeName⟩ := h 0 (by omega) "par" rfl
  obtain ⟨group, hgroup, hgroupName⟩ := h 3 (by omega) "par" rfl
  obtain ⟨block, hblock, -⟩ := h 4 (by omega) "childTnLst" rfl
  have hlength := (Element.ancestorAt?_eq_some_iff.1 hblock).1
  -- each address on the way up is the tail of the one below
  have htail (k : Nat) (hk : k < 5) : ∃ i, a.drop k = i :: a.drop (k + 1) :=
    ⟨_, List.drop_eq_getElem_cons (by omega)⟩
  obtain ⟨s, hs⟩ := htail 1 (by omega)
  obtain ⟨l, hl⟩ := htail 2 (by omega)
  obtain ⟨t, ht⟩ := htail 3 (by omega)
  obtain ⟨g, hg⟩ := htail 4 (by omega)
  constructor
  · rintro ⟨sources, hsources, hmem⟩
    obtain ⟨g', -, rfl⟩ := List.mem_map.1 hsources
    obtain ⟨t', l', ht', hl', hs'⟩ := mem_groupSources_iff.1 hmem
    obtain ⟨_, -, hs₁, -⟩ := Element.mem_childAddresses_iff.1 hs'
    obtain rfl := (List.cons.inj (hs₁.symm.trans hs)).2
    obtain ⟨_, -, hl₁, -⟩ := Element.mem_childAddresses_iff.1 (List.mem_of_head? hl')
    obtain rfl := (List.cons.inj (hl₁.symm.trans hl)).2
    obtain ⟨_, -, ht₁, -⟩ := Element.mem_childAddresses_iff.1 (List.mem_of_head? ht')
    obtain rfl := (List.cons.inj (ht₁.symm.trans ht)).2
    exact ⟨ht', hl'⟩
  · rintro ⟨hfirst, hlist⟩
    refine ⟨groupSources root (a.drop 4), List.mem_map_of_mem ?_,
      mem_groupSources_iff.2 ⟨_, _, hfirst, hlist, ?_⟩⟩
    · exact Element.mem_childAddresses_iff.2 ⟨g, group, hg,
        (Element.ancestorAt?_eq_some_iff.1 hgroup).2, decide_eq_true hgroupName⟩
    · exact Element.mem_childAddresses_iff.2 ⟨s, shape, hs,
        (Element.ancestorAt?_eq_some_iff.1 hshape).2, decide_eq_true hshapeName⟩

/-- The step of a click is read from the block that stands five levels above it. -/
theorem exists_block {c : Element} (hc : root.nodeAt? a = some c)
    (h : stepAt? root a = some (.ok step)) :
    Follows root a 5 ∧ ∃ block, root.nodeAt? (a.drop 5) = some block ∧
      (block.childrenNamed "par").mapM readGroup = .ok step := by
  rw [stepAt?_eq hc, Option.some_inj, readStep] at h
  obtain ⟨block, hblock, hgroups⟩ := bind_eq_ok_iff.1 h
  obtain ⟨hfollows, hat⟩ := ((checked hc).found block).1 hblock
  exact ⟨hfollows, block, (Element.ancestorAt?_eq_some_iff.1 hat).2, hgroups⟩

/-- The step of a click holds the animations of the blocks that the way down leads to. The clicked
block is one of them if and only if the time node and the child list above it are the first ones, and
then its animation is in a group of the step. -/
theorem clicked_animation_read_iff (root : Element) (i : Nat) (a : Address) (step : Step)
    (ha : (clickAddresses root)[i]? = some a)
    (hstep : (recover (some root)).steps[i]? = some step) :
    List.Forall₂ (List.Forall₂ (AnimationAt root)) (stepSources root (a.drop 5)) step ∧
    ((∃ sources ∈ stepSources root (a.drop 5), a.drop 1 ∈ sources) ↔ FirstOnTheWay root a) ∧
    (FirstOnTheWay root a →
      ∃ animation, AnimationAt root (a.drop 1) animation ∧
        ∃ group ∈ step, animation ∈ group) := by
  have hread := stepAt?_of_yielded ha hstep
  obtain ⟨c, hc, -⟩ := mem_clickAddresses_iff.1 (List.mem_of_getElem? ha)
  obtain ⟨hfollows, block, hblock, hgroups⟩ := exists_block hc hread
  have hsources := forall₂_of_groups hblock hgroups
  have hclicked := mem_stepSources_iff hfollows
  refine ⟨hsources, hclicked, ?_⟩
  intro hfirst
  obtain ⟨sources, hmem, hsource⟩ := hclicked.2 hfirst
  obtain ⟨group, hgroup, hanimations⟩ := exists_of_forall₂_of_mem hsources.flip hmem
  obtain ⟨animation, hanimation, hat⟩ := exists_of_forall₂_of_mem hanimations.flip hsource
  exact ⟨animation, hat, group, hgroup, hanimation⟩

/-- An element without a namespace. -/
def plain (name : String) (attrs : List (String × String)) (children : List Element) : Element :=
  { tag? := some name, attrs, children }

/-- The block of a shape that comes in on a click. -/
def clickedShape : Element :=
  plain "par" [] [
    plain "cTn" [("id", "5"), ("nodeType", "clickEffect")] [
      plain "childTnLst" [] [
        plain "set" [] [plain "cBhvr" [] [plain "tgtEl" [] [plain "spTgt" [("spid", "4")] []]]]]]]

/-- A step block whose one group has its time node behind a comment. -/
def commentedGroup : Element :=
  plain "childTnLst" [] [
    plain "par" [] [
      .comment,
      plain "cTn" [("id", "3")] [plain "childTnLst" [] [clickedShape]]]]

theorem clicked_animation_read_iff_commentedGroup :
    (clickAddresses commentedGroup)[0]? = some [0, 0, 0, 1, 0] ∧
    (recover (some commentedGroup)).steps[0]? = some [[⟨4, .entrance, some 0⟩]] ∧
    FirstOnTheWay commentedGroup [0, 0, 0, 1, 0] ∧
    ∃ animation, AnimationAt commentedGroup [0, 0, 1, 0] animation ∧
      ∃ group ∈ [[⟨4, .entrance, some 0⟩]], animation ∈ group := by
  have ha : (clickAddresses commentedGroup)[0]? = some [0, 0, 0, 1, 0] := by decide
  have hstep : (recover (some commentedGroup)).steps[0]? = some [[⟨4, .entrance, some 0⟩]] := by
    decide
  have hfirst : FirstOnTheWay commentedGroup [0, 0, 0, 1, 0] := by
    unfold FirstOnTheWay
    decide
  exact ⟨ha, hstep, hfirst, (clicked_animation_read_iff commentedGroup 0 _ _ ha hstep).2.2 hfirst⟩

/-- A step block whose one group has two time nodes, with the click below the second. -/
def doubledTime : Element :=
  plain "childTnLst" [] [
    plain "par" [] [
      plain "cTn" [("id", "3")] [],
      plain "cTn" [("id", "4")] [plain "childTnLst" [] [clickedShape]]]]

/-- The clicked block has an animation, the walk ends without a violation, and the step of the click
holds no animation at all. -/
theorem second_time_node_passed_over :
    (clickAddresses doubledTime)[0]? = some [0, 0, 0, 1, 0] ∧
    AnimationAt doubledTime [0, 0, 1, 0] ⟨4, .entrance, some 0⟩ ∧
    recover (some doubledTime) = { steps := [[[]]], fault := none } ∧
    ¬∃ animation, AnimationAt doubledTime [0, 0, 1, 0] animation ∧
      ∃ group ∈ [[]], animation ∈ group := by
  refine ⟨by decide, ⟨clickedShape, rfl, by decide⟩, by decide, ?_⟩
  rintro ⟨animation, -, group, hgroup, hanimation⟩
  obtain rfl := List.mem_singleton.1 hgroup
  cases hanimation

end SlideFlow.Timeline
