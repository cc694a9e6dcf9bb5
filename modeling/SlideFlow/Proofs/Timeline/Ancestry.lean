/-
The way up from a click. Checkpoints are told apart by their addresses, and the ancestors that the
climb checks are the nodes at the tails of these addresses. So the climb can be said in terms of the
tree alone: it ends at the fifth ancestor if the five nearest have the expected names, and otherwise
at the lowest one that has not (`Checked`). The walk takes one result from each checkpoint in
document order, up to the first violation (`checkpoints_validated`).
-/
import SlideFlow.Proofs.Markup.Address
import SlideFlow.Proofs.Timeline.RoundTrip

namespace SlideFlow.Timeline

open SlideFlow.Markup

/-! ## Checkpoints by address -/

/-- The addresses of the click checkpoints in document order. -/
def clickAddresses (root : Element) : List Address :=
  root.addresses.filter fun a => (root.nodeAt? a).any isCheckpoint

/-- The result of reading the step of the node at an address. -/
def stepAt? (root : Element) (a : Address) : Option (Except Violation Step) :=
  (root.nodeAt? a).map fun c => readStep c (root.ancestors a)

theorem mem_clickAddresses_iff {root : Element} {a : Address} :
    a ∈ clickAddresses root ↔ ∃ c, root.nodeAt? a = some c ∧ isCheckpoint c = true := by
  rw [clickAddresses, List.mem_filter, Element.mem_addresses_iff, Option.any_eq_true]
  constructor
  · rintro ⟨-, c, hc, hcheck⟩
    exact ⟨c, hc, hcheck⟩
  · rintro ⟨c, hc, hcheck⟩
    exact ⟨by rw [hc]; rfl, c, hc, hcheck⟩

theorem pairwise_clickAddresses (root : Element) :
    (clickAddresses root).Pairwise Address.Before :=
  (Element.pairwise_addresses root).filter _

/-- The checkpoints of a tree stand at their addresses, with the ancestors that they have there. -/
theorem forall₂_checkpoints (root : Element) :
    List.Forall₂ (Element.VisitAt root) (clickAddresses root) (checkpoints root) := by
  refine List.rel_filter ?_ (Element.forall₂_visits root)
  rintro a v ⟨hnode, -⟩
  simp [hnode]

theorem stepAt?_eq {root : Element} {a : Address} {c : Element} (h : root.nodeAt? a = some c) :
    stepAt? root a = some (readStep c (root.ancestors a)) := by
  rw [stepAt?, h]
  rfl

/-- The results along the walk are those at the addresses of the checkpoints. -/
theorem map_stepAt? (root : Element) :
    ((checkpoints root).map fun v => readStep v.1 v.2).map some =
      (clickAddresses root).map (stepAt? root) := by
  have hresults : List.Forall₂ (· = ·) ((clickAddresses root).map (stepAt? root))
      ((checkpoints root).map fun v => some (readStep v.1 v.2)) := by
    rw [List.forall₂_map_left_iff, List.forall₂_map_right_iff]
    refine (forall₂_checkpoints root).imp ?_
    rintro a v ⟨hnode, habove⟩
    rw [stepAt?_eq hnode, habove]
  rw [List.forall₂_eq_eq_eq] at hresults
  rw [hresults, List.map_map]
  rfl

/-! ## The walk -/

/-- A walk yields results one after the other, up to the first violation, which ends it. -/
structure Walk.Takes (w : Walk) (results : List (Except Violation Step)) : Prop where
  yielded : ∀ (i : Nat) (step : Step), w.steps[i]? = some step → results[i]? = some (.ok step)
  raised : ∀ v, w.fault = some v → results[w.steps.length]? = some (.error v)
  finished : w.fault = none → w.steps.length = results.length

theorem Walk.takes_ofResults (results : List (Except Violation Step)) :
    (ofResults results).Takes results := by
  induction results with
  | nil => exact ⟨nofun, nofun, fun _ => rfl⟩
  | cons result results ih =>
    obtain ⟨hyielded, hraised, hfinished⟩ := ih
    cases result with
    | error v =>
      refine ⟨nofun, ?_, nofun⟩
      intro w hw
      cases hw
      rfl
    | ok first =>
      refine ⟨?_, hraised, fun h => congrArg (· + 1) (hfinished h)⟩
      rintro (_ | i) step hstep
      · cases hstep
        rfl
      · exact hyielded i step hstep

theorem recover_takes (root : Element) :
    (recover (some root)).Takes ((checkpoints root).map fun v => readStep v.1 v.2) :=
  Walk.takes_ofResults _

/-- A step that is yielded is that of the checkpoint with its number. -/
theorem stepAt?_of_yielded {root : Element} {i : Nat} {a : Address} {step : Step}
    (ha : (clickAddresses root)[i]? = some a)
    (hstep : (recover (some root)).steps[i]? = some step) : stepAt? root a = some (.ok step) := by
  have hresult := (recover_takes root).yielded i step hstep
  have hmap := congrArg (·[i]?) (map_stepAt? root)
  simp only [List.getElem?_map, ha] at hmap
  rw [← List.getElem?_map, hresult] at hmap
  exact (Option.some.inj hmap).symm

theorem length_of_count {root : Element} {n : Nat} (h : (recover (some root)).count = .ok n) :
    n = (clickAddresses root).length := by
  cases hfault : (recover (some root)).fault with
  | some v => exact nomatch h.symm.trans (Walk.count_of_fault_some hfault)
  | none =>
    cases h.symm.trans (Walk.count_of_fault_none hfault)
    rw [(recover_takes root).finished hfault, List.length_map,
      (forall₂_checkpoints root).length_eq]

/-! ## The climb -/

/-- Local names of the ancestors of a click, from the shape block up to the step block. -/
def clickPath : List String := ["par", "childTnLst", "cTn", "par", "childTnLst"]

/-- The ancestor some levels above an address has a local name. -/
def NamedAbove (root : Element) (a : Address) (level : Nat) (name : String) : Prop :=
  ∃ e, root.ancestorAt? a level = some e ∧ e.name = name

/-- The nearest ancestors above an address, a number of them, are named as those of a click. -/
def Follows (root : Element) (a : Address) (levels : Nat) : Prop :=
  ∀ i < levels, ∀ name, clickPath[i]? = some name → NamedAbove root a (i + 1) name

/-- A climb reaches its end if each ancestor has the expected name. Otherwise it reports the lowest
one that has not. -/
theorem climb_cases (checkpoint : Element) (below : Nat) (current : Element)
    (expected : List (String × String)) (above : List Element) :
    (∃ block, climb checkpoint below current expected above = .ok block ∧
      (∀ (i : Nat) t, expected[i]? = some t → ∃ e, above[i]? = some e ∧ e.name = t.1) ∧
      (current :: above)[expected.length]? = some block) ∨
    ∃ (i : Nat) (t : String × String), expected[i]? = some t ∧
      (∀ j < i, ∀ u, expected[j]? = some u → ∃ e, above[j]? = some e ∧ e.name = u.1) ∧
      (¬∃ e, above[i]? = some e ∧ e.name = t.1) ∧
      climb checkpoint below current expected above =
        .error (.ancestry checkpoint.describe (below + i + 1) t.1 t.2
          (Element.describe? above[i]?)) := by
  induction expected generalizing below current above with
  | nil => exact .inl ⟨current, by simp [climb], by simp, rfl⟩
  | cons first expected ih =>
    obtain ⟨tag, role⟩ := first
    cases above with
    | nil => exact .inr ⟨0, (tag, role), rfl, by simp, by simp, by simp [climb]⟩
    | cons up above =>
      by_cases hup : up.name = tag
      · rw [climb, if_pos hup]
        obtain ⟨block, hclimb, hall, hblock⟩ | ⟨i, t, ht, hbefore, hnot, hclimb⟩ :=
          ih (below + 1) up above
        · refine .inl ⟨block, hclimb, ?_, hblock⟩
          rintro (_ | i) t ht
          · cases ht
            exact ⟨up, rfl, hup⟩
          · exact hall i t ht
        · refine .inr ⟨i + 1, t, ht, ?_, hnot, ?_⟩
          · rintro (_ | j) hj u hu
            · cases hu
              exact ⟨up, rfl, hup⟩
            · exact hbefore j (by omega) u hu
          · rw [hclimb, show below + (i + 1) + 1 = below + 1 + i + 1 by omega]
            rfl
      · refine .inr ⟨0, (tag, role), rfl, by simp, ?_, by simp [climb, hup, Element.describe?]⟩
        rintro ⟨e, he, hname⟩
        cases he
        exact hup hname

theorem clickPath_eq : clickPath = ancestry.map (·.1) := rfl

theorem clickPath_getElem?_iff {i : Nat} {name : String} :
    clickPath[i]? = some name ↔ ∃ t, ancestry[i]? = some t ∧ t.1 = name := by
  rw [clickPath_eq, List.getElem?_map, Option.map_eq_some_iff]

theorem namedAbove_iff {root c : Element} {a : Address} (h : root.nodeAt? a = some c) {i : Nat}
    {name : String} : NamedAbove root a (i + 1) name ↔
      ∃ e, (root.ancestors a)[i]? = some e ∧ e.name = name := by
  rw [NamedAbove, Element.getElem?_ancestors h]

theorem follows_iff {root c : Element} {a : Address} (h : root.nodeAt? a = some c)
    {levels : Nat} : Follows root a levels ↔ ∀ i < levels, ∀ t, ancestry[i]? = some t →
      ∃ e, (root.ancestors a)[i]? = some e ∧ e.name = t.1 := by
  constructor
  · intro hfollows i hi t ht
    exact (namedAbove_iff h).1 (hfollows i hi t.1 (clickPath_getElem?_iff.2 ⟨t, ht, rfl⟩))
  · intro hall i hi name hname
    obtain ⟨t, ht, rfl⟩ := clickPath_getElem?_iff.1 hname
    exact (namedAbove_iff h).2 (hall i hi t ht)

/-- Either the five nearest ancestors are those of a click, and the climb ends at the fifth, or it
reports the lowest one that is not. -/
theorem stepBlock_cases {root c : Element} {a : Address} (h : root.nodeAt? a = some c) :
    (∃ block, stepBlock c (root.ancestors a) = .ok block ∧ Follows root a 5 ∧
      root.ancestorAt? a 5 = some block) ∨
    ∃ (i : Nat) (t : String × String), ancestry[i]? = some t ∧ Follows root a i ∧
      ¬NamedAbove root a (i + 1) t.1 ∧
      stepBlock c (root.ancestors a) =
        .error (.ancestry c.describe (i + 1) t.1 t.2
          (Element.describe? (root.ancestorAt? a (i + 1)))) := by
  obtain ⟨block, hclimb, hall, hblock⟩ | ⟨i, t, ht, hbefore, hnot, hclimb⟩ :=
    climb_cases c 0 c ancestry (root.ancestors a)
  · refine .inl ⟨block, hclimb, (follows_iff h).2 fun i _ => hall i, ?_⟩
    rw [← Element.getElem?_ancestors h]
    exact hblock
  · refine .inr ⟨i, t, ht, (follows_iff h).2 hbefore, ?_, ?_⟩
    · intro hnamed
      exact hnot ((namedAbove_iff h).1 hnamed)
    · rw [stepBlock, hclimb, Nat.zero_add, Element.getElem?_ancestors h]

/-- The levels of the way up are those below the one where it ends. -/
theorem lt_of_clickPath {i : Nat} {name : String} (h : clickPath[i]? = some name) : i < 5 :=
  (List.getElem?_eq_some_iff.1 h).1

/-- Where two levels are the lowest that differ, they are one. -/
theorem level_unique {root : Element} {a : Address} {i j : Nat} {name other : String}
    (hi : clickPath[i]? = some name) (hj : clickPath[j]? = some other)
    (hfollowsi : Follows root a i) (hfollowsj : Follows root a j)
    (hnoti : ¬NamedAbove root a (i + 1) name) (hnotj : ¬NamedAbove root a (j + 1) other) :
    i = j := by
  obtain hlt | heq | hgt := Nat.lt_trichotomy i j
  · exact absurd (hfollowsj i hlt name hi) hnoti
  · exact heq
  · exact absurd (hfollowsi j hgt other hj) hnotj

/-- What the climb from the checkpoint `c` at an address says about the tree. -/
structure Checked (root : Element) (a : Address) (c : Element) : Prop where
  /-- The step block is found exactly if the five nearest ancestors are those of a click, and is the
  fifth of them. -/
  found : ∀ block, stepBlock c (root.ancestors a) = .ok block ↔
    Follows root a 5 ∧ root.ancestorAt? a 5 = some block
  /-- The step is read from the groups in the block. -/
  read : ∀ block, stepBlock c (root.ancestors a) = .ok block →
    stepAt? root a = some ((block.childrenNamed "par").mapM readGroup)
  /-- The lowest level that differs is reported, with the name that was expected there and what
  stands there. -/
  missed : ∀ (i : Nat) name, clickPath[i]? = some name → Follows root a i →
    ¬NamedAbove root a (i + 1) name →
      ∃ v, stepAt? root a = some (.error v) ∧ v.level? = some (i + 1) ∧ v.expected? = some name ∧
        v.actual? = some (Element.describe? (root.ancestorAt? a (i + 1))) ∧
        (a.length ≤ i → v.actual? = some "<nothing>")

theorem checked {root c : Element} {a : Address} (h : root.nodeAt? a = some c) :
    Checked root a c := by
  have hcases := stepBlock_cases h
  constructor
  · intro block
    constructor
    · intro hblock
      obtain ⟨found, hfound, hfollows, hat⟩ | ⟨i, t, -, -, -, herror⟩ := hcases
      · cases hblock.symm.trans hfound
        exact ⟨hfollows, hat⟩
      · cases hblock.symm.trans herror
    · rintro ⟨hfollows, hat⟩
      obtain ⟨found, hfound, -, hat'⟩ | ⟨i, t, ht, -, hnot, -⟩ := hcases
      · cases hat.symm.trans hat'
        exact hfound
      · have hname := clickPath_getElem?_iff.2 ⟨t, ht, rfl⟩
        exact absurd (hfollows i (lt_of_clickPath hname) _ hname) hnot
  · intro block hblock
    rw [stepAt?_eq h, readStep, hblock]
    rfl
  · intro i name hname hfollows hnot
    obtain ⟨-, -, hall, -⟩ | ⟨j, t, ht, hfollows', hnot', herror⟩ := hcases
    · exact absurd (hall i (lt_of_clickPath hname) name hname) hnot
    · have hother := clickPath_getElem?_iff.2 ⟨t, ht, rfl⟩
      obtain rfl := level_unique hname hother hfollows hfollows' hnot hnot'
      obtain rfl := Option.some.inj (hname.symm.trans hother)
      refine ⟨_, by rw [stepAt?_eq h, readStep, herror]; rfl, rfl, rfl, rfl, ?_⟩
      intro hlength
      rw [Element.ancestorAt?, if_neg (by omega)]
      rfl

theorem isCheckpoint_iff {e : Element} :
    isCheckpoint e = true ↔ e.name = "cTn" ∧ e.attr? "nodeType" = some "clickEffect" := by
  simp [isCheckpoint]

/-- The walk over a timing tree takes one step from each click checkpoint in document order, up to
the first that fails. The block of a step is found exactly if the five nearest ancestors of the
checkpoint are as expected; otherwise the lowest level that differs is reported. Steps that can be
counted are as many as the checkpoints. -/
theorem checkpoints_validated (root : Element) :
    (clickAddresses root).Pairwise Address.Before ∧
    (∀ a, a ∈ clickAddresses root ↔
      ∃ c, root.nodeAt? a = some c ∧ c.name = "cTn" ∧ c.attr? "nodeType" = some "clickEffect") ∧
    (∃ results : List (Except Violation Step),
      results.map some = (clickAddresses root).map (stepAt? root) ∧
      (recover (some root)).Takes results) ∧
    (∀ a ∈ clickAddresses root, ∃ c, root.nodeAt? a = some c ∧ Checked root a c) ∧
    ∀ n, (recover (some root)).count = .ok n → n = (clickAddresses root).length := by
  refine ⟨pairwise_clickAddresses root, ?_, ⟨_, map_stepAt? root, recover_takes root⟩, ?_,
    fun n => length_of_count⟩
  · intro a
    simp only [mem_clickAddresses_iff, isCheckpoint_iff]
  · intro a ha
    obtain ⟨c, hc, -⟩ := mem_clickAddresses_iff.1 ha
    exact ⟨c, hc, checked hc⟩

example :
    recover (some ⟨some "tnLst", [],
      [⟨some "par", [], [⟨some "cTn", [("nodeType", "clickEffect")], []⟩]⟩]⟩) =
      { steps := [], fault := some
          (.ancestry "<cTn>" 2 "childTnLst" "group child list" "<tnLst>") } := by
  decide

end SlideFlow.Timeline
