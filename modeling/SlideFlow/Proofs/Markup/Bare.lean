/-
Trees without comments and namespaces. The bare form of a tree has local names only, and none of its
comments. What is found in a tree by local name is found in its bare form, in the same order: names,
attributes, children, and the nodes that a visit meets, each below the bare forms of its ancestors.

Attributes need that no two of a node have the same local name, since one with exactly the name that
is asked for goes before all others. A comment holds nothing, so nothing is lost with it.
-/
import SlideFlow.Proofs.Markup.Address
import SlideFlow.Proofs.Timeline.Written
import SlideFlow.Proofs.Traverse

namespace SlideFlow.Markup

open SlideFlow.Timeline

theorem closingBrace_not_mem_localName (name : String) : '\x7d' ∉ (localName name).toList := by
  intro h
  rw [localName, String.toList_ofList, List.mem_reverse] at h
  simpa using List.mem_takeWhile_imp h

@[simp] theorem localName_localName (name : String) : localName (localName name) = localName name :=
  localName_eq_self (closingBrace_not_mem_localName name)

namespace Element

/-- A node without a name, which holds nothing. -/
def isComment (e : Element) : Bool := e.tag?.isNone && e.children.isEmpty

mutual

/-- A tree with local names only and without the comments in it. -/
def bare : Element → Element
  | ⟨tag?, attrs, children⟩ =>
    ⟨tag?.map localName, attrs.map fun a => (localName a.1, a.2), bareAll children⟩

/-- The bare forms of the trees that are no comments. -/
def bareAll : List Element → List Element
  | [] => []
  | e :: rest => if e.isComment then bareAll rest else bare e :: bareAll rest

end

/-- No two attributes of a node have the same local name. -/
abbrev Distinct (e : Element) : Prop := (e.attrs.map fun a => localName a.1).Nodup

/-- No two attributes of any node in a tree have the same local name. -/
def Neat (root : Element) : Prop := ∀ e ∈ root.nodes, e.Distinct

instance (root : Element) : Decidable root.Neat :=
  inferInstanceAs (Decidable (∀ e ∈ root.nodes, e.Distinct))

/-! ## Nodes of neat trees -/

theorem mem_nodes_iff {root e : Element} : e ∈ root.nodes ↔ ∃ a, root.nodeAt? a = some e := by
  have hvisits := forall₂_visits root
  rw [nodes, List.mem_map]
  constructor
  · rintro ⟨v, hv, rfl⟩
    obtain ⟨a, -, ha⟩ := exists_of_forall₂_of_mem hvisits hv
    exact ⟨a, ha.1⟩
  · rintro ⟨a, ha⟩
    have hmem : a ∈ root.addresses := mem_addresses_iff.2 (by rw [ha]; rfl)
    obtain ⟨v, hv, hnode, -⟩ := exists_of_forall₂_of_mem hvisits.flip hmem
    exact ⟨v, hv, Option.some.inj (hnode.symm.trans ha)⟩

theorem Neat.distinct {root : Element} (h : root.Neat) : root.Distinct :=
  h root (mem_nodes_iff.2 ⟨[], rfl⟩)

theorem Neat.of_nodeAt? {root e : Element} (h : root.Neat) {a : Address}
    (ha : root.nodeAt? a = some e) : e.Neat := by
  intro x hx
  obtain ⟨b, hb⟩ := mem_nodes_iff.1 hx
  refine h x (mem_nodes_iff.2 ⟨b ++ a, ?_⟩)
  rw [nodeAt?_append, ha]
  exact hb

theorem Neat.of_mem_children {root e : Element} (h : root.Neat) (he : e ∈ root.children) :
    e.Neat := by
  obtain ⟨i, hi⟩ := List.mem_iff_getElem?.1 he
  exact h.of_nodeAt? (show root.nodeAt? [i] = some e from hi)

theorem exists_nodeAt?_of_mem_ancestors {root e : Element} {a : Address}
    (h : e ∈ root.ancestors a) : ∃ b, root.nodeAt? b = some e := by
  induction a with
  | nil => cases h
  | cons i up ih =>
    rw [ancestors, List.mem_append, Option.mem_toList] at h
    obtain h | h := h
    · exact ⟨up, h⟩
    · exact ih h

/-! ## Names and attributes -/

@[simp] theorem name_bare (e : Element) : e.bare.name = e.name := by
  obtain ⟨tag?, attrs, children⟩ := e
  cases tag? with
  | none => simp [bare, name]
  | some tag => simp [bare, name]

theorem attrs_bare (e : Element) : e.bare.attrs = e.attrs.map fun a => (localName a.1, a.2) := by
  cases e
  rw [bare]

theorem not_isComment_of_name_ne {e : Element} (h : e.name ≠ "") : e.isComment = false := by
  obtain ⟨_ | tag, attrs, children⟩ := e
  · exact absurd rfl h
  · rfl

/-- The value of the first attribute with a local name. -/
theorem get?_map_localName (key : String) (attrs : List (String × String)) :
    Ordered.get? key (attrs.map fun a => (localName a.1, a.2)) =
      (attrs.find? fun a => localName a.1 = key).map (·.2) := by
  induction attrs with
  | nil => rfl
  | cons a attrs ih =>
    by_cases h : localName a.1 = key <;> simp [Ordered.get?, h, ih]

/-- The attribute with exactly a name is the first one with that local name, if there is only one. -/
theorem find?_of_get? {key v : String} {attrs : List (String × String)}
    (hnodup : (attrs.map fun a => localName a.1).Nodup) (hkey : localName key = key)
    (h : Ordered.get? key attrs = some v) :
    (attrs.find? fun a => localName a.1 = key).map (·.2) = some v := by
  induction attrs with
  | nil => cases h
  | cons a attrs ih =>
    obtain ⟨k, w⟩ := a
    rw [List.map_cons, List.nodup_cons] at hnodup
    by_cases hk : k = key
    · subst hk
      rw [Ordered.get?, if_pos rfl] at h
      simpa [hkey] using h
    · rw [Ordered.get?, if_neg hk] at h
      have hmem : key ∈ attrs.map fun a => localName a.1 := by
        obtain ⟨a, ha, rfl⟩ := List.mem_map.1 (Ordered.mem_keys_iff.2 (by rw [h]; rfl))
        exact List.mem_map.2 ⟨a, ha, hkey⟩
      have hne : localName k ≠ key := by
        rintro rfl
        exact hnodup.1 hmem
      simpa [hne] using ih hnodup.2 h

theorem attr?_bare {e : Element} (h : e.Distinct) {key : String} (hkey : '\x7d' ∉ key.toList) :
    e.bare.attr? key = e.attr? key := by
  have hbare : e.bare.attr? key = (e.attrs.find? fun a => localName a.1 = key).map (·.2) := by
    rw [attr?, exactAttr?, attrs_bare, get?_map_localName]
    cases hfind : (e.attrs.find? fun a => localName a.1 = key) with
    | some a => rfl
    | none =>
      simp only [Option.map_none, List.find?_map, Option.map_eq_none_iff]
      rw [List.find?_eq_none] at hfind ⊢
      simpa using hfind
  rw [hbare, attr?, exactAttr?]
  cases hget : Ordered.get? key e.attrs with
  | some v => exact find?_of_get? h (localName_eq_self hkey) hget
  | none => rfl

theorem describe_bare {e : Element} (h : e.Distinct) : e.bare.describe = e.describe := by
  rw [describe, describe, name_bare, attr?_bare h (by decide)]

/-! ## Children -/

theorem bareAll_eq (es : List Element) : bareAll es = (es.filter (!·.isComment)).map bare := by
  induction es with
  | nil => simp [bareAll]
  | cons e es ih => cases h : e.isComment <;> simp [bareAll, h, ih]

theorem children_bare (e : Element) :
    e.bare.children = (e.children.filter (!·.isComment)).map bare := by
  cases e
  rw [bare, bareAll_eq]

/-- Children that are chosen by their names, and no comments among them, stay in order. -/
theorem filter_bare {p : String → Bool} (hp : p "" = false) (e : Element) :
    e.bare.children.filter (fun c => p c.name) =
      (e.children.filter fun c => p c.name).map bare := by
  rw [children_bare, List.filter_map, List.filter_filter]
  congr 1
  refine List.filter_congr fun c _ => ?_
  simp only [Function.comp_apply, name_bare]
  cases hc : p c.name with
  | false => rfl
  | true =>
    have hname : c.name ≠ "" := by
      intro hname
      rw [hname, hp] at hc
      cases hc
    rw [not_isComment_of_name_ne hname]
    rfl

theorem find?_bare {p : String → Bool} (hp : p "" = false) (e : Element) :
    e.bare.children.find? (fun c => p c.name) =
      (e.children.find? fun c => p c.name).map bare := by
  rw [← List.head?_filter, filter_bare hp, List.head?_map, List.head?_filter]

theorem childrenNamed_bare {key : String} (h : key ≠ "") (e : Element) :
    e.bare.childrenNamed key = (e.childrenNamed key).map bare :=
  filter_bare (p := (· = key)) (by simpa using h.symm) e

theorem childNamed?_bare {key : String} (h : key ≠ "") (e : Element) :
    e.bare.childNamed? key = (e.childNamed? key).map bare :=
  find?_bare (p := (· = key)) (by simpa using h.symm) e

theorem firstElement?_bare (e : Element) :
    e.bare.firstElement? = e.firstElement?.map bare :=
  find?_bare (p := (· ≠ "")) (by simp) e

/-! ## Visits -/

/-- A visit with the bare forms of the node and its ancestors. -/
def bareVisit (v : Element × List Element) : Element × List Element := (v.1.bare, v.2.map bare)

theorem visits_of_isComment {e : Element} (h : e.isComment = true) (above : List Element) :
    visits above e = [(e, above)] := by
  obtain ⟨tag?, attrs, children⟩ := e
  obtain ⟨-, hchildren⟩ := Bool.and_eq_true_iff.1 h
  obtain rfl : children = [] := List.isEmpty_iff.1 hchildren
  rw [visits, visitsAll]

theorem visitsAll_bareAll {es : List Element} (above : List Element)
    (h : ∀ e ∈ es, ∀ above : List Element, e.isComment = false →
      visits (above.map bare) e.bare = ((visits above e).filter (!·.1.isComment)).map bareVisit) :
    visitsAll (above.map bare) (bareAll es) =
      ((visitsAll above es).filter (!·.1.isComment)).map bareVisit := by
  induction es with
  | nil => simp [bareAll, visitsAll]
  | cons e es ih =>
    rw [List.forall_mem_cons] at h
    rw [bareAll, visitsAll, List.filter_append, List.map_append, ← ih h.2]
    cases he : e.isComment with
    | false => rw [if_neg Bool.false_ne_true, visitsAll, h.1 above he]
    | true => simp [visits_of_isComment he, he]

/-- The visits of the bare form are those of the tree, without comments. -/
theorem visits_bare {e : Element} (above : List Element) (h : e.isComment = false) :
    visits (above.map bare) e.bare = ((visits above e).filter (!·.1.isComment)).map bareVisit := by
  induction e using Element.induction generalizing above with
  | node tag? attrs children ih =>
    rw [visits, List.filter_cons, if_pos (by rw [h]; rfl), List.map_cons,
      ← visitsAll_bareAll _ fun c hc above => ih c hc above]
    rw [bare, visits, bareVisit, List.map_cons, bare]

end Element

end SlideFlow.Markup
