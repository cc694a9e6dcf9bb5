/-
Nodes by where they stand. An address counts the way up: the number of a node among the children of
its parent, then the number of the parent, up to the root. So the parent of a node is at the tail of
its address, and two subtrees that look the same are told apart.

A visit of a tree in document order meets each address once, in order (`mem_addresses_iff`,
`pairwise_addresses`), and hands on the ancestors of each node, which are the nodes at the tails of
its address (`forall₂_visits`, `getElem?_ancestors`).
-/
import Mathlib.Data.List.Forall2
import Mathlib.Data.List.Lex
import SlideFlow.Markup.Element

namespace SlideFlow.Markup

/-- The number of a node among its siblings, then that of its parent, and so on. The root has no
number. -/
abbrev Address := List Nat

/-- Document order: seen from the root, the first number that differs decides, and a node comes
before all that stand below it. -/
def Address.Before (a b : Address) : Prop := List.Lex (· < ·) a.reverse b.reverse

namespace Element

/-- The node at an address. -/
def nodeAt? (root : Element) : Address → Option Element
  | [] => some root
  | i :: up => (root.nodeAt? up).bind (·.children[i]?)

/-- The ancestor some levels above an address. Above the root there is none. -/
def ancestorAt? (root : Element) (a : Address) (level : Nat) : Option Element :=
  if level ≤ a.length then root.nodeAt? (a.drop level) else none

/-- The ancestors of the node at an address, nearest first. -/
def ancestors (root : Element) : Address → List Element
  | [] => []
  | _ :: up => (root.nodeAt? up).toList ++ root.ancestors up

mutual

/-- The addresses in a tree that stands at an address itself, in document order. -/
def addressesFrom (a : Address) : Element → List Address
  | ⟨_, _, children⟩ => a :: addressesAll a 0 children

/-- The addresses in several trees below an address, counted from a first number on. -/
def addressesAll (up : Address) : Nat → List Element → List Address
  | _, [] => []
  | i, e :: rest => addressesFrom (i :: up) e ++ addressesAll up (i + 1) rest

end

/-- The addresses in a tree in document order. -/
def addresses (root : Element) : List Address := addressesFrom [] root

/-- What holds of a node if it holds of its children holds of every tree. -/
@[elab_as_elim]
theorem induction {motive : Element → Prop}
    (node : ∀ tag? attrs children, (∀ c ∈ children, motive c) → motive ⟨tag?, attrs, children⟩)
    (e : Element) : motive e :=
  @Element.rec motive (fun es => ∀ c ∈ es, motive c) node nofun
    (fun _ _ hhead htail => List.forall_mem_cons.2 ⟨hhead, htail⟩) e

/-! ## Nodes at addresses -/

theorem nodeAt?_append (root : Element) (b a : Address) :
    root.nodeAt? (b ++ a) = (root.nodeAt? a).bind (·.nodeAt? b) := by
  induction b with
  | nil => simp [nodeAt?]
  | cons i b ih => simp [nodeAt?, ih, Option.bind_assoc]

theorem nodeAt?_concat (root : Element) (b : Address) (i : Nat) :
    root.nodeAt? (b ++ [i]) = (root.children[i]?).bind (·.nodeAt? b) := by
  rw [nodeAt?_append]
  simp [nodeAt?]

/-- A node that is there has its parent above it. -/
theorem exists_parent {root e : Element} {i : Nat} {up : Address}
    (h : root.nodeAt? (i :: up) = some e) :
    ∃ parent, root.nodeAt? up = some parent ∧ parent.children[i]? = some e :=
  Option.bind_eq_some_iff.1 h

theorem ancestorAt?_eq_some_iff {root e : Element} {a : Address} {level : Nat} :
    root.ancestorAt? a level = some e ↔
      level ≤ a.length ∧ root.nodeAt? (a.drop level) = some e := by
  rw [ancestorAt?, Option.ite_none_right_eq_some]

/-- The ancestors of a node stand at the tails of its address. -/
theorem getElem?_ancestors {root e : Element} {a : Address} (h : root.nodeAt? a = some e)
    (level : Nat) : (root.ancestors a)[level]? = root.ancestorAt? a (level + 1) := by
  induction a generalizing e level with
  | nil => simp [ancestors, ancestorAt?]
  | cons i up ih =>
    obtain ⟨parent, hparent, -⟩ := exists_parent h
    rw [ancestors, hparent, Option.toList_some, List.singleton_append]
    cases level with
    | zero => simp [ancestorAt?, hparent]
    | succ level =>
      rw [List.getElem?_cons_succ, ih hparent]
      simp [ancestorAt?]

/-! ## Addresses in document order -/

theorem mem_addressesAll_iff {up a : Address} {i : Nat} {es : List Element} :
    a ∈ addressesAll up i es ↔
      ∃ k e, es[k]? = some e ∧ a ∈ addressesFrom ((i + k) :: up) e := by
  induction es generalizing i with
  | nil => simp [addressesAll]
  | cons e rest ih =>
    rw [addressesAll, List.mem_append, ih]
    constructor
    · rintro (ha | ⟨k, c, hk, ha⟩)
      · exact ⟨0, e, rfl, ha⟩
      · exact ⟨k + 1, c, hk, by rwa [show i + (k + 1) = i + 1 + k by omega]⟩
    · rintro ⟨k, c, hk, ha⟩
      cases k with
      | zero =>
        cases hk
        exact .inl ha
      | succ k => exact .inr ⟨k, c, hk, by rwa [show i + 1 + k = i + (k + 1) by omega]⟩

theorem mem_addressesFrom_iff {e : Element} {up a : Address} :
    a ∈ addressesFrom up e ↔ ∃ b, a = b ++ up ∧ (e.nodeAt? b).isSome := by
  induction e using Element.induction generalizing up a with
  | node tag? attrs children ih =>
    rw [addressesFrom, List.mem_cons, mem_addressesAll_iff]
    simp only [Nat.zero_add]
    constructor
    · rintro (rfl | ⟨k, c, hk, ha⟩)
      · exact ⟨[], rfl, rfl⟩
      · obtain ⟨b, rfl, hb⟩ := (ih c (List.mem_of_getElem? hk)).1 ha
        refine ⟨b ++ [k], by simp, ?_⟩
        rw [nodeAt?_concat, show (Element.mk tag? attrs children).children[k]? = some c from hk]
        exact hb
    · rintro ⟨b, rfl, hb⟩
      -- the last number of the address tells which child the way leads through
      obtain rfl | ⟨b, k, rfl⟩ := List.eq_nil_or_concat b
      · exact .inl rfl
      · rw [List.concat_eq_append, nodeAt?_concat] at hb
        cases hk : children[k]? with
        | none =>
          rw [show (Element.mk tag? attrs children).children[k]? = none from hk] at hb
          cases hb
        | some c =>
          rw [show (Element.mk tag? attrs children).children[k]? = some c from hk] at hb
          exact .inr ⟨k, c, hk, (ih c (List.mem_of_getElem? hk)).2 ⟨b, by simp, hb⟩⟩

/-- Every node is visited. -/
theorem mem_addresses_iff {root : Element} {a : Address} :
    a ∈ root.addresses ↔ (root.nodeAt? a).isSome := by
  rw [addresses, mem_addressesFrom_iff]
  simp

theorem before_below (up b : Address) (i : Nat) : Address.Before up (b ++ i :: up) := by
  have h := List.Lex.append_left (· < ·) (List.Lex.nil : List.Lex (· < ·) [] (i :: b.reverse))
    up.reverse
  simpa [Address.Before] using h

theorem before_of_lt {i j : Nat} (h : i < j) (up b c : Address) :
    Address.Before (b ++ i :: up) (c ++ j :: up) := by
  have h := List.Lex.append_left (· < ·)
    (List.Lex.rel h : List.Lex (· < ·) (i :: b.reverse) (j :: c.reverse)) up.reverse
  simpa [Address.Before] using h

theorem pairwise_addressesAll {up : Address} {es : List Element}
    (h : ∀ e ∈ es, ∀ a, (addressesFrom a e).Pairwise Address.Before) (i : Nat) :
    (addressesAll up i es).Pairwise Address.Before := by
  induction es generalizing i with
  | nil => simp [addressesAll]
  | cons e rest ih =>
    rw [List.forall_mem_cons] at h
    rw [addressesAll, List.pairwise_append]
    refine ⟨h.1 _, ih h.2 (i + 1), ?_⟩
    intro a ha b hb
    obtain ⟨k, c, -, hb⟩ := mem_addressesAll_iff.1 hb
    obtain ⟨a, rfl, -⟩ := mem_addressesFrom_iff.1 ha
    obtain ⟨b, rfl, -⟩ := mem_addressesFrom_iff.1 hb
    exact before_of_lt (by omega) up a b

theorem pairwise_addressesFrom (e : Element) (up : Address) :
    (addressesFrom up e).Pairwise Address.Before := by
  induction e using Element.induction generalizing up with
  | node tag? attrs children ih =>
    rw [addressesFrom, List.pairwise_cons]
    refine ⟨?_, pairwise_addressesAll (fun c hc a => ih c hc a) 0⟩
    intro a ha
    obtain ⟨k, c, -, ha⟩ := mem_addressesAll_iff.1 ha
    obtain ⟨b, rfl, -⟩ := mem_addressesFrom_iff.1 ha
    exact before_below up b _

/-- Nodes are visited in document order, each once. -/
theorem pairwise_addresses (root : Element) : root.addresses.Pairwise Address.Before :=
  pairwise_addressesFrom root []

/-! ## Visits -/

/-- A visit of the node at an address. -/
def VisitAt (root : Element) (a : Address) (visit : Element × List Element) : Prop :=
  root.nodeAt? a = some visit.1 ∧ root.ancestors a = visit.2

theorem forall₂_visitsAll {root parent : Element} {up : Address}
    (hup : root.nodeAt? up = some parent) {es : List Element}
    (h : ∀ e ∈ es, ∀ a, root.nodeAt? a = some e →
      List.Forall₂ (VisitAt root) (addressesFrom a e) (visits (root.ancestors a) e))
    (i : Nat) (hes : ∀ k, root.nodeAt? ((i + k) :: up) = es[k]?) :
    List.Forall₂ (VisitAt root) (addressesAll up i es)
      (visitsAll (parent :: root.ancestors up) es) := by
  induction es generalizing i with
  | nil => simp [addressesAll, visitsAll]
  | cons e rest ih =>
    rw [List.forall_mem_cons] at h
    rw [addressesAll, visitsAll]
    refine List.rel_append ?_ (ih h.2 (i + 1) fun k => ?_)
    · have hfirst := h.1 (i :: up) (hes 0)
      rwa [ancestors, hup] at hfirst
    · rw [show i + 1 + k = i + (k + 1) by omega, hes]
      rfl

/-- A tree is visited address by address, each node with its ancestors. -/
theorem forall₂_visitsFrom {root e : Element} {a : Address} (h : root.nodeAt? a = some e) :
    List.Forall₂ (VisitAt root) (addressesFrom a e) (visits (root.ancestors a) e) := by
  induction e using Element.induction generalizing a with
  | node tag? attrs children ih =>
    rw [addressesFrom, visits]
    refine .cons ⟨h, rfl⟩ (forall₂_visitsAll h (fun c hc b hb => ih c hc hb) 0 fun k => ?_)
    rw [nodeAt?, h, Nat.zero_add]
    rfl

theorem forall₂_visits (root : Element) :
    List.Forall₂ (VisitAt root) root.addresses (root.visits []) :=
  forall₂_visitsFrom (rfl : root.nodeAt? [] = some root)

end Element

end SlideFlow.Markup
