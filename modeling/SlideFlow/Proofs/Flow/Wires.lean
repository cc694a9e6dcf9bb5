/-
The wires of a flow, one by one. A part of a flow that is reached by its entry only owns every kind
of wires that begins in it or ends in it elsewhere than at the entry (`Inside`): to find such wires
it is enough to look at the part.
-/
import SlideFlow.Flow.Node
import Mathlib.Data.List.Nodup
import Mathlib.Data.List.Pairwise

namespace SlideFlow.Flow

/-- A wire: the node and the port where it begins, and the node where it ends. -/
structure Wire (ρ : Type) where
  source : ρ
  port : Nat
  target : ρ
  deriving DecidableEq, Repr

variable {ρ α : Type}

/-- The wires of the ports of a node, which are numbered from a first port on. -/
def portWires (source : ρ) (first : Nat) (ports : List (List ρ)) : List (Wire ρ) :=
  (ports.zipIdx first).flatMap fun port => port.1.map fun target => ⟨source, port.2, target⟩

/-- The wires that leave a node, port after port. -/
def Node.outgoing (n : Node ρ) : List (Wire ρ) := portWires n.id 0 n.wires

/-- All wires of a flow. -/
def wires (nodes : List (Node ρ)) : List (Wire ρ) := nodes.flatMap Node.outgoing

theorem portWires_cons (source : ρ) (first : Nat) (port : List ρ) (ports : List (List ρ)) :
    portWires source first (port :: ports) =
      port.map (fun target => ⟨source, first, target⟩) ++ portWires source (first + 1) ports := rfl

theorem mem_portWires {source : ρ} {first : Nat} {ports : List (List ρ)} {w : Wire ρ}
    (h : w ∈ portWires source first ports) : w.source = source ∧ w.target ∈ ports.flatten := by
  obtain ⟨⟨port, k⟩, hport, hw⟩ := List.mem_flatMap.1 h
  obtain ⟨target, htarget, rfl⟩ := List.mem_map.1 hw
  exact ⟨rfl, List.mem_flatten.2 ⟨port, List.fst_mem_of_mem_zipIdx hport, htarget⟩⟩

theorem Node.mem_outgoing {n : Node ρ} {w : Wire ρ} (h : w ∈ n.outgoing) :
    w.source = n.id ∧ w.target ∈ n.targets :=
  mem_portWires h

theorem wires_cons (n : Node ρ) (nodes : List (Node ρ)) :
    wires (n :: nodes) = n.outgoing ++ wires nodes := rfl

theorem wires_append (nodes nodes' : List (Node ρ)) :
    wires (nodes ++ nodes') = wires nodes ++ wires nodes' :=
  List.flatMap_append

theorem wires_flatMap (xs : List α) (f : α → List (Node ρ)) :
    wires (xs.flatMap f) = xs.flatMap fun x => wires (f x) :=
  List.flatMap_assoc

/-! ## Wires of a part -/

/-- Wires of this kind begin in a part of a flow, or end in it elsewhere than at its entry. -/
def Inside (names : List ρ) (entry : ρ) (kind : Wire ρ → Bool) : Prop :=
  ∀ w, kind w → w.source ∈ names ∨ w.target ∈ names ∧ w.target ≠ entry

variable {names : List ρ} {entry : ρ} {kind : Wire ρ → Bool}

/-- What is inside a part is inside a larger part that has its entry elsewhere. -/
theorem Inside.mono {names' : List ρ} {entry' : ρ} (h : Inside names entry kind)
    (hsub : ∀ t ∈ names, t ∈ names') (hentry : entry' ∉ names) : Inside names' entry' kind := by
  intro w hw
  rcases h w hw with h | ⟨h, -⟩
  · exact Or.inl (hsub _ h)
  · exact Or.inr ⟨hsub _ h, fun he => hentry (he ▸ h)⟩

/-- Nodes outside of a part have none of its wires, if they are wired to its entry at most. -/
theorem Inside.filter_wires_eq_nil (h : Inside names entry kind) {nodes : List (Node ρ)}
    (hids : ∀ n ∈ nodes, n.id ∉ names)
    (htargets : ∀ n ∈ nodes, ∀ t ∈ n.targets, t ∈ names → t = entry) :
    (wires nodes).filter kind = [] := by
  rw [List.filter_eq_nil_iff]
  intro w hw hk
  obtain ⟨n, hn, hw⟩ := List.mem_flatMap.1 hw
  obtain ⟨hsource, htarget⟩ := Node.mem_outgoing hw
  rcases h w hk with hin | ⟨hin, hne⟩
  · exact hids n hn (hsource ▸ hin)
  · exact hne (htargets n hn _ htarget hin)

/-- Where names are given out once, one part is found by its names. -/
theorem flatMap_eq_at {β : Type} {name : α → List ρ} {f : α → List β} {x : α} :
    ∀ {xs : List α}, x ∈ xs → (xs.flatMap name).Nodup →
      (∀ y ∈ xs, List.Disjoint (name y) (name x) → f y = []) → xs.flatMap f = f x
  | y :: xs, hx, hnodup, hother => by
    rw [List.flatMap_cons, List.nodup_append'] at hnodup
    obtain ⟨-, hxs, hdisjoint⟩ := hnodup
    rw [List.flatMap_cons]
    rcases List.mem_cons.1 hx with rfl | hx
    · have hrest : xs.flatMap f = [] := by
        rw [List.flatMap_eq_nil_iff]
        intro z hz
        refine hother z (List.mem_cons_of_mem _ hz) fun t ht ht' => ?_
        exact hdisjoint ht' (List.mem_flatMap.2 ⟨z, hz, ht⟩)
      rw [hrest, List.append_nil]
    · have hhead : f y = [] := by
        refine hother y (List.mem_cons_self ..) fun t ht ht' => ?_
        exact hdisjoint ht (List.mem_flatMap.2 ⟨x, hx, ht'⟩)
      rw [hhead, List.nil_append]
      exact flatMap_eq_at hx hxs fun z hz => hother z (List.mem_cons_of_mem _ hz)

theorem eq_of_mem_names {name : α → List ρ} {xs : List α} {x y : α} {t : ρ}
    (hnodup : (xs.flatMap name).Nodup) (hx : x ∈ xs) (hy : y ∈ xs) (htx : t ∈ name x)
    (hty : t ∈ name y) : x = y := by
  by_contra hne
  have : Std.Symm (Function.onFun List.Disjoint name) := ⟨fun _ _ h => List.disjoint_symm h⟩
  exact (List.nodup_flatMap.1 hnodup).2.forall hx hy hne htx hty

/-- A row of parts has different names from those around it. -/
theorem border_not_mem {name : α → List ρ} {xs : List α} {x : α} {first last : ρ}
    (hnodup : (first :: xs.flatMap name ++ [last]).Nodup) (hx : x ∈ xs) :
    first ∉ name x ∧ last ∉ name x := by
  have hrow : ∀ t ∈ name x, t ∈ xs.flatMap name := fun t ht => List.mem_flatMap.2 ⟨x, hx, ht⟩
  rw [List.nodup_append'] at hnodup
  obtain ⟨hfirst, -, hlast⟩ := hnodup
  refine ⟨fun ht => (List.nodup_cons.1 hfirst).1 (hrow _ ht), fun ht => ?_⟩
  exact hlast (List.mem_cons_of_mem _ (hrow _ ht)) (List.mem_singleton_self _)

/-- In a row of parts between other nodes the wires of a part are found in the part. -/
theorem Inside.filter_wires_row (before : List (Node ρ)) (part : α → List (Node ρ))
    (after : List (Node ρ)) {name : α → List ρ} {xs : List α} {x : α}
    (h : Inside (name x) entry kind) (hx : x ∈ xs)
    (hnodup : (xs.flatMap name).Nodup) (hids : ∀ y ∈ xs, ∀ n ∈ part y, n.id ∈ name y)
    (htargets : ∀ y ∈ xs, ∀ n ∈ part y, ∀ t ∈ n.targets, t ∈ name y ∨ t ∉ name x)
    (hborder : ∀ n ∈ before ++ after, n.id ∉ name x ∧ ∀ t ∈ n.targets, t ∈ name x → t = entry) :
    (wires (before ++ xs.flatMap part ++ after)).filter kind = (wires (part x)).filter kind := by
  have hrow : (wires (xs.flatMap part)).filter kind = (wires (part x)).filter kind := by
    rw [wires_flatMap, List.filter_flatMap]
    refine flatMap_eq_at hx hnodup fun y hy hdisjoint => h.filter_wires_eq_nil ?_ ?_
    · exact fun n hn hin => hdisjoint (hids y hy n hn) hin
    · intro n hn t ht hin
      rcases htargets y hy n hn t ht with hy' | hout
      · exact absurd hin (hdisjoint hy')
      · exact absurd hin hout
  have hsides : ∀ side, (∀ n ∈ side, n ∈ before ++ after) → (wires side).filter kind = [] :=
    fun side hside => h.filter_wires_eq_nil (fun n hn => (hborder n (hside n hn)).1)
      fun n hn => (hborder n (hside n hn)).2
  rw [wires_append, wires_append, List.filter_append, List.filter_append, hrow,
    hsides before fun n => List.mem_append_left _, hsides after fun n => List.mem_append_right _,
    List.nil_append, List.append_nil]

end SlideFlow.Flow
