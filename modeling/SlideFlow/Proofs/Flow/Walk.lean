/-
Walks along the wires of flows and fragments. A message that stands at a node can come to another one
if wires lead there (`Reaches`), and it can come back if it walks on a cycle. A rank that never grows
along wires is the same everywhere on a cycle (`IsCycle.rank_eq`), so wires along which it falls are
on no cycle.
-/
import SlideFlow.Fragment.Basic
import SlideFlow.Proofs.Flow.Wires
import Mathlib.Data.List.Chain
import Mathlib.Logic.Relation

namespace SlideFlow.Fragment

/-- A wire of a fragment leads from a node to another one. -/
def Leads (f : Fragment) (s t : Text.RawText) : Prop := ∃ p ∈ f.parts, p.id = s ∧ t ∈ p.wires.flatten

end SlideFlow.Fragment

namespace SlideFlow.Flow

variable {ρ : Type} {nodes : List (Node ρ)}

/-- A wire leads from a node to another one. -/
def Leads (nodes : List (Node ρ)) (x y : ρ) : Prop := ∃ n ∈ nodes, n.id = x ∧ y ∈ n.targets

/-- Wires lead from a node to another one, over any number of nodes between them. -/
def Reaches (nodes : List (Node ρ)) : ρ → ρ → Prop := Relation.ReflTransGen (Leads nodes)

theorem leads_of_mem {n : Node ρ} {y : ρ} (hn : n ∈ nodes) (hy : y ∈ n.targets) :
    Leads nodes n.id y :=
  ⟨n, hn, rfl, hy⟩

/-- What leads to a target of a port is a wire. -/
theorem mem_portWires_of_mem {source target : ρ} : ∀ {ports : List (List ρ)} (first : Nat),
    target ∈ ports.flatten → ∃ port, ⟨source, port, target⟩ ∈ portWires source first ports
  | [], _, h => by cases h
  | port :: ports, first, h => by
    rw [List.flatten_cons, List.mem_append] at h
    rw [portWires_cons]
    rcases h with h | h
    · exact ⟨first, List.mem_append_left _ (List.mem_map_of_mem h)⟩
    · obtain ⟨k, hk⟩ := mem_portWires_of_mem (first + 1) h
      exact ⟨k, List.mem_append_right _ hk⟩

theorem Leads.exists_wire {x y : ρ} (h : Leads nodes x y) :
    ∃ port, ⟨x, port, y⟩ ∈ wires nodes := by
  obtain ⟨n, hn, rfl, hy⟩ := h
  obtain ⟨port, hport⟩ : ∃ port, ⟨n.id, port, y⟩ ∈ n.outgoing := mem_portWires_of_mem 0 hy
  exact ⟨port, List.mem_flatMap.2 ⟨n, hn, hport⟩⟩

/-! ## Cycles -/

section Cycle

variable {leads : ρ → ρ → Prop} {first x : ρ} {rest : List ρ}

/-- A closed walk: each node leads to the next one, and the last one back to the first. -/
def IsCycle (leads : ρ → ρ → Prop) (first : ρ) (rest : List ρ) : Prop :=
  (first :: rest ++ [first]).IsChain leads

/-- The first node of a walk reaches the others. -/
theorem reflTransGen_of_walk : ∀ {first : ρ} {rest : List ρ}, (first :: rest).IsChain leads →
    x ∈ first :: rest → Relation.ReflTransGen leads first x
  | first, [], _, hx => by
    obtain rfl := List.mem_singleton.1 hx
    exact .refl
  | first, next :: rest, hwalk, hx => by
    rw [List.isChain_cons_cons] at hwalk
    rcases List.mem_cons.1 hx with rfl | hx
    · exact .refl
    · exact .head hwalk.1 (reflTransGen_of_walk hwalk.2 hx)

/-- A node of a cycle leads on to a node from which the cycle comes back to it. -/
theorem IsCycle.exists_leads (h : IsCycle leads first rest) (hx : x ∈ first :: rest) :
    ∃ y, leads x y ∧ Relation.ReflTransGen leads y first ∧ Relation.ReflTransGen leads first x := by
  have hfirst := reflTransGen_of_walk h (List.mem_append_left _ hx)
  -- behind a node of the cycle there is always another one, the first at the latest
  obtain ⟨before, after, hsplit⟩ := List.mem_iff_append.1 hx
  unfold IsCycle at h
  rw [hsplit, List.append_assoc, List.cons_append, List.isChain_split] at h
  obtain ⟨y, behind, hbehind⟩ := List.exists_cons_of_ne_nil (List.concat_ne_nil first after)
  rw [hbehind, List.isChain_cons_cons] at h
  refine ⟨y, h.2.1, reflTransGen_of_walk h.2.2 ?_, hfirst⟩
  rw [← hbehind]
  exact List.mem_append_right _ (List.mem_singleton_self _)

variable {rank : ρ → Nat}

theorem rank_le_of_reflTransGen (hrank : ∀ x y, leads x y → rank y ≤ rank x) {x y : ρ}
    (h : Relation.ReflTransGen leads x y) : rank y ≤ rank x := by
  induction h with
  | refl => exact Nat.le_refl _
  | tail _ hlast ih => exact (hrank _ _ hlast).trans ih

/-- On a cycle a rank that never grows stays the same, also over the wires that leave its nodes. -/
theorem IsCycle.rank_eq (hrank : ∀ x y, leads x y → rank y ≤ rank x) (h : IsCycle leads first rest)
    (hx : x ∈ first :: rest) : rank x = rank first ∧ ∃ y, leads x y ∧ rank y = rank x := by
  obtain ⟨y, hxy, hback, hforth⟩ := h.exists_leads hx
  have h₁ := hrank x y hxy
  have h₂ := rank_le_of_reflTransGen hrank hback
  have h₃ := rank_le_of_reflTransGen hrank hforth
  exact ⟨by omega, y, hxy, by omega⟩

end Cycle

end SlideFlow.Flow
