/-
Freshness of identifiers: what a pool gives out was not taken before and is taken from then on, so
identifiers given out one after the other are pairwise different, and reserving one of them again
changes nothing. This holds for every source, however often it repeats itself.

Drawing more identifiers continues drawing fewer (`nexts_of_add`, `nexts_add`).
-/
import SlideFlow.Ident.Pool
import Mathlib.Data.List.Nodup

namespace SlideFlow.Ident.Pool

theorem reserve_of_mem {σ : Type} {p : Pool σ} {id : String} (h : id ∈ p.taken) :
    p.reserve id = p :=
  if_pos h

variable {σ : Type} [Source σ]

/-- What a search finds was drawn and is not taken. -/
theorem search_spec {taken : List String} {id : String} {s' : σ} :
    ∀ {fuel : Nat} {s : σ}, search taken fuel s = some (id, s') →
      id ∉ taken ∧ ∃ raw : RawId, id = raw.text
  | 0, _, h => by cases h
  | fuel + 1, s, h => by
    unfold search at h
    obtain ⟨⟨raw, t⟩, -, h⟩ := Option.bind_eq_some_iff.1 h
    simp only at h
    split at h
    · exact search_spec h
    · rename_i hraw
      cases h
      exact ⟨hraw, raw, rfl⟩

/-- What the next identifier of a pool is. -/
theorem next_spec {p p' : Pool σ} {id : String} (h : p.next = some (id, p')) :
    id ∉ p.taken ∧ p'.taken = id :: p.taken := by
  unfold next nextWithin at h
  obtain ⟨⟨found, source⟩, hs, h⟩ := Option.bind_eq_some_iff.1 h
  cases h
  exact ⟨(search_spec hs).1, rfl⟩

/-- Identifiers that are given out together: as many as asked for, pairwise different, none of them
taken before and all of them afterwards. -/
structure Fresh (p : Pool σ) (n : Nat) (ids : List String) (p' : Pool σ) : Prop where
  length : ids.length = n
  nodup : ids.Nodup
  new : ∀ id ∈ ids, id ∉ p.taken
  taken : ∀ id, id ∈ p'.taken ↔ id ∈ ids ∨ id ∈ p.taken

theorem nexts_fresh : ∀ {n : Nat} {p p' : Pool σ} {ids : List String},
    p.nexts n = some (ids, p') → Fresh p n ids p'
  | 0, p, p', ids, h => by
    cases h
    exact ⟨rfl, List.nodup_nil, by simp, by simp⟩
  | n + 1, p, p', ids, h => by
    unfold nexts at h
    obtain ⟨⟨id, p₁⟩, h₁, h⟩ := Option.bind_eq_some_iff.1 h
    obtain ⟨⟨rest, p₂⟩, h₂, h⟩ := Option.bind_eq_some_iff.1 h
    cases h
    obtain ⟨hnew, htaken⟩ := next_spec h₁
    have ih := nexts_fresh h₂
    -- the first identifier is taken when the rest is drawn
    have hrest : ∀ x ∈ rest, x ≠ id ∧ x ∉ p.taken := by
      intro x hx
      have := ih.new x hx
      rw [htaken, List.mem_cons, not_or] at this
      exact this
    refine ⟨by simp [ih.length], ?_, ?_, ?_⟩
    · exact List.nodup_cons.2 ⟨fun hmem => (hrest id hmem).1 rfl, ih.nodup⟩
    · intro x hx
      rcases List.mem_cons.1 hx with rfl | hx
      · exact hnew
      · exact (hrest x hx).2
    · intro x
      rw [ih.taken, htaken, List.mem_cons, List.mem_cons]
      tauto

/-- Drawing fewer identifiers gives the first ones. -/
theorem nexts_of_add {m : Nat} : ∀ {n : Nat} {p p' : Pool σ} {ids : List String},
    p.nexts (n + m) = some (ids, p') →
      ∃ first q rest, p.nexts n = some (first, q) ∧ q.nexts m = some (rest, p') ∧ ids = first ++ rest
  | 0, p, p', ids, h => by
    rw [Nat.zero_add] at h
    exact ⟨[], p, ids, rfl, h, rfl⟩
  | n + 1, p, p', ids, h => by
    rw [Nat.add_right_comm] at h
    unfold nexts at h
    obtain ⟨⟨id, p₁⟩, hnext, h⟩ := Option.bind_eq_some_iff.1 h
    obtain ⟨⟨tail, p₂⟩, htail, h⟩ := Option.bind_eq_some_iff.1 h
    cases h
    obtain ⟨first, q, rest, hfirst, hrest, rfl⟩ := nexts_of_add htail
    refine ⟨id :: first, q, rest, ?_, hrest, rfl⟩
    unfold nexts
    simp only [hnext, hfirst, Option.bind_eq_bind, Option.bind_some]

/-- Drawing goes on where it stopped. -/
theorem nexts_add {m : Nat} {r : Pool σ} {rest : List String} :
    ∀ {n : Nat} {p q : Pool σ} {first : List String}, p.nexts n = some (first, q) →
      q.nexts m = some (rest, r) → p.nexts (n + m) = some (first ++ rest, r)
  | 0, p, q, first, h, h' => by
    cases h
    rw [Nat.zero_add]
    exact h'
  | n + 1, p, q, first, h, h' => by
    unfold nexts at h
    obtain ⟨⟨id, p₁⟩, hnext, h⟩ := Option.bind_eq_some_iff.1 h
    obtain ⟨⟨tail, p₂⟩, htail, h⟩ := Option.bind_eq_some_iff.1 h
    cases h
    have hmore := nexts_add htail h'
    rw [Nat.add_right_comm]
    unfold nexts
    simp only [hnext, hmore, Option.bind_eq_bind, Option.bind_some]
    rfl

theorem nexts_one (p : Pool σ) : p.nexts 1 = p.next.map fun drawn => ([drawn.1], drawn.2) := by
  unfold nexts
  cases p.next <;> rfl

end SlideFlow.Ident.Pool
