/-
Pasting a plan into an arena. A plan is a list of nodes named by position; if every node stands at
the position that is its name and every wire ends at a position of the plan, then building it gives
its nodes under the drawn identifiers, position by position. No step of it can fail, except that
the pool may have no identifier left.
-/
import SlideFlow.Proofs.Compile.Positions
import SlideFlow.Proofs.Ident.Fresh

namespace SlideFlow.Flow

open SlideFlow.Ident

/-! ## Renaming -/

namespace Node

variable {ρ τ : Type}

@[simp] theorem map_id (f : ρ → τ) (n : Node ρ) : (n.map f).id = f n.id := rfl

@[simp] theorem map_wires (f : ρ → τ) (n : Node ρ) : (n.map f).wires = n.wires.map (List.map f) :=
  rfl

@[simp] theorem targets_map (f : ρ → τ) (n : Node ρ) : (n.map f).targets = n.targets.map f := by
  simp [targets, List.map_flatten]

end Node

/-! ## Steps on an arena -/

namespace Op

variable {σ α β : Type}

/-- The outcome of a step and the arena afterwards. -/
def exec (op : Op σ α) (a : Arena σ) : Except FlowError α × Arena σ := op.run.run a

@[simp] theorem exec_get (a : Arena σ) : exec (get : Op σ (Arena σ)) a = (.ok a, a) := rfl

/-- Steps one after the other: the second runs on the arena that the first leaves. -/
theorem exec_bind (x : Op σ α) (f : α → Op σ β) (a : Arena σ) :
    exec (x >>= f) a =
      match exec x a with
      | (.ok r, b) => exec (f r) b
      | (.error e, b) => (.error e, b) := by
  unfold exec
  rw [ExceptT.run_bind, StateT.run_bind]
  rcases h : x.run.run a with ⟨r, b⟩
  cases r with
  | ok r => rfl
  | error e => rfl

theorem exec_bind_ok {x : Op σ α} {a b : Arena σ} {r : α} (h : exec x a = (.ok r, b))
    (f : α → Op σ β) : exec (x >>= f) a = exec (f r) b := by
  rw [exec_bind, h]

theorem exec_bind_error {x : Op σ α} {a : Arena σ} {e : FlowError} (h : (exec x a).1 = .error e)
    (f : α → Op σ β) : (exec (x >>= f) a).1 = .error e := by
  rw [exec_bind]
  rcases hexec : exec x a with ⟨r, b⟩
  rw [hexec] at h
  cases h
  rfl

end Op

namespace Arena

variable {σ : Type}

/-- A node with a new identifier that the pool has given out is stored, and nothing else changes. -/
theorem add_exec {a : Arena σ} {n : Node String} (hopen : a.flushed = false) (hnew : n.id ∉ a.ids)
    (htaken : n.id ∈ a.pool.taken) :
    (add n).exec a = (.ok n, { a with nodes := a.nodes ++ [n] }) := by
  unfold add
  rw [Op.exec_bind_ok (Op.exec_get a)]
  simp only [hopen, hnew, Bool.false_eq_true, ↓reduceIte, Pool.reserve_of_mem htaken]
  rfl

/-- A plan whose nodes get new, different identifiers that the pool has given out is stored behind
the nodes that are there. -/
theorem pasteAs_exec (ids : List String) : ∀ (plan : List (Node Nat)) (a : Arena σ),
    a.flushed = false → (a.ids ++ plan.map fun n => ids.getD n.id "").Nodup →
    (∀ n ∈ plan, ids.getD n.id "" ∈ a.pool.taken) →
    (pasteAs ids plan).exec a =
      (.ok (), { a with nodes := a.nodes ++ plan.map (Node.map fun i => ids.getD i "") })
  | [], a, _, _, _ => by
    rw [List.map_nil, List.append_nil]
    rfl
  | n :: plan, a, hopen, hnodup, htaken => by
    -- all identifiers are different, so the arena does not have this one yet
    have hnew : ids.getD n.id "" ∉ a.ids := by
      intro hmem
      rw [List.map_cons] at hnodup
      exact (List.nodup_append.1 hnodup).2.2 _ hmem _ (List.mem_cons_self ..) rfl
    have hadd := add_exec (n := n.map fun i => ids.getD i "") hopen hnew
      (htaken n (List.mem_cons_self ..))
    have ih := pasteAs_exec ids plan
      { a with nodes := a.nodes ++ [n.map fun i => ids.getD i ""] } hopen
      (by simpa [Arena.ids] using hnodup)
      (fun m hm => htaken m (List.mem_cons_of_mem _ hm))
    show Op.exec ((do let _ ← add (n.map fun i => ids.getD i "")) >>= fun _ => pasteAs ids plan) a = _
    rw [bind_assoc, Op.exec_bind_ok hadd, pure_bind, ih, List.map_cons, List.append_assoc]
    rfl

theorem flush_exec {a : Arena σ} (h : a.dangling = []) :
    flush.exec a = (.ok a.nodes, { a with flushed := true }) := by
  unfold flush
  rw [Op.exec_bind_ok (Op.exec_get a), h]
  rfl

theorem draw_exec [Source σ] {a : Arena σ} {id : String} {p : Pool σ} (h : a.pool.next = some (id, p)) :
    draw.exec a = (.ok id, { a with pool := p }) := by
  unfold draw
  rw [Op.exec_bind_ok (Op.exec_get a), h]
  rfl

theorem draw_exec_none [Source σ] {a : Arena σ} (h : a.pool.next = none) :
    draw.exec a = (.error .exhausted, a) := by
  unfold draw
  rw [Op.exec_bind_ok (Op.exec_get a), h]
  rfl

theorem drawMany_exec [Source σ] {a : Arena σ} {n : Nat} {ids : List String} {p : Pool σ}
    (h : a.pool.nexts n = some (ids, p)) : (drawMany n).exec a = (.ok ids, { a with pool := p }) := by
  unfold drawMany
  rw [Op.exec_bind_ok (Op.exec_get a), h]
  rfl

theorem drawMany_exec_none [Source σ] {a : Arena σ} {n : Nat} (h : a.pool.nexts n = none) :
    (drawMany n).exec a = (.error .exhausted, a) := by
  unfold drawMany
  rw [Op.exec_bind_ok (Op.exec_get a), h]
  rfl

end Arena

/-! ## Building a plan -/

/-- A plan in which nodes stand where their names say and wires end at nodes of the plan. -/
structure Placed (plan : List (Node Nat)) : Prop where
  ids : plan.map (·.id) = List.range plan.length
  closed : ∀ n ∈ plan, ∀ t ∈ n.targets, t < plan.length

theorem map_getD_range (ids : List String) :
    (List.range ids.length).map (fun i => ids.getD i "") = ids := by
  apply List.ext_getElem
  · simp
  · intro i h₁ h₂
    simp [h₂]

namespace Placed

variable {plan : List (Node Nat)} {ids : List String}

/-- Identifiers are given to the nodes of a plan in order. -/
theorem map_ids (h : Placed plan) (hlen : ids.length = plan.length) :
    plan.map (fun n => ids.getD n.id "") = ids := by
  have : plan.map (fun n => ids.getD n.id "") = (plan.map (·.id)).map fun i => ids.getD i "" := by
    rw [List.map_map]; rfl
  rw [this, h.ids, ← hlen, map_getD_range]

/-- No wire of a placed plan dangles. -/
theorem dangling_eq_nil {σ : Type} (h : Placed plan) (hlen : ids.length = plan.length)
    {a : Arena σ} (ha : a.nodes = plan.map (Node.map fun i => ids.getD i "")) :
    a.dangling = [] := by
  have hids : a.ids = ids := by
    unfold Arena.ids
    rw [ha, List.map_map]
    exact h.map_ids hlen
  unfold Arena.dangling
  rw [List.filter_eq_nil_iff, hids, ha]
  intro t ht
  obtain ⟨n, hn, ht⟩ := List.mem_flatMap.1 ht
  obtain ⟨m, hm, rfl⟩ := List.mem_map.1 hn
  rw [Node.targets_map] at ht
  obtain ⟨i, hi, rfl⟩ := List.mem_map.1 ht
  have hlt : i < ids.length := by rw [hlen]; exact h.closed m hm i hi
  simp [hlt]

end Placed

end SlideFlow.Flow

namespace SlideFlow.Compile

open SlideFlow.Flow SlideFlow.Ident

variable {σ : Type} [Source σ]

/-- Puts a layout under identifiers of a pool and checks it. -/
def build (pool : Pool σ) (nodes : List (Node Nat)) :
    Except FlowError (List (Node String)) :=
  let op : Op σ (List (Node String)) := do
    let _ ← Arena.paste nodes
    Arena.flush
  (op.run.run (Arena.ofPool pool)).1

/-- Building a plan fails only for want of identifiers; otherwise it gives the nodes of the plan
under the identifiers that were drawn. -/
theorem build_eq (pool : Pool σ) {plan : List (Node Nat)} (h : Placed plan) :
    build pool plan =
      match pool.nexts plan.length with
      | none => .error .exhausted
      | some (ids, _) => .ok (plan.map (Node.map fun i => ids.getD i "")) := by
  show (Op.exec (Arena.paste plan >>= fun _ => Arena.flush) (Arena.ofPool pool)).1 = _
  unfold Arena.paste
  rw [bind_assoc]
  cases hd : pool.nexts plan.length with
  | none =>
    have hdraw : (Arena.drawMany plan.length).exec (Arena.ofPool pool) =
        (.error .exhausted, Arena.ofPool pool) := Arena.drawMany_exec_none hd
    rw [Op.exec_bind, hdraw]
  | some drawn =>
    obtain ⟨ids, p⟩ := drawn
    have hf := Pool.nexts_fresh hd
    -- position by position the nodes get the drawn identifiers, which are new and different
    have hmap := h.map_ids hf.length
    have hnodup : ((Arena.ofPool p).ids ++ plan.map fun n => ids.getD n.id "").Nodup := by
      rw [hmap]
      exact hf.nodup
    have htaken : ∀ n ∈ plan, ids.getD n.id "" ∈ p.taken := by
      intro n hn
      have hmem := List.mem_map_of_mem (f := fun n : Node Nat => ids.getD n.id "") hn
      rw [hmap] at hmem
      exact (hf.taken _).2 (Or.inl hmem)
    have hdraw : (Arena.drawMany plan.length).exec (Arena.ofPool pool) =
        (.ok ids, Arena.ofPool p) := Arena.drawMany_exec hd
    rw [Op.exec_bind_ok hdraw, bind_assoc,
      Op.exec_bind_ok (Arena.pasteAs_exec ids plan (Arena.ofPool p) rfl hnodup htaken), pure_bind,
      Arena.flush_exec (h.dangling_eq_nil hf.length rfl)]
    rfl

end SlideFlow.Compile
