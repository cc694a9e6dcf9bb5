/-
Whole runs on an arena. Whatever is done with an arena, step after step and with steps that fail
among them, it stays sound: every node is stored once, under an identifier that the pool will not
give out again (`Sound.after`). So new identifiers are new to the arena as well.
-/
import SlideFlow.Proofs.Flow.Paste

namespace SlideFlow.Flow

open SlideFlow.Ident

/-! ## Properties that steps keep -/

namespace Op

variable {σ α β : Type} {P : Arena σ → Prop}

/-- A step leaves an arena with a property if it finds one, also when it fails. -/
def Keeps (P : Arena σ → Prop) (op : Op σ α) : Prop := ∀ a, P a → P (op.exec a).2

theorem keeps_pure (r : α) : Keeps P (pure r : Op σ α) := fun _ h => h

theorem keeps_throw (e : FlowError) : Keeps P (throw e : Op σ α) := fun _ h => h

theorem Keeps.bind {x : Op σ α} {f : α → Op σ β} (hx : Keeps P x) (hf : ∀ r, Keeps P (f r)) :
    Keeps P (x >>= f) := by
  intro a ha
  have hb := hx a ha
  rw [exec_bind]
  cases h : x.exec a with
  | mk r b =>
    rw [h] at hb
    cases r with
    | error e => exact hb
    | ok r => exact hf r b hb

theorem keeps_forM {γ : Type} {f : γ → Op σ Unit} (hf : ∀ x, Keeps P (f x)) :
    ∀ xs : List γ, Keeps P (xs.forM f)
  | [] => keeps_pure ()
  | x :: xs => (hf x).bind fun _ => keeps_forM hf xs

end Op

/-! ## Sound arenas -/

namespace Arena

variable {σ : Type}

/-- Every node is stored once, and its identifier is taken. -/
structure Sound (a : Arena σ) : Prop where
  nodup : a.ids.Nodup
  taken : ∀ id ∈ a.ids, id ∈ a.pool.taken

theorem sound_ofPool (pool : Pool σ) : (ofPool pool).Sound :=
  ⟨List.nodup_nil, fun _ h => absurd h List.not_mem_nil⟩

/-- Nothing but the identifiers of the nodes matters, and that no identifier is given back. -/
theorem Sound.of_ids {a b : Arena σ} (h : a.Sound) (hids : b.ids = a.ids)
    (htaken : ∀ id ∈ a.pool.taken, id ∈ b.pool.taken) : b.Sound := by
  refine ⟨hids ▸ h.nodup, fun id hid => ?_⟩
  rw [hids] at hid
  exact htaken id (h.taken id hid)

theorem Sound.find?_eq {a : Arena σ} (h : a.Sound) {n : Node String} (hn : n ∈ a.nodes) :
    a.find? n.id = some n := by
  cases hfind : a.find? n.id with
  | none => exact absurd (List.find?_eq_none.1 hfind n hn) (by simp)
  | some m =>
    have hid : m.id = n.id := by simpa using List.find?_some hfind
    rw [List.inj_on_of_nodup_map h.nodup (List.mem_of_find?_eq_some hfind) hn hid]

theorem ids_update {a : Arena σ} {id : String} {f : Node String → Node String}
    (hf : ∀ n, n.id = id → (f n).id = id) : (a.update id f).ids = a.ids := by
  simp only [ids, update, List.map_map]
  apply List.map_congr_left
  intro n _
  show (if n.id = id then f n else n).id = n.id
  split
  · rename_i hn
    rw [hf n hn, hn]
  · rfl

theorem mem_reserve {p : Pool σ} {id other : String} :
    other ∈ (p.reserve id).taken ↔ other = id ∨ other ∈ p.taken := by
  unfold Pool.reserve
  split
  · rename_i hid
    constructor
    · exact Or.inr
    · rintro (rfl | h)
      · exact hid
      · exact h
  · exact List.mem_cons

/-- What storing a node comes to: a closed arena and one that has the identifier stay as they are. -/
theorem add_cases (n : Node String) (a : Arena σ) :
    (add n).exec a = (.error .flushed, a) ∨ (add n).exec a = (.error (.duplicate n.id), a) ∨
      n.id ∉ a.ids ∧ (add n).exec a =
        (.ok n, { a with pool := a.pool.reserve n.id, nodes := a.nodes ++ [n] }) := by
  unfold add
  rw [Op.exec_bind_ok (Op.exec_get a)]
  by_cases hflushed : a.flushed = true
  · left
    simp only [hflushed, ↓reduceIte]
    rfl
  · right
    by_cases hid : n.id ∈ a.ids
    · left
      simp only [hflushed, hid, Bool.false_eq_true, ↓reduceIte]
      rfl
    · right
      simp only [hflushed, hid, Bool.false_eq_true, ↓reduceIte]
      exact ⟨not_false, rfl⟩

theorem keeps_sound_add (n : Node String) : Op.Keeps Sound (add n : Op σ _) := by
  intro a ha
  rcases add_cases n a with h | h | ⟨hid, h⟩
  · rw [h]
    exact ha
  · rw [h]
    exact ha
  · rw [h]
    have hids : ({ a with pool := a.pool.reserve n.id, nodes := a.nodes ++ [n] } : Arena σ).ids =
        a.ids ++ [n.id] := by simp [ids]
    constructor
    · rw [hids]
      exact List.nodup_append.2 ⟨ha.nodup, List.nodup_singleton _, by
        rintro x hx y hy rfl
        rw [List.mem_singleton.1 hy] at hx
        exact hid hx⟩
    · intro x hx
      rw [hids, List.mem_append, List.mem_singleton] at hx
      apply mem_reserve.2
      rcases hx with hx | hx
      · exact Or.inr (ha.taken x hx)
      · exact Or.inl hx

theorem keeps_sound_pasteAs (given : List String) (plan : List (Node Nat)) :
    Op.Keeps Sound (pasteAs given plan : Op σ Unit) :=
  Op.keeps_forM (fun _ => (keeps_sound_add _).bind fun _ => Op.keeps_pure ()) plan

theorem keeps_sound_lookup (id : String) : Op.Keeps Sound (lookup id : Op σ _) := by
  intro a ha
  unfold lookup
  rw [Op.exec_bind_ok (Op.exec_get a)]
  cases a.find? id with
  | none => exact ha
  | some n => exact ha

/-- Only changes that leave the identifier of a node as it is are made. -/
theorem keeps_sound_change {id : String} {f : Node String → Node String}
    (hf : ∀ n, n.id = id → (f n).id = id) : Op.Keeps Sound (change id f : Op σ _) := by
  refine (keeps_sound_lookup id).bind fun _ => Op.Keeps.bind ?_ fun _ => Op.keeps_pure _
  intro a ha
  exact Sound.of_ids ha (ids_update hf) fun _ h => h

theorem lookup_id {a b : Arena σ} {id : String} {n : Node String}
    (h : (lookup id).exec a = (.ok n, b)) : n.id = id ∧ b = a := by
  unfold lookup at h
  rw [Op.exec_bind_ok (Op.exec_get a)] at h
  cases hfind : a.find? id with
  | none => rw [hfind] at h; cases h
  | some m =>
    rw [hfind] at h
    cases h
    exact ⟨by simpa using List.find?_some hfind, rfl⟩

theorem connect?_id {n m : Node String} {port : Int} {target : String}
    (h : n.connect? port target = some m) : m.id = n.id := by
  unfold Node.connect? at h
  split at h
  · cases h
    rfl
  · obtain ⟨k, -, rfl⟩ := Option.map_eq_some_iff.1 h
    rfl

theorem addRule_id (n : Node String) (value : Int) (target : String) :
    (n.addRule value target).id = n.id := by
  unfold Node.addRule
  split <;> rfl

theorem keeps_sound_connect (id : String) (port : Int) (target : String) :
    Op.Keeps Sound (connect id port target : Op σ _) := by
  intro a ha
  unfold connect
  cases hlookup : (lookup id).exec a with
  | mk r b =>
    cases r with
    | error e =>
      have hb := keeps_sound_lookup id a ha
      rw [hlookup] at hb
      rw [Op.exec_bind, hlookup]
      exact hb
    | ok n =>
      obtain ⟨hn, rfl⟩ := lookup_id hlookup
      rw [Op.exec_bind_ok hlookup]
      cases hconnect : n.connect? port target with
      | none => exact ha
      | some m =>
        -- the node that is put back has the identifier of the one that was found
        exact keeps_sound_change (fun _ _ => (connect?_id hconnect).trans hn) b ha

theorem keeps_sound_flush : Op.Keeps Sound (flush : Op σ _) := by
  intro a ha
  unfold flush
  rw [Op.exec_bind_ok (Op.exec_get a)]
  cases a.dangling with
  | nil => exact Sound.of_ids ha rfl fun _ h => h
  | cons t ts => exact ha

variable [Source σ]

theorem keeps_sound_draw : Op.Keeps Sound (draw : Op σ String) := by
  intro a ha
  unfold draw
  rw [Op.exec_bind_ok (Op.exec_get a)]
  cases hnext : a.pool.next with
  | none => exact ha
  | some drawn =>
    obtain ⟨id, pool⟩ := drawn
    refine Sound.of_ids ha rfl fun other hother => ?_
    show other ∈ pool.taken
    rw [(Pool.next_spec hnext).2]
    exact List.mem_cons_of_mem _ hother

theorem keeps_sound_drawMany (count : Nat) : Op.Keeps Sound (drawMany count : Op σ _) := by
  intro a ha
  cases hnexts : a.pool.nexts count with
  | none => rw [drawMany_exec_none hnexts]; exact ha
  | some drawn =>
    obtain ⟨ids, pool⟩ := drawn
    rw [drawMany_exec hnexts]
    refine Sound.of_ids ha rfl fun other hother => ?_
    exact ((Pool.nexts_fresh hnexts).taken other).2 (Or.inr hother)

end Arena

/-! ## Runs -/

/-- What can be done with an arena and with its identifiers. -/
inductive Action where
  | draw
  | reserve (id : String)
  | add (n : Node String)
  /-- Stores a node that is made from a new identifier. -/
  | create (make : String → Node String)
  | connect (id : String) (port : Int) (target : String)
  | addRule (id : String) (value : Int) (target : String)
  | splice (f : Fragment)
  /-- Copies a fragment under given identifiers. -/
  | spliceAs (given : List String) (f : Fragment)
  | flush

variable {σ : Type}

theorem Op.Keeps.forget {α : Type} {P : Arena σ → Prop} {x : Op σ α} (h : Op.Keeps P x) :
    Op.Keeps P (do let _ ← x) :=
  h.bind fun _ => Op.keeps_pure ()

variable [Source σ]

/-- The step of an action. What it returns is not looked at. -/
def Action.op : Action → Op σ Unit
  | .draw => do let _ ← Arena.draw
  | .reserve id => modify fun a => { a with pool := a.pool.reserve id }
  | .add n => do let _ ← Arena.add n
  | .create make => do let _ ← Arena.create make
  | .connect id port target => do let _ ← Arena.connect id port target
  | .addRule id value target => do let _ ← Arena.addRule id value target
  | .splice f => do let _ ← Arena.splice f
  | .spliceAs given f => do let _ ← Arena.spliceAs given f
  | .flush => do let _ ← Arena.flush

/-- The arena after some actions, some of which may fail. -/
def Arena.after (a : Arena σ) (actions : List Action) : Arena σ :=
  actions.foldl (fun a action => (action.op.exec a).2) a

/-- One action keeps an arena sound. -/
theorem Action.keeps_sound (action : Action) : Op.Keeps Arena.Sound (action.op : Op σ Unit) := by
  cases action with
  | draw => exact Arena.keeps_sound_draw.forget
  | reserve id =>
    intro a ha
    exact Arena.Sound.of_ids ha rfl fun other h => Arena.mem_reserve.2 (Or.inr h)
  | add n => exact (Arena.keeps_sound_add n).forget
  | create make => exact (Arena.keeps_sound_draw.bind fun _ => Arena.keeps_sound_add _).forget
  | connect id port target => exact (Arena.keeps_sound_connect id port target).forget
  | addRule id value target =>
    exact (Arena.keeps_sound_change fun n hn => (Arena.addRule_id n value target).trans hn).forget
  | splice f =>
    apply Op.Keeps.forget
    refine Op.Keeps.bind ?_ fun _ => Op.keeps_pure _
    refine (Arena.keeps_sound_drawMany _).bind fun ids => ?_
    exact (Arena.keeps_sound_pasteAs ids _).bind fun _ => Op.keeps_pure _
  | spliceAs given f =>
    apply Op.Keeps.forget
    have hpaste : Op.Keeps Arena.Sound (do
        Arena.pasteAs (given.take f.size) f.copies
        return Arena.splicedAs f (given.take f.size) : Op σ Arena.Spliced) :=
      (Arena.keeps_sound_pasteAs _ _).bind fun _ => Op.keeps_pure _
    unfold Arena.spliceAs
    simp only
    split
    · exact (Op.keeps_throw _).bind fun _ => hpaste
    · exact hpaste
  | flush => exact Arena.keeps_sound_flush.forget

/-- A sound arena stays sound, whatever is done with it. -/
theorem Arena.Sound.after {a : Arena σ} (h : a.Sound) (actions : List Action) :
    (a.after actions).Sound := by
  induction actions generalizing a with
  | nil => exact h
  | cons action actions ih => exact ih (action.keeps_sound a h)

end SlideFlow.Flow
