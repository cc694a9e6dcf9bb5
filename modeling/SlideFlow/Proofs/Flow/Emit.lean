/-
Steps that store new nodes. What such a step does to an arena is told by what it would store if the
identifiers had any names: the positions from one on stand for the identifiers that it draws, in order
(`Emits`). Steps that are told in this way can be put one after the other (`Emits.bind`), and what they
stored can be changed afterwards (`Emits.adjust`). They do not fail but for want of identifiers.
-/
import SlideFlow.Proofs.Compile.Layout
import SlideFlow.Proofs.Flow.Actions

namespace SlideFlow.Fragment

open SlideFlow.Flow SlideFlow.Text

/-! ## Copies of a fragment -/

/-- The new name of each node, if its nodes get these identifiers in order. -/
def newName (f : Fragment) (ids : List String) (s : RawText) : String :=
  ids.getD ((names f.parts).idxOf s) ""

variable {f : Fragment} {ids : List String}

theorem idxOf_lt_size {s : RawText} (h : s ∈ names f.parts) : (names f.parts).idxOf s < f.size := by
  rw [size, ← List.length_map (f := Part.id)]
  exact List.idxOf_lt_length_of_mem h

theorem map_newName (hlength : ids.length = f.size) : (names f.parts).map (f.newName ids) = ids := by
  have hidx := Compile.map_idxOf_add f.nodup 0
  have hpositions : (names f.parts).map (fun s => (names f.parts).idxOf s) =
      List.range ids.length := by
    rw [hlength, size, ← List.length_map (f := Part.id), List.range_eq_range', ← hidx]
    simp
  have hcompose : ((names f.parts).map fun s => (names f.parts).idxOf s).map (fun i => ids.getD i "") =
      (names f.parts).map (f.newName ids) := List.map_map
  rw [← hcompose, hpositions, map_getD_range]

theorem newName_mem (hlength : ids.length = f.size) {s : RawText} (hs : s ∈ names f.parts) :
    f.newName ids s ∈ ids := by
  have := List.mem_map_of_mem (f := f.newName ids) hs
  rwa [map_newName hlength] at this

theorem newName_injective (hlength : ids.length = f.size) (hnodup : ids.Nodup) {s t : RawText}
    (hs : s ∈ names f.parts) (ht : t ∈ names f.parts) (h : f.newName ids s = f.newName ids t) :
    s = t := by
  rw [← map_newName hlength] at hnodup
  exact List.inj_on_of_nodup_map hnodup hs ht h

/-- Putting the copies of a fragment under identifiers. -/
theorem copies_map (f : Fragment) (ids : List String) :
    f.copies.map (Node.map fun i => ids.getD i "") =
      f.parts.map (copyAs (names f.parts) (f.newName ids)) := by
  rw [copies, List.map_map]
  apply List.map_congr_left
  intro p _
  exact copyAs_map (names f.parts) (names f.parts).idxOf (fun i => ids.getD i "") p

/-- The copies of a fragment get the identifiers in order. -/
theorem ids_copies (hlength : ids.length = f.size) :
    (f.copies.map fun n => ids.getD n.id "") = ids := by
  rw [copies, List.map_map]
  exact (List.map_map (g := f.newName ids)).symm.trans (map_newName hlength)

/-- Only the new names of the nodes of a fragment matter for its copies. -/
theorem copyAs_congr {ρ : Type} {known : List RawText} {rename rename' : RawText → ρ}
    (h : ∀ s ∈ known, rename s = rename' s) {p : Part} (hid : p.id ∈ known)
    (hwires : ∀ port ∈ p.wires, ∀ target ∈ port, target ∈ known) :
    copyAs known rename p = copyAs known rename' p := by
  have href : refAs known rename = refAs known rename' := by
    funext s
    unfold refAs
    split
    · rename_i hs
      rw [h s hs]
    · rfl
  have hports : p.wires.map (List.map rename) = p.wires.map (List.map rename') :=
    List.map_congr_left fun port hport =>
      List.map_congr_left fun target htarget => h target (hwires port hport target htarget)
  unfold copyAs
  rw [h p.id hid, hports]
  congr 2
  apply List.map_congr_left
  intro m _
  cases m.2 <;> simp only [propertyAs, href]

end SlideFlow.Fragment

namespace SlideFlow.Flow

open SlideFlow.Fragment SlideFlow.Ident

variable {σ : Type}

/-! ## Open arenas -/

namespace Arena

/-- An arena that takes new nodes. -/
structure IsOpen (a : Arena σ) : Prop where
  sound : a.Sound
  notFlushed : a.flushed = false

theorem isOpen_ofPool (pool : Pool σ) : (ofPool pool).IsOpen := ⟨sound_ofPool pool, rfl⟩

/-- An arena with more nodes behind those that are there. -/
def extend (a : Arena σ) (pool : Pool σ) (nodes : List (Node String)) : Arena σ :=
  { a with pool, nodes := a.nodes ++ nodes }

theorem extend_extend (a : Arena σ) (pool pool' : Pool σ) (nodes nodes' : List (Node String)) :
    (a.extend pool nodes).extend pool' nodes' = a.extend pool' (nodes ++ nodes') := by
  simp [extend]

theorem ids_extend (a : Arena σ) (pool : Pool σ) (nodes : List (Node String)) :
    (a.extend pool nodes).ids = a.ids ++ nodes.map (·.id) := by
  simp [extend, ids]

/-- A node that was added is changed, and no other one. -/
theorem update_extend {a : Arena σ} {pool : Pool σ} {nodes : List (Node String)}
    (h : (a.extend pool nodes).Sound) {n : Node String} (hn : n ∈ nodes)
    (f : Node String → Node String) : (a.extend pool nodes).update n.id f =
      a.extend pool (nodes.map fun m => if m.id = n.id then f m else m) := by
  have hnodup := h.nodup
  rw [ids_extend] at hnodup
  have hold : a.nodes.map (fun m => if m.id = n.id then f m else m) = a.nodes := by
    refine (List.map_congr_left fun m hm => ?_).trans (List.map_id a.nodes)
    refine if_neg fun heq => ?_
    exact (List.nodup_append.1 hnodup).2.2 m.id (List.mem_map_of_mem hm) n.id
      (List.mem_map_of_mem hn) heq
  simp only [update, extend, List.map_append, hold]

theorem lookup_exec {a : Arena σ} (h : a.Sound) {n : Node String} (hn : n ∈ a.nodes) :
    (lookup n.id).exec a = (.ok n, a) := by
  unfold lookup
  rw [Op.exec_bind_ok (Op.exec_get a), h.find?_eq hn]
  rfl

theorem change_exec {a : Arena σ} (h : a.Sound) {n : Node String} (hn : n ∈ a.nodes)
    (f : Node String → Node String) : (change n.id f).exec a = (.ok (f n), a.update n.id f) := by
  unfold change
  rw [Op.exec_bind_ok (lookup_exec h hn)]
  rfl

theorem connect_exec {a : Arena σ} (h : a.Sound) {n : Node String} (hn : n ∈ a.nodes) (port : Nat)
    (target : String) : (connect n.id port target).exec a =
      (.ok (n.connect port target), a.update n.id fun _ => n.connect port target) := by
  have hconnect : n.connect? port target = some (n.connect port target) := by
    unfold Node.connect?
    rw [if_pos (Int.natCast_nonneg port), Int.toNat_natCast]
  unfold connect
  rw [Op.exec_bind_ok (lookup_exec h hn), hconnect]
  exact change_exec h hn _

variable [Source σ]

/-- Identifiers that are drawn from the pool of a sound arena are new to it. -/
theorem Sound.nodup_append {a : Arena σ} (h : a.Sound) {n : Nat} {ids : List String} {pool : Pool σ}
    (hids : a.pool.nexts n = some (ids, pool)) : (a.ids ++ ids).Nodup := by
  have hfresh := Pool.nexts_fresh hids
  apply List.nodup_append.2 ⟨h.nodup, hfresh.nodup, _⟩
  rintro x hx y hy rfl
  exact hfresh.new x hy (h.taken x hx)

/-- Nodes under new identifiers keep an arena open. -/
theorem IsOpen.extend {a : Arena σ} (h : a.IsOpen) {n : Nat} {ids : List String} {pool : Pool σ}
    (hids : a.pool.nexts n = some (ids, pool)) {nodes : List (Node String)}
    (hnodes : nodes.map (·.id) = ids) : (a.extend pool nodes).IsOpen := by
  have hfresh := Pool.nexts_fresh hids
  refine ⟨⟨?_, ?_⟩, h.notFlushed⟩
  · rw [ids_extend, hnodes]
    exact h.sound.nodup_append hids
  · intro id hid
    rw [ids_extend, hnodes, List.mem_append] at hid
    apply (hfresh.taken id).2
    rcases hid with hid | hid
    · exact Or.inr (h.sound.taken id hid)
    · exact Or.inl hid

/-- What splicing does to a sound, open arena: one copy for each node of the fragment is stored behind
the nodes that are there. -/
theorem splice_exec {a : Arena σ} (hsound : a.Sound) (hopen : a.flushed = false) {f : Fragment}
    {ids : List String} {pool : Pool σ} (hids : a.pool.nexts f.size = some (ids, pool)) :
    (splice f).exec a = (.ok (splicedAs f ids), { a with
      pool
      nodes := a.nodes ++ f.parts.map (copyAs (names f.parts) (f.newName ids)) }) := by
  have hfresh := Pool.nexts_fresh hids
  have hnames := ids_copies hfresh.length
  have hnodup : (a.ids ++ f.copies.map fun n => ids.getD n.id "").Nodup := by
    rw [hnames]
    exact hsound.nodup_append hids
  have htaken : ∀ n ∈ f.copies, ids.getD n.id "" ∈ pool.taken := by
    intro n hn
    have hmem := List.mem_map_of_mem (f := fun n : Node Nat => ids.getD n.id "") hn
    rw [hnames] at hmem
    exact (hfresh.taken _).2 (Or.inl hmem)
  have hlength : f.copies.length = f.size := List.length_map _
  have hdraw : (drawMany f.copies.length).exec a = (.ok ids, { a with pool }) :=
    drawMany_exec (by rw [hlength]; exact hids)
  have hpaste := pasteAs_exec ids f.copies { a with pool } hopen hnodup htaken
  unfold splice paste
  rw [bind_assoc, Op.exec_bind_ok hdraw, bind_assoc, Op.exec_bind_ok hpaste, copies_map]
  rfl

end Arena

/-! ## Emitting nodes -/

variable [Source σ] {α β : Type} {base m n : Nat}

/-- A step stores so many nodes under new identifiers and gives a result. Positions from `base` on name
the new identifiers in the order in which they are drawn; what is stored and given is told for every
way of naming positions. -/
structure Emits (op : Op σ α) (base size : Nat) (nodes : (Nat → String) → List (Node String))
    (result : (Nat → String) → α) : Prop where
  named : ∀ name, (nodes name).map (·.id) = (List.range' base size).map name
  exhausted : ∀ a : Arena σ, a.IsOpen → a.pool.nexts size = none →
    (op.exec a).1 = .error .exhausted
  stored : ∀ (a : Arena σ) (pool : Pool σ) (name : Nat → String), a.IsOpen →
    a.pool.nexts size = some ((List.range' base size).map name, pool) →
      op.exec a = (.ok (result name), a.extend pool (nodes name))

/-- Identifiers that are drawn give names to as many positions. -/
theorem exists_name (base : Nat) (ids : List String) :
    ∃ name : Nat → String, (List.range' base ids.length).map name = ids := by
  refine ⟨fun i => ids.getD (i - base) "", ?_⟩
  apply List.ext_getElem
  · simp
  · intro i h₁ h₂
    simp [h₂]

theorem emits_pure (r : α) (base : Nat) :
    Emits (pure r : Op σ α) base 0 (fun _ => []) (fun _ => r) where
  named name := rfl
  exhausted a _ h := by cases h
  stored a pool name _ h := by
    cases h
    show (Except.ok r, a) = (Except.ok r, a.extend a.pool [])
    simp [Arena.extend]

/-- Steps one after the other store nodes one after the other. -/
theorem Emits.bind {x : Op σ α} {f : α → Op σ β} {nodes : (Nat → String) → List (Node String)}
    {result : (Nat → String) → α} {nodes' : α → (Nat → String) → List (Node String)}
    {result' : α → (Nat → String) → β} (hx : Emits x base m nodes result)
    (hf : ∀ r, Emits (f r) (base + m) n (nodes' r) (result' r)) :
    Emits (x >>= f) base (m + n) (fun name => nodes name ++ nodes' (result name) name)
      (fun name => result' (result name) name) where
  named name := by
    rw [List.map_append, hx.named, (hf _).named, ← List.map_append, List.range'_append_1]
  exhausted a ha hnone := by
    cases hfirst : a.pool.nexts m with
    | none => exact Op.exec_bind_error (hx.exhausted a ha hfirst) f
    | some drawn =>
      -- the first step goes through, so the second one is left without identifiers
      obtain ⟨ids, pool⟩ := drawn
      obtain ⟨name, hname⟩ := exists_name base ids
      rw [(Pool.nexts_fresh hfirst).length] at hname
      rw [← hname] at hfirst
      rw [Op.exec_bind_ok (hx.stored a pool name ha hfirst)]
      refine (hf _).exhausted _ (ha.extend hfirst (hx.named name)) ?_
      cases hrest : pool.nexts n with
      | none => exact hrest
      | some rest => exact absurd (hnone.symm.trans (Pool.nexts_add hfirst hrest)) nofun
  stored a pool name ha hids := by
    obtain ⟨first, q, rest, hfirst, hrest, heq⟩ := Pool.nexts_of_add hids
    rw [← List.range'_append_1, List.map_append] at heq
    obtain ⟨rfl, rfl⟩ := List.append_inj heq (by simp [(Pool.nexts_fresh hfirst).length])
    rw [Op.exec_bind_ok (hx.stored a q name ha hfirst),
      (hf _).stored _ pool name (ha.extend hfirst (hx.named name)) hrest, Arena.extend_extend]

/-- A last step may change what was stored, but no identifier. -/
theorem Emits.adjust {x : Op σ α} {f : α → Op σ β} {nodes nodes' : (Nat → String) → List (Node String)}
    {result : (Nat → String) → α} {result' : (Nat → String) → β} (hx : Emits x base n nodes result)
    (hnamed : ∀ name, (nodes' name).map (·.id) = (nodes name).map (·.id))
    (hf : ∀ (a : Arena σ) (pool : Pool σ) (name : Nat → String), (a.extend pool (nodes name)).Sound →
      (f (result name)).exec (a.extend pool (nodes name)) =
        (.ok (result' name), a.extend pool (nodes' name))) :
    Emits (x >>= f) base n nodes' result' where
  named name := (hnamed name).trans (hx.named name)
  exhausted a ha hnone := Op.exec_bind_error (hx.exhausted a ha hnone) f
  stored a pool name ha hids := by
    rw [Op.exec_bind_ok (hx.stored a pool name ha hids)]
    exact hf a pool name (ha.extend hids (hx.named name)).sound

/-- What is stored and given may be told in other words. -/
theorem Emits.of_eq {op : Op σ α} {nodes nodes' : (Nat → String) → List (Node String)}
    {result result' : (Nat → String) → α} (h : Emits op base m nodes result) (hsize : m = n)
    (hnodes : ∀ name, nodes name = nodes' name) (hresult : ∀ name, result name = result' name) :
    Emits op base n nodes' result' := by
  rwa [← hsize, ← funext hnodes, ← funext hresult]

theorem emits_create (make : String → Node String) (hmake : ∀ id, (make id).id = id) (base : Nat) :
    Emits (Arena.create make : Op σ (Node String)) base 1 (fun name => [make (name base)])
      (fun name => make (name base)) where
  named name := by simp [hmake]
  exhausted a _ hnone := by
    rw [Pool.nexts_one, Option.map_eq_none_iff] at hnone
    unfold Arena.create
    rw [Op.exec_bind, Arena.draw_exec_none hnone]
  stored a pool name ha hids := by
    have hfresh := Pool.nexts_fresh hids
    rw [Pool.nexts_one, Option.map_eq_some_iff] at hids
    obtain ⟨⟨id, p⟩, hnext, heq⟩ := hids
    cases heq
    have hnew : (make (name base)).id ∉ a.ids := by
      rw [hmake]
      exact fun hmem => hfresh.new _ (by simp) (ha.sound.taken _ hmem)
    have htaken : (make (name base)).id ∈ p.taken := by
      rw [hmake]
      exact (hfresh.taken _).2 (Or.inl (by simp))
    unfold Arena.create
    rw [Op.exec_bind_ok (Arena.draw_exec hnext)]
    exact Arena.add_exec (a := { a with pool := p }) ha.notFlushed hnew htaken

/-- The copy of a fragment, each node under the position that it has in the fragment. -/
theorem emits_splice (f : Fragment) (base : Nat) :
    Emits (Arena.splice f : Op σ Arena.Spliced) base f.size
      (fun name => f.parts.map
        (copyAs (names f.parts) fun s => name (base + (names f.parts).idxOf s)))
      (fun name => Arena.splicedAs f ((List.range' base f.size).map name)) where
  named name := by
    have hnames : (names f.parts).map (fun s => base + (names f.parts).idxOf s) =
        List.range' base f.size := by
      rw [Fragment.size, ← List.length_map (f := Part.id)]
      exact Compile.map_idxOf_add f.nodup base
    rw [← hnames, List.map_map, List.map_map, List.map_map]
    rfl
  exhausted a _ hnone := by
    have hlength : f.copies.length = f.size := List.length_map _
    unfold Arena.splice Arena.paste
    rw [bind_assoc, Op.exec_bind, hlength, Arena.drawMany_exec_none hnone]
  stored a pool name ha hids := by
    rw [Arena.splice_exec ha.sound ha.notFlushed hids]
    congr 2
    have hname : ∀ s ∈ names f.parts, f.newName ((List.range' base f.size).map name) s =
        name (base + (names f.parts).idxOf s) := by
      intro s hs
      simp [newName, idxOf_lt_size hs]
    congr 1
    apply List.map_congr_left
    intro p hp
    exact copyAs_congr hname (List.mem_map_of_mem hp) (f.closed p hp)

end SlideFlow.Flow
