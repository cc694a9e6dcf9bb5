/-
The life of an arena. Every step but flushing stores nodes behind those that are there, in the order in
which it asks for identifiers, and neither opens nor closes the arena (`Op.Stores`); flushing stores
nothing and closes the arena if no wire dangles. So in every run nodes stand in the order of creation,
new identifiers are never refused, and a closed arena keeps its nodes (`arena_invariant`).

An arena that was flushed can still be rewired and flushed again. If that fails, the arena is as it was
before, which is closed (`failed_flush_stays_closed`).
-/
import SlideFlow.Proofs.Flow.Splice

namespace SlideFlow.Flow

open SlideFlow.Ident

variable {σ : Type}

/-! ## What a step stores -/

namespace Op

variable {α β : Type} {asked asked' : List String} {a : Arena σ}

/-- Of the identifiers that a step asks for, it stores nodes under the first ones, in their order and
behind the nodes that are there: under all of them unless it fails, and under none if the arena is
closed. The arena stays open or closed. -/
def Stores (asked : List String) (op : Op σ α) (a : Arena σ) : Prop :=
  ∃ stored, stored <+: asked ∧ (op.exec a).2.ids = a.ids ++ stored ∧
    (∀ r, (op.exec a).1 = .ok r → stored = asked) ∧ (a.flushed = true → stored = []) ∧
    (op.exec a).2.flushed = a.flushed

theorem stores_nil {op : Op σ α} (hids : (op.exec a).2.ids = a.ids)
    (hflushed : (op.exec a).2.flushed = a.flushed) : Stores [] op a :=
  ⟨[], List.nil_prefix, by rw [hids, List.append_nil], fun _ _ => rfl, fun _ => rfl, hflushed⟩

/-- A step that fails at once stores nothing, whatever it asks for. -/
theorem stores_of_error {op : Op σ α} {e : FlowError} (h : op.exec a = (.error e, a)) :
    Stores asked op a := by
  refine ⟨[], List.nil_prefix, by rw [h, List.append_nil], fun r hr => ?_, fun _ => rfl, by rw [h]⟩
  rw [h] at hr
  cases hr

/-- Steps one after the other store what they store each. -/
theorem Stores.bind {x : Op σ α} {f : α → Op σ β} (hx : Stores asked x a)
    (hf : ∀ r b, x.exec a = (.ok r, b) → Stores asked' (f r) b) :
    Stores (asked ++ asked') (x >>= f) a := by
  obtain ⟨stored, hasked, hids, hall, hclosed, hflushed⟩ := hx
  rcases hexec : x.exec a with ⟨r, b⟩
  rw [hexec] at hids hall hflushed
  cases r with
  | error e =>
    have hbind : (x >>= f).exec a = (.error e, b) := by rw [exec_bind, hexec]
    refine ⟨stored, hasked.trans (List.prefix_append _ _), ?_, fun r hr => ?_, hclosed, ?_⟩
    · rw [hbind]
      exact hids
    · rw [hbind] at hr
      cases hr
    · rw [hbind]
      exact hflushed
  | ok r =>
    obtain ⟨stored', hasked', hids', hall', hclosed', hflushed'⟩ := hf r b hexec
    obtain rfl := hall r rfl
    have hbind : (x >>= f).exec a = (f r).exec b := exec_bind_ok hexec f
    refine ⟨stored ++ stored', (List.prefix_append_right_inj stored).2 hasked', ?_, fun r hr => ?_,
      fun ha => ?_, ?_⟩
    · rw [hbind, hids', hids, List.append_assoc]
    · rw [hbind] at hr
      rw [hall' r hr]
    · rw [hclosed ha, hclosed' (hflushed.trans ha), List.append_nil]
    · rw [hbind, hflushed', hflushed]

theorem Stores.bind_pure {op : Op σ α} (h : Stores asked op a) (g : α → β) :
    Stores asked (op >>= fun r => pure (g r)) a := by
  rw [← List.append_nil asked]
  exact h.bind fun _ _ _ => stores_nil rfl rfl

theorem Stores.forget {op : Op σ α} (h : Stores asked op a) : Stores asked (do let _ ← op) a :=
  h.bind_pure fun _ => ()

end Op

namespace Arena

theorem add_of_flushed {a : Arena σ} (h : a.flushed = true) (n : Node String) :
    (add n).exec a = (.error .flushed, a) := by
  unfold add
  rw [Op.exec_bind_ok (Op.exec_get a)]
  simp only [h, ↓reduceIte]
  rfl

/-- Nothing is pasted into a closed arena. -/
theorem pasteAs_of_flushed {a : Arena σ} (h : a.flushed = true) (given : List String)
    {plan : List (Node Nat)} (hplan : plan ≠ []) :
    (pasteAs given plan).exec a = (.error .flushed, a) := by
  obtain ⟨n, plan, rfl⟩ := List.exists_cons_of_ne_nil hplan
  show Op.exec ((do let _ ← add (n.map fun i => given.getD i "")) >>= fun _ =>
    pasteAs given plan) a = _
  rw [bind_assoc, Op.exec_bind, add_of_flushed h]

theorem stores_add (n : Node String) (a : Arena σ) : Op.Stores [n.id] (add n) a := by
  rcases add_cases n a with h | h | ⟨-, h⟩
  · exact Op.stores_of_error h
  · exact Op.stores_of_error h
  · refine ⟨[n.id], List.prefix_rfl, by rw [h]; simp [ids], fun _ _ => rfl, fun ha => ?_, by rw [h]⟩
    rw [add_of_flushed ha] at h
    cases h

/-- The nodes of a plan are stored one after the other, up to the first one that is refused. -/
theorem stores_pasteAs (given : List String) : ∀ (plan : List (Node Nat)) (a : Arena σ),
    Op.Stores (plan.map fun n => given.getD n.id "") (pasteAs given plan) a
  | [], _ => Op.stores_nil rfl rfl
  | n :: plan, a => by
    have hadd := (stores_add (n.map fun i => given.getD i "") a).forget
    exact hadd.bind fun _ b _ => stores_pasteAs given plan b

theorem stores_spliceAs (given : List String) (f : Fragment) (a : Arena σ) :
    Op.Stores (given.take f.size) (spliceAs given f) a := by
  unfold spliceAs
  simp only
  split
  · exact Op.stores_of_error rfl
  · rename_i hlength
    have hall : (given.take f.size).length = f.size := by
      rw [List.length_take] at hlength ⊢
      omega
    have hpaste := stores_pasteAs (given.take f.size) f.copies a
    rw [Fragment.ids_copies hall] at hpaste
    exact hpaste.bind_pure fun _ => splicedAs f (given.take f.size)

theorem stores_lookup (id : String) (a : Arena σ) : Op.Stores [] (lookup id) a := by
  have hsame : ((lookup id).exec a).2 = a := by
    unfold lookup
    rw [Op.exec_bind_ok (Op.exec_get a)]
    cases a.find? id <;> rfl
  exact Op.stores_nil (by rw [hsame]) (by rw [hsame])

theorem stores_change {id : String} {f : Node String → Node String}
    (hf : ∀ n, n.id = id → (f n).id = id) (a : Arena σ) : Op.Stores [] (change id f) a := by
  refine (stores_lookup id a).bind fun n b _ => ?_
  have hupdate : Op.Stores [] (modify (·.update id f) : Op σ Unit) b :=
    Op.stores_nil (ids_update hf) rfl
  exact hupdate.bind fun _ _ _ => Op.stores_nil rfl rfl

theorem stores_connect (id : String) (port : Int) (target : String) (a : Arena σ) :
    Op.Stores [] (connect id port target) a := by
  refine (stores_lookup id a).bind fun n b hlookup => ?_
  obtain ⟨hn, rfl⟩ := lookup_id hlookup
  cases hconnect : n.connect? port target with
  | none => exact Op.stores_nil rfl rfl
  | some m => exact stores_change (fun _ _ => (connect?_id hconnect).trans hn) b

theorem dangling_eq_nil_iff {a : Arena σ} :
    a.dangling = [] ↔ ∀ n ∈ a.nodes, ∀ t ∈ n.targets, t ∈ a.ids := by
  simp only [dangling, List.filter_eq_nil_iff, List.mem_flatMap, Bool.not_eq_true',
    Bool.not_eq_false, List.contains_iff_mem, forall_exists_index, and_imp]
  exact ⟨fun h n hn t ht => h t n hn ht, fun h t n hn ht => h n hn t ht⟩

/-- What flushing comes to. -/
theorem flush_cases (a : Arena σ) :
    a.dangling = [] ∧ flush.exec a = (.ok a.nodes, { a with flushed := true }) ∨
      a.dangling ≠ [] ∧ flush.exec a = (.error (.dangling a.dangling), a) := by
  by_cases h : a.dangling = []
  · exact Or.inl ⟨h, flush_exec h⟩
  · right
    obtain ⟨t, ts, hmissing⟩ := List.exists_cons_of_ne_nil h
    refine ⟨h, ?_⟩
    unfold flush
    rw [Op.exec_bind_ok (Op.exec_get a), hmissing]
    rfl

variable [Source σ]

theorem stores_draw (a : Arena σ) : Op.Stores [] (draw : Op σ String) a := by
  cases hnext : a.pool.next with
  | none => exact Op.stores_of_error (draw_exec_none hnext)
  | some drawn =>
    have hdraw : draw.exec a = (.ok drawn.1, { a with pool := drawn.2 }) := draw_exec hnext
    exact Op.stores_nil (by rw [hdraw]; rfl) (by rw [hdraw])

theorem stores_drawMany (count : Nat) (a : Arena σ) : Op.Stores [] (drawMany count : Op σ _) a := by
  cases hnexts : a.pool.nexts count with
  | none => exact Op.stores_of_error (drawMany_exec_none hnexts)
  | some drawn =>
    have hdraw : (drawMany count).exec a = (.ok drawn.1, { a with pool := drawn.2 }) :=
      drawMany_exec hnexts
    exact Op.stores_nil (by rw [hdraw]; rfl) (by rw [hdraw])

theorem stores_create (make : String → Node String) (a : Arena σ) :
    Op.Stores (a.pool.next.map fun drawn => (make drawn.1).id).toList (create make) a := by
  refine (stores_draw a).bind fun id b hdraw => ?_
  cases hnext : a.pool.next with
  | none =>
    rw [draw_exec_none hnext] at hdraw
    cases hdraw
  | some drawn =>
    have hdrawn : draw.exec a = (.ok drawn.1, { a with pool := drawn.2 }) := draw_exec hnext
    rw [hdrawn] at hdraw
    cases hdraw
    exact stores_add (make drawn.1) _

theorem stores_splice (f : Fragment) (a : Arena σ) :
    Op.Stores (((a.pool.nexts f.size).map (·.1)).getD []) (splice f) a := by
  refine Op.Stores.bind_pure ?_ (splicedAs f)
  refine (stores_drawMany _ a).bind fun ids b hdraw => ?_
  have hlength : f.copies.length = f.size := List.length_map _
  rw [hlength] at hdraw
  cases hnexts : a.pool.nexts f.size with
  | none =>
    rw [drawMany_exec_none hnexts] at hdraw
    cases hdraw
  | some drawn =>
    have hdrawn : (drawMany f.size).exec a = (.ok drawn.1, { a with pool := drawn.2 }) :=
      drawMany_exec hnexts
    rw [hdrawn] at hdraw
    cases hdraw
    have hpaste := stores_pasteAs drawn.1 f.copies { a with pool := drawn.2 }
    rw [Fragment.ids_copies (Pool.nexts_fresh hnexts).length] at hpaste
    exact hpaste.bind_pure fun _ => drawn.1

end Arena

/-! ## What an action stores -/

variable [Source σ]

/-- The identifiers under which an action is to store nodes, in order. -/
def Action.asks (a : Arena σ) : Action → List String
  | .add n => [n.id]
  | .create make => (a.pool.next.map fun drawn => (make drawn.1).id).toList
  | .splice f => ((a.pool.nexts f.size).map (·.1)).getD []
  | .spliceAs given f => given.take f.size
  | _ => []

theorem Action.stores (action : Action) (a : Arena σ) (hflush : action ≠ .flush) :
    Op.Stores (action.asks a) action.op a := by
  cases action with
  | draw => exact (Arena.stores_draw a).forget
  | reserve id => exact Op.stores_nil rfl rfl
  | add n => exact (Arena.stores_add n a).forget
  | create make => exact (Arena.stores_create make a).forget
  | connect id port target => exact (Arena.stores_connect id port target a).forget
  | addRule id value target =>
    exact (Arena.stores_change (fun n hn => (Arena.addRule_id n value target).trans hn) a).forget
  | splice f => exact (Arena.stores_splice f a).forget
  | spliceAs given f => exact (Arena.stores_spliceAs given f a).forget
  | flush => exact absurd rfl hflush

/-- An action stores nodes under the first identifiers that it asks for, in their order and behind the
nodes that are there: under all of them unless it fails, under none if the arena is closed. -/
def Action.Appends (action : Action) (a : Arena σ) : Prop :=
  ∃ stored, stored <+: action.asks a ∧ (action.op.exec a).2.ids = a.ids ++ stored ∧
    ((action.op.exec a).1 = .ok () → stored = action.asks a) ∧ (a.flushed = true → stored = [])

theorem Action.flush_exec (a : Arena σ) :
    (∃ nodes, (Arena.flush.exec a).1 = .ok nodes) ∧
        (Action.flush.op.exec a) = (.ok (), { a with flushed := true }) ∨
      (∀ nodes, (Arena.flush.exec a).1 ≠ .ok nodes) ∧
        (Action.flush.op.exec a) = (.error (.dangling a.dangling), a) := by
  rcases a.flush_cases with ⟨-, h⟩ | ⟨-, h⟩
  · left
    refine ⟨⟨a.nodes, by rw [h]⟩, ?_⟩
    show Op.exec (Arena.flush >>= fun _ => pure ()) a = _
    rw [Op.exec_bind_ok h]
    rfl
  · right
    refine ⟨fun nodes hok => ?_, ?_⟩
    · rw [h] at hok
      cases hok
    · show Op.exec (Arena.flush >>= fun _ => pure ()) a = _
      rw [Op.exec_bind, h]

theorem Action.appends (action : Action) (a : Arena σ) : action.Appends a := by
  by_cases hflush : action = .flush
  · subst hflush
    have hids : (Action.flush.op.exec a).2.ids = a.ids := by
      rcases Action.flush_exec a with ⟨-, h⟩ | ⟨-, h⟩
      · rw [h]
        rfl
      · rw [h]
    exact ⟨[], List.nil_prefix, by rw [hids, List.append_nil], fun _ => rfl, fun _ => rfl⟩
  · obtain ⟨stored, hasked, hids, hall, hclosed, -⟩ := action.stores a hflush
    exact ⟨stored, hasked, hids, hall (), hclosed⟩

/-- An arena is closed by flushing and in no other way. -/
theorem Action.flushed_exec (action : Action) (a : Arena σ) :
    (action.op.exec a).2.flushed = true ↔
      a.flushed = true ∨ action = .flush ∧ ∃ nodes, (Arena.flush.exec a).1 = .ok nodes := by
  by_cases hflush : action = .flush
  · subst hflush
    rcases Action.flush_exec a with ⟨hok, h⟩ | ⟨hfails, h⟩
    · rw [h]
      exact ⟨fun _ => Or.inr ⟨rfl, hok⟩, fun _ => rfl⟩
    · rw [h]
      refine ⟨Or.inl, ?_⟩
      rintro (ha | ⟨-, nodes, hok⟩)
      · exact ha
      · exact absurd hok (hfails nodes)
  · obtain ⟨-, -, -, -, -, hflushed⟩ := action.stores a hflush
    rw [hflushed]
    exact ⟨Or.inl, fun h => h.resolve_right fun h => hflush h.1⟩

/-! ## Runs -/

namespace Arena

/-- A closed arena keeps its nodes, whatever is done with it. -/
theorem ids_after_of_flushed {a : Arena σ} (h : a.flushed = true) (actions : List Action) :
    (a.after actions).ids = a.ids := by
  induction actions generalizing a with
  | nil => rfl
  | cons action actions ih =>
    obtain ⟨stored, -, hids, -, hclosed⟩ := action.appends a
    have hnext : (action.op.exec a).2.flushed = true := (action.flushed_exec a).2 (Or.inl h)
    show ((action.op.exec a).2.after actions).ids = a.ids
    rw [ih hnext, hids, hclosed h, List.append_nil]

/-- An arena is closed if it was closed before or a flush has succeeded. -/
theorem flushed_after_iff (a : Arena σ) (actions : List Action) :
    (a.after actions).flushed = true ↔ a.flushed = true ∨
      ∃ before later, actions = before ++ .flush :: later ∧
        ∃ nodes, (flush.exec (a.after before)).1 = .ok nodes := by
  induction actions generalizing a with
  | nil => simp [after]
  | cons action actions ih =>
    show ((action.op.exec a).2.after actions).flushed = true ↔ _
    rw [ih, action.flushed_exec]
    constructor
    · rintro ((ha | ⟨rfl, hok⟩) | ⟨before, later, rfl, hok⟩)
      · exact Or.inl ha
      · exact Or.inr ⟨[], actions, rfl, hok⟩
      · exact Or.inr ⟨action :: before, later, rfl, hok⟩
    · rintro (ha | ⟨before, later, hsplit, hok⟩)
      · exact Or.inl (Or.inl ha)
      · cases before with
        | nil =>
          cases hsplit
          exact Or.inl (Or.inr ⟨rfl, hok⟩)
        | cons first before =>
          cases hsplit
          exact Or.inr ⟨before, later, rfl, hok⟩

/-! ## New nodes -/

/-- Nodes under identifiers that are drawn for them are refused for two reasons. -/
theorem refused_iff {δ α : Type} {drawn : Option δ} {flushed : Bool} {result : Except FlowError α}
    {e : FlowError} (hnone : drawn = none → result = .error .exhausted)
    (hclosed : drawn ≠ none → flushed = true → result = .error .flushed)
    (hopen : drawn ≠ none → flushed = false → ∃ r, result = .ok r) :
    result = .error e ↔
      e = .exhausted ∧ drawn = none ∨ e = .flushed ∧ flushed = true ∧ drawn ≠ none := by
  constructor
  · rintro rfl
    by_cases hdrawn : drawn = none
    · cases hnone hdrawn
      exact Or.inl ⟨rfl, hdrawn⟩
    · cases flushed with
      | false =>
        obtain ⟨r, hr⟩ := hopen hdrawn rfl
        cases hr
      | true =>
        cases hclosed hdrawn rfl
        exact Or.inr ⟨rfl, rfl, hdrawn⟩
  · rintro (⟨rfl, h⟩ | ⟨rfl, h, hdrawn⟩)
    · exact hnone h
    · exact hclosed hdrawn h

/-- An identifier that was just drawn is new to the arena, so its node is refused by a closed arena
only. -/
theorem create_eq_error_iff {a : Arena σ} (h : a.Sound) {make : String → Node String}
    (hmake : ∀ id, (make id).id = id) {e : FlowError} :
    ((create make).exec a).1 = .error e ↔
      e = .exhausted ∧ a.pool.next = none ∨
        e = .flushed ∧ a.flushed = true ∧ a.pool.next ≠ none := by
  have hcreate : ∀ id p, a.pool.next = some (id, p) →
      (create make).exec a = (add (make id)).exec { a with pool := p } :=
    fun id p hnext => Op.exec_bind_ok (draw_exec hnext) _
  refine refused_iff (fun hnone => ?_) (fun hsome hflushed => ?_) (fun hsome hflushed => ?_)
  · show (Op.exec (draw >>= fun id => add (make id)) a).1 = _
    rw [Op.exec_bind, draw_exec_none hnone]
  · obtain ⟨⟨id, p⟩, hnext⟩ := Option.ne_none_iff_exists'.1 hsome
    have hclosed : ({ a with pool := p } : Arena σ).flushed = true := hflushed
    rw [hcreate id p hnext, add_of_flushed hclosed]
  · obtain ⟨⟨id, p⟩, hnext⟩ := Option.ne_none_iff_exists'.1 hsome
    obtain ⟨hnew, htaken⟩ := Pool.next_spec hnext
    have hadd := add_exec (a := { a with pool := p }) (n := make id) hflushed
      (by rw [hmake]; exact fun hid => hnew (h.taken _ hid))
      (by rw [hmake, htaken]; exact List.mem_cons_self ..)
    exact ⟨make id, by rw [hcreate id p hnext, hadd]⟩

/-- The same for the copies of a fragment, which has at least one node. -/
theorem splice_eq_error_iff {a : Arena σ} (h : a.Sound) (f : Fragment) {e : FlowError} :
    ((splice f).exec a).1 = .error e ↔
      e = .exhausted ∧ a.pool.nexts f.size = none ∨
        e = .flushed ∧ a.flushed = true ∧ a.pool.nexts f.size ≠ none := by
  have hlength : f.copies.length = f.size := List.length_map _
  have hcopies : f.copies ≠ [] := by
    intro hnil
    have hentry := f.entry_mem
    rw [Fragment.copies, List.map_eq_nil_iff] at hnil
    rw [hnil] at hentry
    cases hentry
  refine refused_iff (fun hnone => ?_) (fun hsome hflushed => ?_) (fun hsome hflushed => ?_)
  · have hdraw : (drawMany f.copies.length).exec a = (.error .exhausted, a) :=
      drawMany_exec_none (hlength ▸ hnone)
    unfold splice paste
    rw [bind_assoc, Op.exec_bind, hdraw]
  · obtain ⟨⟨ids, p⟩, hnexts⟩ := Option.ne_none_iff_exists'.1 hsome
    have hdraw : (drawMany f.copies.length).exec a = (.ok ids, { a with pool := p }) :=
      drawMany_exec (hlength ▸ hnexts)
    have hpaste := pasteAs_of_flushed (a := { a with pool := p }) hflushed ids hcopies
    unfold splice paste
    rw [bind_assoc, Op.exec_bind_ok hdraw, bind_assoc, Op.exec_bind, hpaste]
  · obtain ⟨⟨ids, p⟩, hnexts⟩ := Option.ne_none_iff_exists'.1 hsome
    exact ⟨_, by rw [splice_exec h hflushed hnexts]⟩

end Arena

/-- The nodes that are made under a new identifier. -/
inductive Blueprint where
  | function (script name : String) (wires : List (List String))
  | join (script : String) (topics : List String) (name target : String)
  | switch (property scope name : String)
  | httpIn (url method target : String)
  | httpResponse

def Blueprint.node : Blueprint → String → Node String
  | .function script name wires => fun id => .function id script name wires
  | .join script topics name target => fun id => .join id script topics name target
  | .switch property scope name => fun id => .switch id property scope name
  | .httpIn url method target => fun id => .httpIn id url method target
  | .httpResponse => .httpResponse

theorem Blueprint.node_id (b : Blueprint) (id : String) : (b.node id).id = id := by
  cases b <;> rfl

/-- The invariant of an arena, in every state that some actions lead to, of which any may have failed.
Every node is stored once, under its own identifier, which is taken; and every action appends its nodes
in order. Hence a new node and the copy of a fragment are refused for want of identifiers or because
the arena is closed, never for a duplicate. A flush succeeds exactly if every wire ends at a stored
node. If it fails, the arena is as it was, and it is closed exactly if an earlier flush succeeded. After
one that succeeds no action adds or removes a node. -/
theorem arena_invariant (start : Pool σ) (actions : List Action) :
    let a := (Arena.ofPool start).after actions
    (a.ids.Nodup ∧ ∀ n ∈ a.nodes, a.find? n.id = some n ∧ n.id ∈ a.pool.taken) ∧
    (∀ action : Action, action.Appends a) ∧
    (∀ (b : Blueprint) (e : FlowError), ((Arena.create b.node).exec a).1 = .error e ↔
      e = .exhausted ∧ a.pool.next = none ∨
        e = .flushed ∧ a.flushed = true ∧ a.pool.next ≠ none) ∧
    (∀ (f : Fragment) (e : FlowError), ((Arena.splice f).exec a).1 = .error e ↔
      e = .exhausted ∧ a.pool.nexts f.size = none ∨
        e = .flushed ∧ a.flushed = true ∧ a.pool.nexts f.size ≠ none) ∧
    FlowError.flushed.message = "Arena already flushed" ∧
    ((∃ nodes, (Arena.flush.exec a).1 = .ok nodes) ↔
      ∀ n ∈ a.nodes, ∀ t ∈ n.targets, t ∈ a.ids) ∧
    (∀ e, (Arena.flush.exec a).1 = .error e → (Arena.flush.exec a).2 = a) ∧
    (a.flushed = true ↔ ∃ before later, actions = before ++ .flush :: later ∧
      ∃ nodes, (Arena.flush.exec ((Arena.ofPool start).after before)).1 = .ok nodes) ∧
    ∀ nodes, (Arena.flush.exec a).1 = .ok nodes →
      nodes = a.nodes ∧ ∀ more, (a.after (.flush :: more)).ids = a.ids := by
  intro a
  have hsound : a.Sound := (Arena.sound_ofPool start).after actions
  refine ⟨⟨hsound.nodup, fun n hn => ⟨hsound.find?_eq hn, ?_⟩⟩, fun action => action.appends a,
    fun b e => Arena.create_eq_error_iff hsound b.node_id,
    fun f e => Arena.splice_eq_error_iff hsound f, rfl, ?_, ?_, ?_, ?_⟩
  · exact hsound.taken n.id (List.mem_map_of_mem hn)
  · rw [← Arena.dangling_eq_nil_iff]
    rcases a.flush_cases with ⟨hnone, h⟩ | ⟨hsome, h⟩
    · simp [h, hnone]
    · simp [h, hsome]
  · intro e he
    rcases a.flush_cases with ⟨-, h⟩ | ⟨-, h⟩
    · rw [h] at he
      cases he
    · rw [h]
  · have hclosed := (Arena.ofPool start).flushed_after_iff actions
    have hopen : (Arena.ofPool start).flushed = false := rfl
    rwa [hopen, Bool.false_eq_true, false_or] at hclosed
  · intro nodes hnodes
    rcases a.flush_cases with ⟨-, h⟩ | ⟨-, h⟩
    · rw [h] at hnodes
      cases hnodes
      refine ⟨rfl, fun more => ?_⟩
      obtain ⟨stored, hprefix, hids, -, -⟩ := Action.flush.appends a
      have hclosed : (Action.flush.op.exec a).2.flushed = true :=
        (Action.flush.flushed_exec a).2 (Or.inr ⟨rfl, a.nodes, by rw [h]⟩)
      show ((Action.flush.op.exec a).2.after more).ids = a.ids
      rw [Arena.ids_after_of_flushed hclosed, hids, List.prefix_nil.1 hprefix, List.append_nil]
    · rw [h] at hnodes
      cases hnodes

/-- A node is added under the identifier that the pool would give out next, so the node after it gets
another one. Its wire leads nowhere, so the arena cannot be flushed. -/
theorem arena_invariant_reserved :
    let a := (Arena.ofPool Compile.lampPool).after
      [.add (.httpResponse "00000000.004001"), .create Blueprint.httpResponse.node,
        .connect "00000000.004001" 0 "nowhere"]
    a.ids = ["00000000.004001", "00000002.004001"] ∧ a.ids.Nodup ∧
    (Arena.flush.exec a).1 = .error (.dangling ["nowhere"]) ∧ (Arena.flush.exec a).2 = a := by
  intro a
  obtain ⟨⟨hnodup, -⟩, -, -, -, -, -, hunchanged, -, -⟩ := arena_invariant Compile.lampPool
    [.add (.httpResponse "00000000.004001"), .create Blueprint.httpResponse.node,
      .connect "00000000.004001" 0 "nowhere"]
  have hids : a.ids = ["00000000.004001", "00000002.004001"] := by decide +kernel
  have hfails : (Arena.flush.exec a).1 = .error (.dangling ["nowhere"]) := by
    apply failure?_eq_some_iff.1
    decide +kernel
  exact ⟨hids, hnodup, hfails, hunchanged _ hfails⟩

/-- A flush that fails does not open the arena again: one node, flushed and then wired to nowhere. -/
theorem failed_flush_stays_closed :
    let a := (Arena.ofPool Compile.lampPool).after
      [.create Node.httpResponse, .flush, .connect "00000000.004001" 0 "nowhere"]
    failure? (Arena.flush.exec a).1 = some (.dangling ["nowhere"]) ∧
    (Arena.flush.exec a).2.flushed = true ∧
    failure? ((Arena.create Node.httpResponse).exec (Arena.flush.exec a).2).1 = some .flushed := by
  decide +kernel

end SlideFlow.Flow
