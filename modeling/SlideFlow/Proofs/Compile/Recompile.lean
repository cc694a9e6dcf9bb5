/-
Compiling twice. Identifiers are drawn when everything else is decided, so two flows of the same
activities differ in their identifiers only. Two nodes are twins if they stand at the same position of
the two flows. They are alike if they are wired to twins, port by port, and are written alike: a
generated node differs in its identifier and its wires, a copied one also in the texts that name twins.
-/
import SlideFlow.Proofs.Compile.Wiring

namespace SlideFlow.Ordered

variable {κ β : Type} [DecidableEq κ] {R : κ × β → κ × β → Prop}

/-- Associations with the same keys stay related if related values are put under one key. -/
theorem forall₂_put (hkey : ∀ p q, R p q → p.1 = q.1) {k : κ} {v w : β} (hvw : R (k, v) (k, w))
    {m m' : Ordered κ β} (h : List.Forall₂ R m m') : List.Forall₂ R (put k v m) (put k w m') := by
  induction h with
  | nil => exact .cons hvw .nil
  | @cons p q m m' hpq h ih =>
    obtain ⟨i, x⟩ := p
    obtain ⟨j, y⟩ := q
    obtain rfl : i = j := hkey _ _ hpq
    unfold put
    split
    · exact .cons hvw h
    · exact .cons hpq ih

theorem forall₂_ofList (hkey : ∀ p q, R p q → p.1 = q.1) {ps qs : List (κ × β)}
    (h : List.Forall₂ R ps qs) : List.Forall₂ R (ofList ps) (ofList qs) := by
  refine List.rel_foldl (fun m m' hm p q hpq => ?_) .nil h
  obtain ⟨k, v⟩ := p
  obtain ⟨j, w⟩ := q
  obtain rfl : k = j := hkey _ _ hpq
  exact forall₂_put hkey hpq hm

end SlideFlow.Ordered

namespace SlideFlow.Flow

open SlideFlow.Text

variable {ρ : Type}

/-! ## Nodes that are alike -/

/-- The identifiers of the nodes at one position of two flows. -/
def Twins (first second : List (Node String)) (s t : String) : Prop :=
  ∃ (i : Nat) (n m : Node String), first[i]? = some n ∧ second[i]? = some m ∧ n.id = s ∧ m.id = t

/-- Texts that are the same or name twins. -/
inductive SameText (twins : String → String → Prop) : RawText → RawText → Prop
  | same (s : RawText) : SameText twins s s
  | twin {s t : String} : twins s t → SameText twins s t

/-- Values of a property: the same, or texts that name twins, alone or in a list of texts. -/
inductive SameValue (twins : String → String → Prop) : Json → Json → Prop
  | same (v : Json) : SameValue twins v v
  | text {s t : RawText} : SameText twins s t → SameValue twins (.str s) (.str t)
  | texts {ss ts : List RawText} : List.Forall₂ (SameText twins) ss ts →
      SameValue twins (.arr (ss.map .str)) (.arr (ts.map .str))

/-- Members of the written forms of two nodes. -/
def SameMember (twins : String → String → Prop) (copied : Bool) (p q : RawText × Json) : Prop :=
  p.1 = q.1 ∧ (p.1 ∉ (["id", "wires"] : List RawText) → p.2 = q.2 ∨ copied = true ∧ SameValue twins p.2 q.2)

/-- Two nodes that differ in identifiers only. -/
structure Alike (twins : String → String → Prop) (n m : Node String) : Prop where
  id : twins n.id m.id
  type : n.type = m.type
  wires : List.Forall₂ (List.Forall₂ twins) n.wires m.wires
  copied : n.isCopy = m.isCopy
  written : ∃ members members', n.toJson = .obj members ∧ m.toJson = .obj members' ∧
    List.Forall₂ (SameMember twins n.isCopy) members members'

/-! ## Nodes under two renamings -/

def Ref.names : Ref ρ → List ρ
  | .text _ => []
  | .node r => [r]

def Property.names : Property ρ → List ρ
  | .value _ => []
  | .one r => r.names
  | .many rs => rs.flatMap Ref.names

/-- The names in the properties of a node. -/
def Node.mentioned (n : Node ρ) : List ρ :=
  match n.kind with
  | .copy properties => properties.flatMap fun p => p.2.names
  | _ => []

section Renaming

variable {twins : String → String → Prop} {f g : ρ → String}

theorem Ref.sameText_map {r : Ref ρ} (h : ∀ x ∈ r.names, twins (f x) (g x)) :
    SameText twins (r.map f).toText (r.map g).toText := by
  cases r with
  | text s => exact .same s
  | node x => exact .twin (h x (List.mem_singleton_self _))

theorem Property.sameValue_map {p : Property ρ} (h : ∀ x ∈ p.names, twins (f x) (g x)) :
    SameValue twins (p.map f).toJson (p.map g).toJson := by
  cases p with
  | value v => exact .same v
  | one r => exact .text (Ref.sameText_map h)
  | many rs =>
    have hrs : List.Forall₂ (SameText twins) ((rs.map (Ref.map f)).map Ref.toText)
        ((rs.map (Ref.map g)).map Ref.toText) := by
      simp only [List.map_map, List.forall₂_map_left_iff, List.forall₂_map_right_iff,
        List.forall₂_same]
      exact fun r hr => Ref.sameText_map fun x hx => h x (List.mem_flatMap.2 ⟨r, hr, hx⟩)
    simpa only [map, toJson, List.map_map, Function.comp_def] using SameValue.texts hrs

theorem Node.isCopy_map (n : Node ρ) (f : ρ → String) : (n.map f).isCopy = n.isCopy := by
  unfold isCopy map
  cases n.kind <;> rfl

theorem SameMember.refl (copied : Bool) (p : RawText × Json) : SameMember twins copied p p :=
  ⟨rfl, fun _ => Or.inl rfl⟩

/-- What a node does is written alike under two renamings. -/
theorem Node.details_map {n : Node ρ} (h : ∀ x ∈ n.mentioned, twins (f x) (g x)) :
    List.Forall₂ (SameMember twins n.isCopy) (n.map f).details (n.map g).details := by
  obtain ⟨id, type, name, wires, kind⟩ := n
  cases kind with
  | copy properties =>
    simp only [details, map, Kind.map, List.map_map, List.forall₂_map_left_iff,
      List.forall₂_map_right_iff, List.forall₂_same]
    intro p hp
    refine ⟨rfl, fun _ => Or.inr ⟨rfl, Property.sameValue_map fun x hx => h x ?_⟩⟩
    exact List.mem_flatMap.2 ⟨p, hp, hx⟩
  | _ =>
    simp only [details, map, Kind.map, List.length_map]
    exact List.forall₂_same.2 fun p _ => .refl _ p

/-- A node under two renamings, if the names that it mentions become twins. -/
theorem Node.alike_map {n : Node ρ} (hid : twins (f n.id) (g n.id))
    (htargets : ∀ x ∈ n.targets, twins (f x) (g x))
    (hmentioned : ∀ x ∈ n.mentioned, twins (f x) (g x)) : Alike twins (n.map f) (n.map g) := by
  refine ⟨hid, rfl, ?_, by rw [isCopy_map, isCopy_map], ?_⟩
  · simp only [map, List.forall₂_map_left_iff, List.forall₂_map_right_iff, List.forall₂_same]
    exact fun port hport x hx => htargets x (List.mem_flatten.2 ⟨port, hport, hx⟩)
  · refine ⟨_, _, rfl, rfl, ?_⟩
    rw [isCopy_map]
    -- the identifier and the wires may differ, all else is written alike
    have hkey : ∀ p q, SameMember twins n.isCopy p q → p.1 = q.1 := fun p q h => h.1
    have hid' : SameMember twins n.isCopy ("id", .str (f n.id)) ("id", .str (g n.id)) :=
      ⟨rfl, fun h => absurd (by simp) h⟩
    have hwires : SameMember twins n.isCopy ("wires", (n.map f).wiresJson)
        ("wires", (n.map g).wiresJson) := ⟨rfl, fun h => absurd (by simp) h⟩
    refine Ordered.forall₂_put hkey hwires (Ordered.forall₂_ofList hkey ?_)
    refine List.rel_append (.cons hid' (.cons (.refl _ _) ?_)) (details_map hmentioned)
    obtain ⟨id, type, name, wires, kind⟩ := n
    cases kind with
    | copy properties => exact .nil
    | _ => exact List.forall₂_same.2 fun p _ => .refl _ p

end Renaming

/-- The nodes at one position of a flow under two renamings are twins. -/
theorem twins_map {nodes : List (Node ρ)} (f g : ρ → String) {x : ρ} (hx : x ∈ nodes.map (·.id)) :
    Twins (nodes.map (Node.map f)) (nodes.map (Node.map g)) (f x) (g x) := by
  obtain ⟨n, hn, rfl⟩ := List.mem_map.1 hx
  obtain ⟨i, hi⟩ := List.mem_iff_getElem?.1 hn
  refine ⟨i, n.map f, n.map g, ?_, ?_, rfl, rfl⟩
  · rw [List.getElem?_map, hi]
    rfl
  · rw [List.getElem?_map, hi]
    rfl

/-- A flow under two renamings, if it mentions its own names only. -/
theorem alike_map {nodes : List (Node ρ)} (f g : ρ → String)
    (htargets : ∀ n ∈ nodes, ∀ x ∈ n.targets, x ∈ nodes.map (·.id))
    (hmentioned : ∀ n ∈ nodes, ∀ x ∈ n.mentioned, x ∈ nodes.map (·.id)) :
    List.Forall₂ (Alike (Twins (nodes.map (Node.map f)) (nodes.map (Node.map g))))
      (nodes.map (Node.map f)) (nodes.map (Node.map g)) := by
  rw [List.forall₂_map_left_iff, List.forall₂_map_right_iff, List.forall₂_same]
  intro n hn
  exact Node.alike_map (twins_map f g (List.mem_map_of_mem hn))
    (fun x hx => twins_map f g (htargets n hn x hx))
    (fun x hx => twins_map f g (hmentioned n hn x hx))

end SlideFlow.Flow

namespace SlideFlow.Compile

open SlideFlow.Deck SlideFlow.Files SlideFlow.Flow SlideFlow.Fragment SlideFlow.Ident

variable {ρ : Type}

/-! ## What a flow mentions -/

theorem mem_nodes_of_mem_chainNodes {back : ρ} {n : Node ρ} : ∀ {gs : List (GroupChart ρ)},
    n ∈ chainNodes back gs → ∃ g ∈ gs, ∃ next, n ∈ g.nodes next
  | g :: gs, h => by
    rcases List.mem_append.1 h with h | h
    · obtain ⟨g', hg', hn⟩ := mem_nodes_of_mem_chainNodes h
      exact ⟨g', List.mem_cons_of_mem _ hg', hn⟩
    · exact ⟨g, List.mem_cons_self .., _, h⟩

/-- A node of a group is generated or the copy of a node of the fragment of a branch. -/
theorem GroupChart.eq_copyNode {c : GroupChart ρ} {next : ρ} {n : Node ρ} (hn : n ∈ c.nodes next)
    (hcopy : n.isCopy = true) : ∃ b ∈ c.branches, ∃ p ∈ b.fragment.parts, n = b.copyNode p := by
  simp only [nodes, BranchChart.nodes, List.cons_append, List.mem_cons, List.mem_append,
    List.mem_flatMap, List.mem_map, List.not_mem_nil, or_false] at hn
  rcases hn with rfl | ⟨b, hb, ⟨p, hp, rfl⟩ | rfl⟩ | rfl
  · cases hcopy
  · exact ⟨b, hb, p, hp, rfl⟩
  · cases hcopy
  · cases hcopy

theorem FlowChart.eq_copyNode {c : FlowChart ρ} {route method : String} {n : Node ρ}
    (hn : n ∈ c.nodes route method) (hcopy : n.isCopy = true) :
    ∃ g ∈ c.groups, ∃ b ∈ g.branches, ∃ p ∈ b.fragment.parts, n = b.copyNode p := by
  simp only [nodes, ActivityChart.nodes, StepChart.nodes, List.cons_append, List.mem_cons,
    List.mem_append, List.mem_flatMap, List.not_mem_nil, or_false] at hn
  rcases hn with rfl | rfl | ⟨a, ha, rfl | ⟨s, hs, hn | rfl⟩ | rfl⟩ | rfl | rfl | rfl | rfl
  -- only groups hold copies
  any_goals cases hcopy
  obtain ⟨g, hg, next, hn⟩ := mem_nodes_of_mem_chainNodes hn
  exact ⟨g, List.mem_flatMap.2 ⟨a, ha, List.mem_flatMap.2 ⟨s, hs, List.mem_reverse.2 hg⟩⟩,
    g.eq_copyNode hn hcopy⟩

/-- A copy mentions nodes of the same copy. -/
theorem mem_names_propertyAs {known : List Text.RawText} {rename : Text.RawText → ρ} {v : Json} {x : ρ}
    (h : x ∈ (propertyAs known rename v).names) : x ∈ known.map rename := by
  have href : ∀ s, x ∈ (refAs known rename s).names → x ∈ known.map rename := by
    intro s hs
    unfold refAs at hs
    split at hs
    · rename_i hknown
      rw [List.mem_singleton.1 hs]
      exact List.mem_map_of_mem hknown
    · cases hs
  cases v with
  | str s => exact href s h
  | arr items =>
    simp only [propertyAs] at h
    cases htexts : allTexts? items with
    | none =>
      rw [htexts] at h
      cases h
    | some texts =>
      rw [htexts] at h
      obtain ⟨r, hr, hx⟩ := List.mem_flatMap.1 h
      obtain ⟨s, -, rfl⟩ := List.mem_map.1 hr
      exact href s hx
  | _ => cases h

theorem BranchChart.mentioned_copyNode (c : BranchChart ρ) (p : Part) :
    ∀ x ∈ (c.copyNode p).mentioned, x ∈ c.copy := by
  intro x hx
  have hplain : x ∈ (c.plainCopy p).mentioned := by
    unfold copyNode at hx
    split at hx
    · exact hx
    · exact hx
  obtain ⟨q, hq, hx⟩ := List.mem_flatMap.1 hplain
  obtain ⟨kv, -, rfl⟩ := List.mem_map.1 hq
  exact mem_names_propertyAs hx

/-- A flow mentions its own names only. -/
theorem FlowChart.nodes_mentioned (c : FlowChart ρ) (route method : String) :
    ∀ n ∈ c.nodes route method, ∀ x ∈ n.mentioned, x ∈ c.names := by
  intro n hn x hx
  have hcopy : n.isCopy = true := by
    unfold Node.mentioned at hx
    unfold Node.isCopy
    cases hkind : n.kind with
    | copy properties => rfl
    | _ =>
      rw [hkind] at hx
      cases hx
  obtain ⟨g, hg, b, hb, p, -, rfl⟩ := c.eq_copyNode hn hcopy
  have hids : x ∈ ((c.nodes route method).filter Node.isCopy).map (·.id) := by
    rw [c.copies_nodes]
    exact List.mem_flatMap.2 ⟨g, hg, List.mem_flatMap.2 ⟨b, hb, b.mentioned_copyNode p x hx⟩⟩
  obtain ⟨m, hm, rfl⟩ := List.mem_map.1 hids
  exact c.ids_nodes route method ▸ List.mem_map_of_mem (List.mem_filter.1 hm).1

/-! ## Compiling twice -/

variable {σ τ : Type} [Source σ] [Source τ]

/-- A pool has identifiers for every node of the flow of some activities. -/
def Suffices (pool : Pool σ) (options : Options) (files : Tree) (activities : List Activity) : Prop :=
  ∀ plan, ((options.library files).plan activities).result = .ok plan →
    pool.nexts (layout options.route options.method plan).length ≠ none

theorem suffices_of_compile {options : Options} {files : Tree} {pool : Pool σ}
    {activities : List Activity} {nodes : List (Node String)}
    (h : (compile options files pool activities).result = .ok nodes) :
    Suffices pool options files activities := by
  intro plan hplan hnone
  rw [length_layout] at hnone
  rw [result_compile, hplan] at h
  simp only [bind, Except.bind, hnone] at h
  cases h

/-- A pool that suffices puts a plan under different identifiers. -/
theorem Suffices.compile_eq {options : Options} {files : Tree} {pool : Pool σ}
    {activities : List Activity} (h : Suffices pool options files activities)
    {plan : List ActivityPlan} (hplan : ((options.library files).plan activities).result = .ok plan) :
    ∃ name : Nat → String, ((flowChart plan).map name).names.Nodup ∧
      (compile options files pool activities).result =
        .ok (((flowChart plan).nodes options.route options.method).map (Node.map name)) := by
  have hfail := failure?_compile h
  rw [hplan] at hfail
  obtain ⟨nodes, hnodes⟩ := failure?_eq_none_iff.1 hfail
  obtain ⟨plan', name, hplan', rfl, hnodup⟩ := compile_eq_ok hnodes
  rw [hplan] at hplan'
  cases hplan'
  exact ⟨name, hnodup, by rw [hnodes, FlowChart.nodes_map]⟩

/-- Compiling again changes identifiers only, whatever the pools are, as long as they have identifiers
for all nodes. Either both runs fail with the same error, or both give flows of the same length whose
nodes are alike, position by position: wired to twins, with the same members in the same order, and
with the same values but for the identifiers. -/
theorem recompiling_changes_identifiers (options : Options) (files : Tree) (pool : Pool σ)
    (pool' : Pool τ) (activities : List Activity) (hids : Suffices pool options files activities)
    (hids' : Suffices pool' options files activities) :
    (∃ e, (compile options files pool activities).result = .error e ∧
      (compile options files pool' activities).result = .error e) ∨
    ∃ first second, (compile options files pool activities).result = .ok first ∧
      (compile options files pool' activities).result = .ok second ∧
      (first.map (·.id)).Nodup ∧ (second.map (·.id)).Nodup ∧
      List.Forall₂ (Alike (Twins first second)) first second := by
  cases hplan : ((options.library files).plan activities).result with
  | error e =>
    left
    refine ⟨e, ?_, ?_⟩
    · rw [result_compile, hplan]
      rfl
    · rw [result_compile, hplan]
      rfl
  | ok plan =>
    right
    obtain ⟨name, hnodup, hfirst⟩ := hids.compile_eq hplan
    obtain ⟨name', hnodup', hsecond⟩ := hids'.compile_eq hplan
    have hnames : ∀ f : Nat → String, (((flowChart plan).nodes options.route options.method).map
        (Node.map f)).map (·.id) = ((flowChart plan).map f).names := fun f => by
      rw [← FlowChart.nodes_map, FlowChart.ids_nodes]
    refine ⟨_, _, hfirst, hsecond, by rwa [hnames], by rwa [hnames], alike_map name name' ?_ ?_⟩
    · rw [FlowChart.ids_nodes]
      exact (flowChart plan).nodes_targets options.route options.method
    · rw [FlowChart.ids_nodes]
      exact (flowChart plan).nodes_mentioned options.route options.method

/-- The files of the lamp and the bell, with a lamp whose entry mentions its nodes. -/
def linkFiles : Tree := filesWithLamp
  ("\x7b\"meta\":\x7b\"in\":\"a\",\"out\":\"b\"\x7d,\"flow\":[" ++
    "\x7b\"id\":\"a\",\"type\":\"t\",\"link\":\"b\",\"scope\":[\"a\",\"x\"]," ++
    "\"wires\":[[\"b\"]]\x7d,\x7b\"id\":\"b\",\"type\":\"t\"\x7d]\x7d")

/-- Identifiers from a twister with other words. -/
def otherPool : Pool Twister :=
  .ofSource { block := (Array.range 64).map fun i => UInt32.ofNat (i + 64), used := 0 }

/-- Two flows of the lamp and the bell with different identifiers. -/
theorem recompiling_changes_identifiers_lampDeck :
    ∃ first second, (compile lampOptions linkFiles lampPool lampDeck).result = .ok first ∧
      (compile lampOptions linkFiles otherPool lampDeck).result = .ok second ∧
      first.map (·.id) ≠ second.map (·.id) ∧
      List.Forall₂ (Alike (Twins first second)) first second := by
  have hcheck : (match (compile lampOptions linkFiles lampPool lampDeck).result,
        (compile lampOptions linkFiles otherPool lampDeck).result with
      | .ok first, .ok second => decide (first.map (·.id) ≠ second.map (·.id))
      | _, _ => false) = true := by decide +kernel
  split at hcheck
  · rename_i first second hfirst hsecond
    have hids := suffices_of_compile hfirst
    have hids' := suffices_of_compile hsecond
    rcases recompiling_changes_identifiers lampOptions linkFiles lampPool otherPool lampDeck hids hids'
      with ⟨e, he, -⟩ | ⟨first', second', hfirst', hsecond', -, -, halike⟩
    · rw [hfirst] at he
      cases he
    · rw [hfirst] at hfirst'
      rw [hsecond] at hsecond'
      cases hfirst'
      cases hsecond'
      exact ⟨first, second, hfirst, hsecond, of_decide_eq_true hcheck, halike⟩
  · cases hcheck

end SlideFlow.Compile
