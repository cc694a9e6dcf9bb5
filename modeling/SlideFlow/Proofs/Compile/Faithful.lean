/-
Compiled flows as values. If the properties in the fragments are free of numbers with a fraction, the
written form of a compiled flow is faithful (`faithful_flowJson`). The properties were read from files,
so they are tidy, and new names do not change that. The only numbers that compiling adds are counts of
outputs. A flow has at least as many nodes as any of its nodes has outputs, every node has an
identifier of its own, and identifiers are short, so a count is never too long to be read. If the
fragments hold no half of a character, neither does the written form (`whole_flowJson`); in any case it
lists the nodes one by one, as `Node.Written` says (`written_flowJson`).
-/
import SlideFlow.Compile.Document
import SlideFlow.Proofs.Compile.Cycles
import SlideFlow.Proofs.Compile.Reach
import SlideFlow.Proofs.Compile.Recompile
import SlideFlow.Proofs.Flow.Splice
import SlideFlow.Proofs.Ident.Form
import SlideFlow.Proofs.Json.Whole
import Mathlib.Data.Fintype.BigOperators
import Mathlib.Data.Fintype.List

namespace SlideFlow.Ident

open SlideFlow.Text

/-! ## How many identifiers there are -/

theorem WellFormed.length {id : String} (h : WellFormed id) : id.toList.length = 15 := by
  obtain ⟨high, low, hid, hhigh, -, hlow, -⟩ := h
  rw [hid, List.length_append, List.length_cons, hhigh, hlow]

theorem WellFormed.toNat_lt {id : String} (h : WellFormed id) : ∀ c ∈ id.toList, c.toNat < 128 := by
  obtain ⟨high, low, hid, -, hhigh, -, hlow, -⟩ := h
  intro c hc
  rw [hid, List.mem_append, List.mem_cons] at hc
  rcases hc with hc | rfl | hc
  · have := toNat_of_isLowerHex (hhigh c hc)
    omega
  · decide
  · have := toNat_of_isLowerHex (hlow c hc)
    omega

/-- The codes of the characters of an identifier. -/
def codes (id : String) (i : Fin 15) : Fin 128 := Fin.ofNat 128 (id.toList.getD i '0').toNat

theorem codes_injective {id id' : String} (h : WellFormed id) (h' : WellFormed id')
    (heq : codes id = codes id') : id = id' := by
  apply String.toList_injective
  apply List.ext_getElem (h.length.trans h'.length.symm)
  intro i hi hi'
  have hcode := congrArg Fin.val (congrFun heq ⟨i, h.length ▸ hi⟩)
  simp only [codes, Fin.val_ofNat, List.getD_eq_getElem?_getD, List.getElem?_eq_getElem hi,
    List.getElem?_eq_getElem hi', Option.getD_some] at hcode
  rw [Nat.mod_eq_of_lt (h.toNat_lt _ (List.getElem_mem hi)),
    Nat.mod_eq_of_lt (h'.toNat_lt _ (List.getElem_mem hi'))] at hcode
  exact Char.toNat_inj.1 hcode

/-- Identifiers that are all different are so few that their number can be read. -/
theorem length_lt_of_wellFormed {ids : List String} (hnodup : ids.Nodup)
    (hform : ∀ id ∈ ids, WellFormed id) : ids.length < Nat.pow 10 Number.maxDigits := by
  have hcodes : (ids.map codes).Nodup := by
    refine hnodup.map_on fun id hid id' hid' heq => ?_
    exact codes_injective (hform id hid) (hform id' hid') heq
  have hcard := hcodes.length_le_card
  rw [List.length_map, Fintype.card_fun, Fintype.card_fin, Fintype.card_fin] at hcard
  have hpow : ∀ k, 32 ≤ k → 128 ^ 15 < Nat.pow 10 k := fun k hk =>
    Nat.lt_of_lt_of_le (by decide : 128 ^ 15 < Nat.pow 10 32) (Nat.pow_le_pow_right (by decide) hk)
  exact Nat.lt_of_le_of_lt hcard (hpow _ (by decide))

end SlideFlow.Ident

namespace SlideFlow.Flow

open SlideFlow.Json SlideFlow.Number SlideFlow.Text SlideFlow.Text.RawText

variable {ρ : Type}

/-! ## Nodes as values -/

namespace Node

/-- The number of outputs that a node shows. -/
def outputs (n : Node ρ) : Nat :=
  match n.kind with
  | .function _ | .join _ _ => max n.wires.length 1
  | .switch _ _ rules _ => rules.length
  | _ => 0

variable {P : RawText × Json → Prop} {n : Node String}

/-- What holds of texts, of the number of outputs, of rules and of properties holds of everything that
belongs to the kind of a node. -/
theorem forall_mem_details (htext : ∀ key s : String, P (key, .str s))
    (houtputs : P ("outputs", .int n.outputs))
    (hrules : ∀ rules : List Int, P ("rules", .arr (rules.map ruleJson)))
    (hproperties : ∀ p ∈ n.properties, P (p.1, p.2.toJson)) : ∀ m ∈ n.details, P m := by
  obtain ⟨id, type, name, wires, kind⟩ := n
  intro m hm
  have hports : ((max wires.length 1 : Nat) : Int) = max (wires.length : Int) 1 := by omega
  cases kind with
  | bare => cases hm
  | httpResponse => cases hm
  | function script =>
    simp only [details, List.mem_cons, List.not_mem_nil, or_false] at hm
    rcases hm with rfl | rfl
    · exact htext _ script
    · exact hports ▸ houtputs
  | join script topics =>
    simp only [details, List.mem_cons, List.not_mem_nil, or_false] at hm
    rcases hm with rfl | rfl
    · exact htext _ script
    · exact hports ▸ houtputs
  | switch property scope rules all =>
    simp only [details, List.mem_cons, List.not_mem_nil, or_false] at hm
    rcases hm with rfl | rfl | rfl | rfl | rfl
    · exact htext _ property
    · exact htext _ scope
    · exact hrules rules
    · cases all
      · exact htext _ "false"
      · exact htext _ "true"
    · exact houtputs
  | httpIn url method =>
    simp only [details, List.mem_cons, List.not_mem_nil, or_false] at hm
    rcases hm with rfl | rfl
    · exact htext _ url
    · exact htext _ method
  | copy properties =>
    obtain ⟨p, hp, rfl⟩ := List.mem_map.1 hm
    exact hproperties p hp

/-- A node is written as an object; a member that comes twice is written once. What holds of its type,
its wires, other texts and its details holds of all its members. -/
theorem forall_mem_toJson (htype : P ("type", .str n.type)) (hwires : P ("wires", n.wiresJson))
    (htext : ∀ key s : String, P (key, .str s)) (hdetails : ∀ m ∈ n.details, P m) :
    ∃ members, n.toJson = .obj members ∧ (Ordered.keys members).Nodup ∧ ∀ m ∈ members, P m := by
  refine ⟨_, rfl, Ordered.nodup_keys_put _ _ (Ordered.nodup_keys_ofList _),
    Ordered.forall_mem_put (Ordered.forall_mem_ofList fun m hm => ?_) hwires⟩
  rcases List.mem_append.1 hm with hm | hm
  · rcases List.mem_append.1 hm with hm | hm
    · simp only [List.mem_cons, List.not_mem_nil, or_false] at hm
      rcases hm with rfl | rfl
      · exact htext _ n.id
      · exact htype
    · split at hm
      · cases hm
      · split at hm
        · cases hm
        · rw [List.mem_singleton.1 hm]
          exact htext _ n.name
  · exact hdetails m hm

end Node

/-! ## Faithful nodes -/

theorem faithful_ruleJson (value : Int) : Faithful (ruleJson value) := by
  refine .obj (by decide : (["t", "v", "vt"] : List RawText).Nodup) fun m hm => ?_
  simp only [List.mem_cons, List.not_mem_nil, or_false] at hm
  rcases hm with rfl | rfl | rfl <;> exact .str _

/-- The written form of a node is faithful if its number of outputs can be read and its properties are
faithful. -/
theorem Node.faithful_toJson {n : Node String} (houtputs : Readable (n.outputs : Nat))
    (hproperties : ∀ p ∈ n.properties, Faithful p.2.toJson) : Faithful n.toJson := by
  have hwires : Faithful n.wiresJson := by
    refine .arr fun v hv => ?_
    obtain ⟨port, -, rfl⟩ := List.mem_map.1 hv
    refine .arr fun v hv => ?_
    obtain ⟨id, -, rfl⟩ := List.mem_map.1 hv
    exact .str id
  have hrules : ∀ rules : List Int, Faithful (.arr (rules.map ruleJson)) := by
    refine fun rules => .arr fun v hv => ?_
    obtain ⟨value, -, rfl⟩ := List.mem_map.1 hv
    exact faithful_ruleJson value
  obtain ⟨members, hmembers, hkeys, hvalues⟩ := forall_mem_toJson (P := fun m => Faithful m.2)
    (.str n.type) hwires (fun _ s => .str s)
    (forall_mem_details (fun _ s => .str s) (.int houtputs) hrules hproperties)
  rw [hmembers]
  exact .obj hkeys hvalues

/-! ## Nodes without halves of characters -/

theorem whole_text (s : String) : Whole (.str s) := .str (isWhole_ofString s)

theorem whole_ruleJson (value : Int) : Whole (ruleJson value) := by
  refine .obj (fun m hm => ?_) fun m hm => ?_ <;>
    simp only [List.mem_cons, List.not_mem_nil, or_false] at hm
  · rcases hm with rfl | rfl | rfl <;> exact isWhole_ofString _
  · rcases hm with rfl | rfl | rfl <;> exact whole_text _

/-- The only halves of characters that a node can show are in its type and in its properties. -/
theorem Node.whole_toJson {n : Node String} (htype : IsWhole n.type)
    (hproperties : ∀ p ∈ n.properties, IsWhole p.1 ∧ Whole p.2.toJson) : Whole n.toJson := by
  have hwires : Whole n.wiresJson := by
    refine .arr fun v hv => ?_
    obtain ⟨port, -, rfl⟩ := List.mem_map.1 hv
    refine .arr fun v hv => ?_
    obtain ⟨id, -, rfl⟩ := List.mem_map.1 hv
    exact whole_text id
  have hrules : ∀ rules : List Int, Whole (.arr (rules.map ruleJson)) := by
    refine fun rules => .arr fun v hv => ?_
    obtain ⟨value, -, rfl⟩ := List.mem_map.1 hv
    exact whole_ruleJson value
  have htext : ∀ key s : String, IsWhole (key : RawText) ∧ Whole (.str s) := fun key s =>
    ⟨isWhole_ofString key, whole_text s⟩
  obtain ⟨members, hmembers, -, hall⟩ := forall_mem_toJson (P := fun m => IsWhole m.1 ∧ Whole m.2)
    ⟨isWhole_ofString _, .str htype⟩ ⟨isWhole_ofString _, hwires⟩ htext
    (forall_mem_details htext ⟨isWhole_ofString _, .int _⟩
      (fun rules => ⟨isWhole_ofString _, hrules rules⟩) hproperties)
  rw [hmembers]
  exact .obj (fun m hm => (hall m hm).1) fun m hm => (hall m hm).2

end SlideFlow.Flow

namespace SlideFlow.Fragment

open SlideFlow.Files SlideFlow.Flow SlideFlow.Json

/-! ## Fragments as values -/

/-- What holds of new names and, item by item, of lists is not lost by new names. -/
theorem holds_renameValue {P : Json → Prop} (htext : ∀ s : String, P (.str s))
    (harr : ∀ items, P (.arr items) ↔ ∀ v ∈ items, P v) {v : Json} (h : P v)
    (known : List Text.RawText) (rename : Text.RawText → String) : P (renameValue known rename v) := by
  have hrename : ∀ {u : Json}, P u → P (renameText known rename u) := by
    intro u hu
    cases u with
    | str s =>
      by_cases hs : s ∈ known
      · rw [renameText, if_pos hs]
        exact htext _
      · rw [renameText, if_neg hs]
        exact hu
    | _ => exact hu
  cases v with
  | arr items =>
    unfold renameValue
    simp only
    split
    · refine (harr _).2 fun u hu => ?_
      obtain ⟨w, hw, rfl⟩ := List.mem_map.1 hu
      exact hrename ((harr items).1 h w hw)
    · exact h
  | _ => exact hrename h

theorem faithful_renameValue {v : Json} (h : Faithful v) (known : List Text.RawText)
    (rename : Text.RawText → String) : Faithful (renameValue known rename v) := by
  refine holds_renameValue (fun s => .str s) (fun items => ⟨?_, .arr⟩) h known rename
  rintro ⟨⟩
  assumption

theorem whole_renameValue {v : Json} (h : Whole v) (known : List Text.RawText)
    (rename : Text.RawText → String) : Whole (renameValue known rename v) := by
  refine holds_renameValue whole_text (fun items => ⟨?_, .arr⟩) h known rename
  rintro ⟨⟩
  assumption

theorem tidy_of_readJson {files : Tree} {path : String} {v : Json}
    (h : files.readJson path = .ok v) : Tidy (fun _ => True) v := by
  obtain ⟨text, -, h⟩ := bind_eq_ok_iff.1 h
  split at h
  · rename_i hread
    cases h
    exact tidy_of_read hread
  · cases h
  · cases h

theorem Describes.tidy {v : Json} {f : Fragment} (h : Describes v f) (hv : Tidy (fun _ => True) v) :
    ∀ p ∈ f.parts, Tidy (fun _ => True) (.obj p.members) := by
  obtain ⟨members, rfl⟩ : ∃ members, v = .obj members := by
    cases v with
    | obj members => exact ⟨members, rfl⟩
    | _ => cases h.flow
  intro p hp
  cases hv with
  | obj _ hmembers =>
    cases hmembers _ (Ordered.mem_of_get? h.flow) with
    | arr hitems => exact hitems _ (List.mem_map_of_mem hp)

/-- What a fragment holds is tidy, since it was read from a file. -/
theorem tidy_of_load {files : Tree} {path : Path} {f : Fragment}
    (h : (load files path).result = .ok f) : ∀ p ∈ f.parts, Tidy (fun _ => True) (.obj p.members) := by
  unfold load at h
  simp only at h
  split at h
  · cases h
  · rename_i v hread
    rw [Logged.result_bind, Logged.result_report] at h
    exact (describes_of_ofJson (ofJson_of_validate h)).tidy (tidy_of_readJson hread)

/-- The keys of the properties of a tidy node stand once each, and none is a key that copies have of
their own. -/
theorem Part.keys_properties {p : Part} (h : Tidy (fun _ => True) (.obj p.members)) :
    (Ordered.keys p.properties).Nodup ∧ ∀ key ∈ Ordered.keys p.properties, key ∉ ownKeys := by
  cases h with
  | obj hkeys _ =>
    refine ⟨hkeys.sublist (List.filter_sublist.map _), fun key hkey => ?_⟩
    obtain ⟨m, hm, rfl⟩ := List.mem_map.1 hkey
    have hfilter := (List.mem_filter.1 hm).2
    simpa using hfilter

end SlideFlow.Fragment

namespace SlideFlow.Compile

open SlideFlow.Deck SlideFlow.Files SlideFlow.Flow SlideFlow.Fragment SlideFlow.Ident SlideFlow.Json
  SlideFlow.Number SlideFlow.Text.RawText

variable {ρ : Type}

/-! ## Counts of outputs -/

theorem BranchChart.outputs_copyNode (c : BranchChart ρ) (p : Part) :
    (c.copyNode p).outputs = 0 := by
  obtain ⟨properties, hkind⟩ := c.copyNode_kind p
  rw [Node.outputs, hkind]

/-- No node of a group has more outputs than the group has names. -/
theorem GroupChart.outputs_le (c : GroupChart ρ) {next : ρ} {n : Node ρ} (hn : n ∈ c.nodes next) :
    n.outputs ≤ c.names.length := by
  have hbranches : c.branches.length ≤ (c.branches.flatMap BranchChart.names).length :=
    length_le_length_flatMap fun b _ => by simp [BranchChart.names]
  have hlength : c.names.length = (c.branches.flatMap BranchChart.names).length + 2 := by
    simp [names]
  simp only [nodes, BranchChart.nodes, List.cons_append, List.mem_cons, List.mem_append,
    List.mem_flatMap, List.mem_map, List.not_mem_nil, or_false] at hn
  rcases hn with rfl | ⟨b, hb, ⟨p, hp, rfl⟩ | rfl⟩ | rfl
  · show 1 ≤ c.names.length
    omega
  · rw [b.outputs_copyNode]
    omega
  · show 1 ≤ c.names.length
    omega
  · have hports : c.fanOutWires.length ≤ max c.branches.length 1 := by
      unfold fanOutWires
      split
      · simp
      · simp
    show max c.fanOutWires.length 1 ≤ c.names.length
    omega

theorem outputs_selector (id : ρ) (property name : String) (targets : List ρ) :
    (Node.selector id property name targets).outputs = targets.length := by
  simp [Node.outputs, Node.selector]

/-- No node of a flow has more outputs than the flow has names. -/
theorem FlowChart.outputs_le (c : FlowChart ρ) {route method : String} {n : Node ρ}
    (hn : n ∈ c.nodes route method) : n.outputs ≤ c.names.length := by
  have hlength : c.names.length = (c.activities.flatMap ActivityChart.names).length + 6 := by
    simp [names]
  simp only [nodes, ActivityChart.nodes, StepChart.nodes, List.cons_append, List.mem_cons,
    List.mem_append, List.mem_flatMap, List.not_mem_nil, or_false] at hn
  have hone : 1 ≤ c.names.length := by omega
  rcases hn with rfl | rfl | ⟨a, ha, rfl | ⟨s, hs, hn | rfl⟩ | rfl⟩ | rfl | rfl | rfl | rfl
  · exact Nat.zero_le _
  · exact hone
  · exact hone
  · obtain ⟨g, hg, next, hn⟩ := mem_nodes_of_mem_chainNodes hn
    have hgroup : g ∈ c.groups :=
      List.mem_flatMap.2 ⟨a, ha, List.mem_flatMap.2 ⟨s, hs, List.mem_reverse.2 hg⟩⟩
    exact (g.outputs_le hn).trans (c.names_group_sublist hgroup).length_le
  · exact hone
  · -- a switch over steps has an output for each of them
    have hsteps : a.steps.length ≤ (a.steps.flatMap StepChart.names).length :=
      length_le_length_flatMap fun s _ => by simp [StepChart.names]
    have hactivity : a.names.length ≤ (c.activities.flatMap ActivityChart.names).length := by
      rw [List.flatMap_def]
      exact (List.sublist_flatten_of_mem (List.mem_map_of_mem ha)).length_le
    have hnames : a.names.length = (a.steps.flatMap StepChart.names).length + 2 := by
      simp [ActivityChart.names]
    rw [ActivityChart.switchNode, outputs_selector, List.length_map]
    omega
  · exact hone
  · -- the switch over activities has one more, for the end
    have hactivities : c.activities.length ≤ (c.activities.flatMap ActivityChart.names).length :=
      length_le_length_flatMap fun a _ => by simp [ActivityChart.names]
    rw [switchNode, outputs_selector, List.length_append, List.length_map, List.length_singleton]
    omega
  · exact hone
  · exact Nat.zero_le _

/-! ## Types of generated nodes -/

theorem GroupChart.isWhole_type {c : GroupChart ρ} {next : ρ} {n : Node ρ} (hn : n ∈ c.nodes next)
    (hmade : n.isCopy = false) : n.type.IsWhole := by
  simp only [nodes, BranchChart.nodes, List.cons_append, List.mem_cons, List.mem_append,
    List.mem_flatMap, List.mem_map, List.not_mem_nil, or_false] at hn
  rcases hn with rfl | ⟨b, hb, ⟨p, hp, rfl⟩ | rfl⟩ | rfl
  · exact isWhole_ofString "function"
  · obtain ⟨properties, hkind⟩ := b.copyNode_kind p
    rw [Node.isCopy, hkind] at hmade
    cases hmade
  · exact isWhole_ofString "function"
  · exact isWhole_ofString "function"

theorem FlowChart.isWhole_type {c : FlowChart ρ} {route method : String} {n : Node ρ}
    (hn : n ∈ c.nodes route method) (hmade : n.isCopy = false) : n.type.IsWhole := by
  simp only [nodes, ActivityChart.nodes, StepChart.nodes, List.cons_append, List.mem_cons,
    List.mem_append, List.mem_flatMap, List.not_mem_nil, or_false] at hn
  rcases hn with rfl | rfl | ⟨a, ha, rfl | ⟨s, hs, hn | rfl⟩ | rfl⟩ | rfl | rfl | rfl | rfl
  · exact isWhole_ofString "http response"
  · exact isWhole_ofString "function"
  · exact isWhole_ofString "function"
  · obtain ⟨g, hg, next, hn⟩ := mem_nodes_of_mem_chainNodes hn
    exact GroupChart.isWhole_type hn hmade
  · exact isWhole_ofString "function"
  · exact isWhole_ofString "switch"
  · exact isWhole_ofString "function"
  · exact isWhole_ofString "switch"
  · exact isWhole_ofString "function"
  · exact isWhole_ofString "http in"

/-! ## Compiled flows -/

variable {σ : Type} [Source σ] {options : Options} {files : Tree} {pool : Pool σ}
variable {activities : List Activity} {nodes : List (Node String)}

/-- The number of nodes of a compiled flow can be read. -/
theorem length_lt_of_compile (h : (compile options files pool activities).result = .ok nodes) :
    nodes.length < Nat.pow 10 maxDigits := by
  obtain ⟨plan, ids, pool', name, -, hd, rfl, hnames⟩ := compile_drawn h
  have hids := ((flowChart plan).map name).ids_nodes options.route options.method
  have hlength := congrArg List.length (hids.trans hnames)
  rw [List.length_map] at hlength
  rw [hlength]
  exact length_lt_of_wellFormed (Pool.nexts_fresh hd).nodup (Pool.nexts_wellFormed hd)

theorem BranchChart.properties_copyNode (c : BranchChart String) (p : Part) :
    (c.copyNode p).properties = p.properties.map fun m =>
      (m.1, propertyAs (Fragment.names c.fragment.parts) c.rename m.2) := by
  unfold copyNode
  split <;> rfl

/-- A copied node has the type of a node of a fragment that was loaded, and its properties are those of
that node, under new names. -/
theorem FlowChart.Charts.copied {c : FlowChart String} (hc : c.Charts options files activities nodes)
    {n : Node String} (hn : n ∈ c.nodes options.route options.method) (hcopy : n.isCopy = true) :
    ∃ b ∈ (options.library files).loads activities, ∃ f, (options.library files).load b = .ok f ∧
      ∃ p ∈ f.parts, n.type = p.type ∧ ∃ (known : List Text.RawText) (rename : Text.RawText → String),
        n.properties = p.properties.map fun m => (m.1, propertyAs known rename m.2) := by
  obtain ⟨g, hg, b, hb, p, hp, rfl⟩ := FlowChart.eq_copyNode hn hcopy
  obtain ⟨b', hb', hload⟩ := hc.exists_load hg hb
  refine ⟨b', hb', b.fragment, hload, p, hp, ?_, _, _, b.properties_copyNode p⟩
  unfold BranchChart.copyNode
  split <;> rfl

/-- A compiled flow is faithful if the properties in its fragments are. -/
theorem faithful_flowJson (h : (compile options files pool activities).result = .ok nodes)
    (hfree : ∀ b ∈ (options.library files).loads activities, ∀ f,
      (options.library files).load b = .ok f → ∀ p ∈ f.parts, ∀ m ∈ p.properties,
        m.2.floatFree = true) :
    Faithful (flowJson nodes) := by
  have hfew := length_lt_of_compile h
  obtain ⟨c, hc, rfl⟩ := compile_charts h
  refine .arr fun v hv => ?_
  obtain ⟨n, hn, rfl⟩ := List.mem_map.1 hv
  refine Node.faithful_toJson ?_ fun q hq => ?_
  · rw [readable_natCast_iff]
    have hnames : c.names.length = (c.nodes options.route options.method).length := by
      rw [← hc.names, List.length_map]
    exact Nat.lt_of_le_of_lt (hnames ▸ c.outputs_le hn) hfew
  · have hcopy : n.isCopy = true := by
      by_contra hmade
      rw [Node.properties_eq_nil (Bool.not_eq_true _ ▸ hmade)] at hq
      cases hq
    obtain ⟨b, hb, f, hload, p, hp, -, known, rename, hproperties⟩ := hc.copied hn hcopy
    rw [hproperties] at hq
    obtain ⟨m, hm, rfl⟩ := List.mem_map.1 hq
    rw [toJson_propertyAs]
    cases tidy_of_load hload p hp with
    | obj _ hmembers =>
      have htidy := hmembers m (List.mem_filter.1 hm).1
      exact faithful_renameValue (htidy.faithful (hfree b hb f hload p hp m hm)) known rename

/-- A compiled flow holds no half of a character if the types and properties in its fragments hold
none. -/
theorem whole_flowJson (h : (compile options files pool activities).result = .ok nodes)
    (hwhole : ∀ b ∈ (options.library files).loads activities, ∀ f,
      (options.library files).load b = .ok f → ∀ p ∈ f.parts,
        p.type.IsWhole ∧ ∀ m ∈ p.properties, m.1.IsWhole ∧ Whole m.2) :
    Whole (flowJson nodes) := by
  obtain ⟨c, hc, rfl⟩ := compile_charts h
  refine .arr fun v hv => ?_
  obtain ⟨n, hn, rfl⟩ := List.mem_map.1 hv
  cases hcopy : n.isCopy with
  | false =>
    refine Node.whole_toJson (FlowChart.isWhole_type hn hcopy) fun q hq => ?_
    rw [Node.properties_eq_nil hcopy] at hq
    cases hq
  | true =>
    obtain ⟨b, hb, f, hload, p, hp, htype, known, rename, hproperties⟩ := hc.copied hn hcopy
    obtain ⟨hwholeType, hmembers⟩ := hwhole b hb f hload p hp
    refine Node.whole_toJson (htype ▸ hwholeType) fun q hq => ?_
    rw [hproperties] at hq
    obtain ⟨m, hm, rfl⟩ := List.mem_map.1 hq
    rw [toJson_propertyAs]
    exact ⟨(hmembers m hm).1, whole_renameValue (hmembers m hm).2 known rename⟩

/-- A compiled flow is written as a list with one object for each node, in order. -/
theorem written_flowJson (h : (compile options files pool activities).result = .ok nodes) :
    ∃ items, flowJson nodes = .arr items ∧ List.Forall₂ Node.Written nodes items := by
  obtain ⟨c, hc, rfl⟩ := compile_charts h
  refine ⟨_, rfl, ?_⟩
  rw [List.forall₂_map_right_iff, List.forall₂_same]
  intro n hn
  have hkeys : (Ordered.keys n.properties).Nodup ∧
      ∀ key ∈ Ordered.keys n.properties, key ∉ Part.ownKeys := by
    cases hcopy : n.isCopy with
    | false =>
      rw [Node.properties_eq_nil hcopy]
      exact ⟨List.nodup_nil, fun key hkey => absurd hkey List.not_mem_nil⟩
    | true =>
      obtain ⟨b, -, f, hload, p, hp, -, known, rename, hproperties⟩ := hc.copied hn hcopy
      have hsame : Ordered.keys n.properties = Ordered.keys p.properties := by
        rw [hproperties, Ordered.keys, List.map_map]
        rfl
      rw [hsame]
      exact Part.keys_properties (tidy_of_load hload p hp)
  refine Node.written_toJson hkeys.1 fun key hkey hown => hkeys.2 key hkey ?_
  simp only [List.mem_cons, List.not_mem_nil, or_false] at hown
  rcases hown with rfl | rfl | rfl <;> decide

end SlideFlow.Compile
