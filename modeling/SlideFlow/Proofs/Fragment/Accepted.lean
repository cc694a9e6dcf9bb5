/-
Which values are accepted as fragments. What a fragment has to look like is said here of JSON values
alone (`WellFormed`), without the schema, the order of the checks or the type of fragments; a value
is accepted exactly if it looks like that, and every other one is refused with a fault of a fragment
(`validate_accepts_exactly`).
-/
import SlideFlow.Proofs.Fragment.Shape

namespace SlideFlow.Fragment

open SlideFlow.Schema SlideFlow.Text

/-! ## Well-formed values -/

/-- A value that is a node with a name, wired to names port by port. Only an object has members. -/
structure IsNode (item : Json) (id : RawText) (ports : List (List RawText)) : Prop where
  id : item.get? "id" = some (.str id)
  type : ∃ type, item.get? "type" = some (.str type)
  wires : item.get? "wires" = some (wiresValue ports) ∨ item.get? "wires" = none ∧ ports = []

/-- Names that are pairwise distinct, among them those of the entry, of the exit and of every end of
a wire. -/
structure Closed (nodes : List (RawText × List (List RawText))) (entry exit : RawText) : Prop where
  nodup : (nodes.map (·.1)).Nodup
  entry : entry ∈ nodes.map (·.1)
  exit : exit ∈ nodes.map (·.1)
  targets : ∀ node ∈ nodes, ∀ port ∈ node.2, ∀ target ∈ port, target ∈ nodes.map (·.1)

/-- A value that is a fragment with an entry, an exit and a list of nodes. -/
structure WellFormed (v : Json) (entry exit : RawText) (flow : List Json) : Prop where
  markerIn : (v.get? "meta").bind (Json.get? "in") = some (.str entry)
  markerOut : (v.get? "meta").bind (Json.get? "out") = some (.str exit)
  listed : v.get? "flow" = some (.arr flow)
  nodes : ∃ nodes : List (RawText × List (List RawText)),
    List.Forall₂ (fun item node => IsNode item node.1 node.2) flow nodes ∧ Closed nodes entry exit

/-! ## What is accepted is well formed -/

theorem Part.Written.isNode {p : Part} (h : p.Written) : IsNode (.obj p.members) p.id p.wires where
  id := h.id
  type := ⟨p.type, h.type⟩
  wires := h.wires

theorem wellFormed_of_ofJson {v : Json} {f : Fragment} (h : ofJson v = .ok f) :
    WellFormed v f.entry f.exit (f.parts.map fun p => .obj p.members) := by
  obtain ⟨hentry, hexit, hflow, hparts⟩ := describes_of_ofJson h
  refine ⟨hentry, hexit, hflow, f.parts.map fun p => (p.id, p.wires), ?_, ?_⟩
  · rw [List.forall₂_map_left_iff, List.forall₂_map_right_iff, List.forall₂_same]
    intro p hp
    exact (hparts p hp).isNode
  · have hnames : (f.parts.map fun p => (p.id, p.wires)).map (·.1) = names f.parts := by
      rw [List.map_map]
      rfl
    constructor
    · rw [hnames]
      exact f.nodup
    · rw [hnames]
      exact f.entry_mem
    · rw [hnames]
      exact f.exit_mem
    · intro node hnode
      obtain ⟨p, hp, rfl⟩ := List.mem_map.1 hnode
      rw [hnames]
      exact f.closed p hp

/-! ## What is well formed is accepted -/

theorem exists_obj_of_get? {v x : Json} {key : RawText} (h : v.get? key = some x) :
    ∃ members, v = .obj members ∧ Ordered.get? key members = some x := by
  cases v with
  | obj members => exact ⟨members, rfl, h⟩
  | _ => cases h

theorem check_text (s : RawText) : check .text (.str s) = none := check_text_eq_none_iff.2 ⟨s, rfl⟩

theorem check_texts (texts : List RawText) : check (.list .text) (.arr (texts.map .str)) = none := by
  refine check_list_eq_none_iff.2 ⟨_, rfl, ?_⟩
  intro x hx
  obtain ⟨s, -, rfl⟩ := List.mem_map.1 hx
  exact check_text s

theorem check_wiresValue (ports : List (List RawText)) :
    check (.list (.list .text)) (wiresValue ports) = none := by
  refine check_list_eq_none_iff.2 ⟨_, rfl, ?_⟩
  intro x hx
  obtain ⟨port, -, rfl⟩ := List.mem_map.1 hx
  exact check_texts port

/-- A member that is there is the one that is checked. -/
theorem check_of_get? {key : RawText} {members : List (RawText × Json)} {v : Json} {shape : Schema}
    (hget : Ordered.get? key members = some v) (hcheck : check shape v = none) :
    ∀ x, Ordered.get? key members = some x → check shape x = none := by
  intro x hx
  cases hx.symm.trans hget
  exact hcheck

theorem IsNode.check {item : Json} {id : RawText} {ports : List (List RawText)}
    (h : IsNode item id ports) : partSchema.check item = none := by
  obtain ⟨members, rfl, hid⟩ := exists_obj_of_get? h.id
  obtain ⟨type, htype⟩ := h.type
  have hwires : ∀ x, Ordered.get? ("wires" : RawText) members = some x →
      Schema.check (.list (.list .text)) x = none := by
    obtain hsome | ⟨hnone, -⟩ := h.wires
    · exact check_of_get? hsome (check_wiresValue ports)
    · intro x hx
      cases hx.symm.trans hnone
  refine check_record_eq_none_iff.2 ⟨members, rfl, ?_, ?_⟩ <;> simp only [List.forall_mem_cons]
  · exact ⟨⟨_, hid⟩, ⟨_, htype⟩, List.forall_mem_nil _⟩
  · exact ⟨check_of_get? hid (check_text id), check_of_get? htype (check_text type), hwires,
      List.forall_mem_nil _⟩

theorem WellFormed.check {v : Json} {entry exit : RawText} {flow : List Json}
    (h : WellFormed v entry exit flow) : schema.check v = none := by
  obtain ⟨info, hinfo, hin⟩ := Option.bind_eq_some_iff.1 h.markerIn
  obtain ⟨markers, rfl, hin⟩ := exists_obj_of_get? hin
  have hout := h.markerOut
  rw [hinfo] at hout
  obtain ⟨given, rfl, hinfo⟩ := exists_obj_of_get? hinfo
  obtain ⟨nodes, hnodes, -⟩ := h.nodes
  have hmarkers : Schema.check (.record ["in", "out"] [("in", .text), ("out", .text)])
      (.obj markers) = none := by
    refine check_record_eq_none_iff.2 ⟨markers, rfl, ?_, ?_⟩ <;> simp only [List.forall_mem_cons]
    · exact ⟨⟨_, hin⟩, ⟨_, hout⟩, List.forall_mem_nil _⟩
    · exact ⟨check_of_get? hin (check_text entry), check_of_get? hout (check_text exit),
        List.forall_mem_nil _⟩
  have hitems : Schema.check (.list partSchema) (.arr flow) = none := by
    refine check_list_eq_none_iff.2 ⟨flow, rfl, ?_⟩
    intro item hitem
    obtain ⟨node, -, hnode⟩ := exists_of_forall₂_of_mem hnodes.flip hitem
    exact hnode.check
  refine check_record_eq_none_iff.2 ⟨given, rfl, ?_, ?_⟩ <;> simp only [List.forall_mem_cons]
  · exact ⟨⟨_, hinfo⟩, ⟨_, h.listed⟩, List.forall_mem_nil _⟩
  · exact ⟨check_of_get? hinfo hmarkers, check_of_get? h.listed hitems, List.forall_mem_nil _⟩

/-- The names and wires that are read off the listed nodes are the written ones. -/
theorem map_partsOf {v : Json} {flow : List Json} {nodes : List (RawText × List (List RawText))}
    (hflow : v.get? "flow" = some (.arr flow))
    (hnodes : List.Forall₂ (fun item node => IsNode item node.1 node.2) flow nodes) :
    (partsOf v).map (fun p => (p.id, p.wires)) = nodes := by
  rw [partsOf, hflow]
  show (flow.map _).map _ = nodes
  clear hflow
  induction hnodes with
  | nil => rfl
  | @cons item node flow nodes hnode _ ih =>
    obtain ⟨members, rfl, hid⟩ := exists_obj_of_get? hnode.id
    have hwires : Part.wires ⟨members⟩ = node.2 := by
      obtain hsome | ⟨hnone, hports⟩ := hnode.wires
      · exact wires_eq hsome
      · rw [hports, Part.wires, show Ordered.get? ("wires" : RawText) members = none from hnone]
        rfl
    rw [List.map_cons, List.map_cons, ih]
    congr 1
    exact Prod.ext (textOf_eq hid) hwires

theorem firstLoose?_eq_none {known : List RawText} {parts : List Part}
    (h : ∀ p ∈ parts, ∀ port ∈ p.wires, ∀ target ∈ port, target ∈ known) :
    firstLoose? known parts = none := by
  refine List.findSome?_eq_none_iff.2 fun p hp => List.findSome?_eq_none_iff.2 fun port hport => ?_
  have hknown : unknownTargets known port = [] := by
    refine List.filter_eq_nil_iff.2 fun target htarget => ?_
    simpa using h p hp port hport target htarget
  rw [hknown]

/-- No check but those of the shape, the names, the markers and the wires stands in the way. -/
theorem exists_ofJson {v : Json} (hcheck : schema.check v = none)
    (hnodup : (names (partsOf v)).Nodup) (hentry : markerOf v "in" ∈ names (partsOf v))
    (hexit : markerOf v "out" ∈ names (partsOf v))
    (hclosed : ∀ p ∈ partsOf v, ∀ port ∈ p.wires, ∀ target ∈ port, target ∈ names (partsOf v)) :
    ∃ f, ofJson v = .ok f := by
  have hloose := firstLoose?_eq_none hclosed
  unfold ofJson
  rw [hcheck]
  simp only [dif_pos hnodup, dif_pos hentry, dif_pos hexit]
  split
  · next hsome => cases hloose.symm.trans hsome
  · exact ⟨_, rfl⟩

theorem markerOf_eq {v : Json} {key s : RawText}
    (h : (v.get? "meta").bind (Json.get? key) = some (.str s)) : markerOf v key = s := by
  rw [markerOf, h]
  rfl

theorem WellFormed.exists_ofJson {v : Json} {entry exit : RawText} {flow : List Json}
    (h : WellFormed v entry exit flow) : ∃ f, ofJson v = .ok f := by
  obtain ⟨nodes, hnodes, hclosed⟩ := h.nodes
  have hparts := map_partsOf h.listed hnodes
  have hnames : names (partsOf v) = nodes.map (·.1) := by
    rw [← hparts, List.map_map]
    rfl
  refine Fragment.exists_ofJson h.check ?_ ?_ ?_ ?_
  · rw [hnames]
    exact hclosed.nodup
  · rw [hnames, markerOf_eq h.markerIn]
    exact hclosed.entry
  · rw [hnames, markerOf_eq h.markerOut]
    exact hclosed.exit
  · intro p hp
    rw [hnames]
    exact hclosed.targets (p.id, p.wires) (hparts ▸ List.mem_map_of_mem hp)

theorem WellFormed.unique {v : Json} {entry entry' exit exit' : RawText} {flow flow' : List Json}
    (h : WellFormed v entry exit flow) (h' : WellFormed v entry' exit' flow') :
    entry = entry' ∧ exit = exit' ∧ flow = flow' := by
  have hentry := h.markerIn.symm.trans h'.markerIn
  have hexit := h.markerOut.symm.trans h'.markerOut
  have hflow := h.listed.symm.trans h'.listed
  cases hentry
  cases hexit
  cases hflow
  exact ⟨rfl, rfl, rfl⟩

/-! ## Both together -/

theorem validate_eq_ok_iff {source : String} {v : Json} {f : Fragment} :
    validate source v = .ok f ↔ ofJson v = .ok f := by
  constructor
  · exact ofJson_of_validate
  · intro h
    rw [validate, h]
    rfl

/-- A value is accepted as a fragment exactly if it is well formed. The fragment has the entry and the
exit of the value, and its nodes as they are written there. Any other value is refused as an invalid
fragment of its source. -/
theorem validate_accepts_exactly (source : String) (v : Json) :
    (∀ entry exit flow, WellFormed v entry exit flow ↔
      ∃ f, validate source v = .ok f ∧ f.entry = entry ∧ f.exit = exit ∧ f.flow = .arr flow) ∧
    ((¬∃ entry exit flow, WellFormed v entry exit flow) ↔
      ∃ why, validate source v = .error (.invalid source why)) := by
  refine ⟨fun entry exit flow => ⟨?_, ?_⟩, ⟨?_, ?_⟩⟩
  · intro h
    obtain ⟨f, hf⟩ := h.exists_ofJson
    obtain ⟨hentry, hexit, hflow⟩ := (wellFormed_of_ofJson hf).unique h
    exact ⟨f, validate_eq_ok_iff.2 hf, hentry, hexit, congrArg Json.arr hflow⟩
  · rintro ⟨f, hf, rfl, rfl, hflow⟩
    cases hflow
    exact wellFormed_of_ofJson (validate_eq_ok_iff.1 hf)
  · intro h
    cases hv : ofJson v with
    | ok f => exact absurd ⟨_, _, _, wellFormed_of_ofJson hv⟩ h
    | error why => exact ⟨why, by rw [validate, hv]; rfl⟩
  · rintro ⟨why, hwhy⟩ ⟨entry, exit, flow, h⟩
    obtain ⟨f, hf⟩ := h.exists_ofJson
    exact nomatch hwhy.symm.trans (validate_eq_ok_iff.2 hf)

end SlideFlow.Fragment
