/-
What a fragment says about the value it was made from. A value passes the check of a schema exactly
if it has the shape (`check_text_eq_none_iff` and its companions), so nothing of a value that is
accepted as a fragment is lost: its entry, its exit and its nodes are those of the value, and the
wires of a node are written out port by port, or not written at all (`describes_of_ofJson`).
-/
import SlideFlow.Fragment.Load
import SlideFlow.Proofs.Traverse

namespace SlideFlow.Schema

open SlideFlow.Text

/-! ## Checks that find no fault -/

theorem check_text_eq_none_iff {v : Json} : check .text v = none ↔ ∃ s, v = .str s := by
  cases v <;> simp [check]

theorem check_list_eq_none_iff {item : Schema} {v : Json} :
    check (.list item) v = none ↔ ∃ items, v = .arr items ∧ ∀ x ∈ items, check item x = none := by
  cases v <;> simp [check, List.findSome?_eq_none_iff]

theorem checkMembers_eq_none_iff {members : List (String × Schema)} {given : List (RawText × Json)} :
    checkMembers members given = none ↔
      ∀ m ∈ members, ∀ x, Ordered.get? (m.1 : RawText) given = some x → check m.2 x = none := by
  induction members with
  | nil => simp [checkMembers]
  | cons m members ih =>
    obtain ⟨key, schema⟩ := m
    rw [checkMembers, List.forall_mem_cons, ← ih]
    cases hkey : Ordered.get? (key : RawText) given with
    | none => simp
    | some x => cases hx : check schema x <;> simp [hx]

theorem check_record_eq_none_iff {required : List String} {members : List (String × Schema)}
    {v : Json} : check (.record required members) v = none ↔
      ∃ given, v = .obj given ∧ (∀ key ∈ required, ∃ x, Ordered.get? (key : RawText) given = some x) ∧
        ∀ m ∈ members, ∀ x, Ordered.get? (m.1 : RawText) given = some x → check m.2 x = none := by
  cases v with
  | obj given =>
    simp only [check, Json.obj.injEq, exists_eq_left']
    cases hfind : required.find? fun (key : String) => (Ordered.get? (key : RawText) given).isNone with
    | some key =>
      -- the key that was found is missing
      have hmissing := List.find?_some hfind
      constructor
      · intro h
        cases h
      · rintro ⟨hrequired, -⟩
        obtain ⟨x, hx⟩ := hrequired key (List.mem_of_find?_eq_some hfind)
        rw [hx] at hmissing
        cases hmissing
    | none =>
      have hrequired : ∀ key ∈ required, ∃ x, Ordered.get? (key : RawText) given = some x := by
        intro key hkey
        have := List.find?_eq_none.1 hfind key hkey
        rw [Option.isNone_iff_eq_none] at this
        exact Option.ne_none_iff_exists'.1 this
      rw [checkMembers_eq_none_iff]
      exact ⟨fun h => ⟨hrequired, h⟩, fun h => h.2⟩
  | _ => simp [check]

end SlideFlow.Schema

namespace SlideFlow.Fragment

open SlideFlow.Schema SlideFlow.Text

/-! ## Nodes as they are written -/

/-- The written form of wires: an array of ports, each an array of names. -/
def wiresValue (wires : List (List RawText)) : Json := .arr (wires.map fun port => .arr (port.map .str))

/-- A node whose name and type are texts and whose wires, if there are any, are lists of texts. -/
structure Part.Written (p : Part) : Prop where
  id : Ordered.get? ("id" : RawText) p.members = some (.str p.id)
  type : Ordered.get? ("type" : RawText) p.members = some (.str p.type)
  wires : Ordered.get? ("wires" : RawText) p.members = some (wiresValue p.wires) ∨
    Ordered.get? ("wires" : RawText) p.members = none ∧ p.wires = []

/-- A fragment holds what is written in a value. -/
structure Describes (v : Json) (f : Fragment) : Prop where
  entry : (v.get? "meta").bind (Json.get? "in") = some (.str f.entry)
  exit : (v.get? "meta").bind (Json.get? "out") = some (.str f.exit)
  flow : v.get? "flow" = some f.flow
  parts : ∀ p ∈ f.parts, p.Written

theorem textOf_eq {p : Part} {key s : RawText} (h : Ordered.get? key p.members = some (.str s)) :
    p.textOf key = s := by
  rw [Part.textOf, h]
  rfl

theorem portOf_texts (texts : List RawText) : Part.portOf (.arr (texts.map .str)) = texts := by
  rw [Part.portOf, Json.arr?, Option.getD_some, List.filterMap_map]
  exact List.filterMap_some

/-- Texts in an array that holds nothing else. -/
theorem exists_texts {items : List Json} (h : ∀ x ∈ items, check .text x = none) :
    ∃ texts : List RawText, items = texts.map .str := by
  induction items with
  | nil => exact ⟨[], rfl⟩
  | cons x items ih =>
    obtain ⟨s, rfl⟩ := check_text_eq_none_iff.1 (h x (List.mem_cons_self ..))
    obtain ⟨texts, rfl⟩ := ih fun y hy => h y (List.mem_cons_of_mem _ hy)
    exact ⟨s :: texts, rfl⟩

theorem exists_wires {v : Json} (h : check (.list (.list .text)) v = none) :
    ∃ wires, v = wiresValue wires := by
  obtain ⟨ports, rfl, hports⟩ := check_list_eq_none_iff.1 h
  clear h
  induction ports with
  | nil => exact ⟨[], rfl⟩
  | cons port ports ih =>
    obtain ⟨items, rfl, hitems⟩ := check_list_eq_none_iff.1 (hports port (List.mem_cons_self ..))
    obtain ⟨texts, rfl⟩ := exists_texts hitems
    obtain ⟨wires, hwires⟩ := ih fun x hx => hports x (List.mem_cons_of_mem _ hx)
    cases hwires
    exact ⟨texts :: wires, rfl⟩

theorem wires_eq {p : Part} {wires : List (List RawText)}
    (h : Ordered.get? ("wires" : RawText) p.members = some (wiresValue wires)) : p.wires = wires := by
  rw [Part.wires, h]
  show (wires.map fun port => Json.arr (port.map .str)).map Part.portOf = wires
  rw [List.map_map]
  refine (List.map_congr_left fun port _ => ?_).trans (List.map_id wires)
  exact portOf_texts port

/-- The schema of a node. -/
def partSchema : Schema :=
  .record ["id", "type"] [("id", .text), ("type", .text), ("wires", .list (.list .text))]

theorem written_of_check {p : Part} (h : partSchema.check (.obj p.members) = none) : p.Written := by
  obtain ⟨given, hgiven, hrequired, hmembers⟩ := check_record_eq_none_iff.1 h
  cases hgiven
  -- a required member that is checked as a text is there and is one
  have htext : ∀ key : String, key ∈ ["id", "type"] → (key, Schema.text) ∈ [("id", .text),
      ("type", .text), ("wires", Schema.list (.list .text))] →
        Ordered.get? (key : RawText) p.members = some (.str (p.textOf key)) := by
    intro key hkey hmem
    obtain ⟨x, hx⟩ := hrequired key hkey
    obtain ⟨s, rfl⟩ := check_text_eq_none_iff.1 (hmembers _ hmem x hx)
    rw [textOf_eq hx, hx]
  refine ⟨htext "id" (by simp) (by simp), htext "type" (by simp) (by simp), ?_⟩
  cases hwires : Ordered.get? ("wires" : RawText) p.members with
  | none =>
    refine Or.inr ⟨rfl, ?_⟩
    rw [Part.wires, hwires]
    rfl
  | some x =>
    obtain ⟨wires, rfl⟩ := exists_wires (hmembers ("wires", _) (by simp) x hwires)
    rw [wires_eq hwires]
    exact Or.inl rfl

/-! ## Fragments and the values they are made from -/

theorem ofJson_eq_ok {v : Json} {f : Fragment} (h : ofJson v = .ok f) :
    schema.check v = none ∧ f.parts = partsOf v ∧ f.entry = markerOf v "in" ∧
      f.exit = markerOf v "out" := by
  unfold ofJson at h
  split at h
  · cases h
  · rename_i hcheck
    simp only at h
    split at h
    · split at h
      · split at h
        · split at h
          · cases h
          · cases h
            exact ⟨hcheck, rfl, rfl, rfl⟩
        · cases h
      · cases h
    · cases h

/-- A fragment holds what the value says that it was made from. -/
theorem describes_of_ofJson {v : Json} {f : Fragment} (h : ofJson v = .ok f) : Describes v f := by
  obtain ⟨hcheck, hparts, hentry, hexit⟩ := ofJson_eq_ok h
  obtain ⟨given, rfl, hrequired, hmembers⟩ := check_record_eq_none_iff.1 hcheck
  obtain ⟨info, hinfo⟩ := hrequired "meta" (by simp)
  obtain ⟨flow, hflow⟩ := hrequired "flow" (by simp)
  obtain ⟨markers, rfl, hnames, htexts⟩ :=
    check_record_eq_none_iff.1 (hmembers _ (List.mem_cons_self ..) info hinfo)
  obtain ⟨items, rfl, hitems⟩ :=
    check_list_eq_none_iff.1
      (hmembers _ (List.mem_cons_of_mem _ (List.mem_cons_self ..)) flow hflow)
  -- a marker is there and is a text
  have hmarker : ∀ key : String, key ∈ ["in", "out"] →
      (key, Schema.text) ∈ [("in", Schema.text), ("out", .text)] → ((Json.obj given).get? "meta").bind (Json.get? key) =
        some (.str (markerOf (.obj given) key)) := by
    intro key hkey hmem
    obtain ⟨x, hx⟩ := hnames key hkey
    obtain ⟨s, rfl⟩ := check_text_eq_none_iff.1 (htexts _ hmem x hx)
    have hget : ((Json.obj given).get? "meta").bind (Json.get? key) = some (.str s) := by
      simp only [Json.get?, hinfo, Option.bind_some, hx]
    rw [markerOf, hget]
    rfl
  have hpartsOf : partsOf (.obj given) = items.map fun item => { members := item.obj?.getD [] } := by
    simp only [partsOf, Json.get?, hflow, Option.bind_some, Json.arr?, Option.getD_some]
  refine ⟨hentry ▸ hmarker "in" (by simp) (by simp), hexit ▸ hmarker "out" (by simp) (by simp), ?_, ?_⟩
  · -- every item is an object, so none is lost
    have hobject : ∀ item ∈ items, Json.obj (item.obj?.getD []) = item := by
      intro item hitem
      obtain ⟨members, rfl, -⟩ := check_record_eq_none_iff.1 (hitems item hitem)
      rfl
    show Ordered.get? ("flow" : RawText) given = some f.flow
    rw [hflow, Fragment.flow, hparts, hpartsOf, List.map_map]
    congr 2
    exact ((List.map_congr_left hobject).trans (List.map_id items)).symm
  · intro p hp
    rw [hparts, hpartsOf] at hp
    obtain ⟨item, hitem, rfl⟩ := List.mem_map.1 hp
    have hchecked := hitems item hitem
    obtain ⟨members, rfl, -⟩ := check_record_eq_none_iff.1 hchecked
    exact written_of_check hchecked

theorem ofJson_of_validate {source : String} {v : Json} {f : Fragment}
    (h : validate source v = .ok f) : ofJson v = .ok f := by
  unfold validate at h
  cases hof : ofJson v with
  | error e => rw [hof] at h; cases h
  | ok g => rw [hof] at h; cases h; rfl

end SlideFlow.Fragment
