/-
The written form of nodes. A node is written as one object (`Node.written_toJson`): first its identifier
and its type, then its name if it has one, then what belongs to its kind, and last its wires, port by
port. A copy shows its properties in place of a name, in the order and under the keys that they have.
-/
import SlideFlow.Flow.Node
import SlideFlow.Proofs.Json.Tidy
import Mathlib.Data.List.Forall2

namespace SlideFlow.Flow

open SlideFlow.Text

/-! ## What is written -/

/-- A text of a property: the text itself, or the identifier of the node that it names. -/
inductive Ref.Written : Ref String → RawText → Prop
  | text (s : RawText) : Written (.text s) s
  | node (id : String) : Written (.node id) id

/-- The value of a property: the value itself, or a text or a list of texts that may name nodes. -/
inductive Property.Written : Property String → Json → Prop
  | value (v : Json) : Written (.value v) v
  | one {r : Ref String} {s : RawText} (h : r.Written s) : Written (.one r) (.str s)
  | many {rs : List (Ref String)} {ss : List RawText} (h : List.Forall₂ Ref.Written rs ss) :
      Written (.many rs) (.arr (ss.map .str))

/-- The members that belong to the kind of a node with so many ports, in order. -/
inductive Kind.Written : Kind String → Nat → List (RawText × Json) → Prop
  | bare (ports : Nat) : Written .bare ports []
  | function (script : String) (ports : Nat) : Written (.function script) ports
      [("func", .str script), ("outputs", .int (max ports 1))]
  | join (script : String) (topics : List String) (ports : Nat) : Written (.join script topics) ports
      [("func", .str script), ("outputs", .int (max ports 1))]
  | switch (property scope : String) (rules : List Int) (all : Bool) (ports : Nat) :
      Written (.switch property scope rules all) ports
        [("property", .str property), ("propertyType", .str scope),
         ("rules", .arr (rules.map fun value =>
           .obj [("t", .str "eq"), ("v", .str (toString value)), ("vt", .str "num")])),
         ("checkall", .str (if all then "true" else "false")), ("outputs", .int rules.length)]
  | httpIn (url method : String) (ports : Nat) : Written (.httpIn url method) ports
      [("url", .str url), ("method", .str method)]
  | httpResponse (ports : Nat) : Written .httpResponse ports []
  | copy {properties : Ordered RawText (Property String)} {members : List (RawText × Json)}
      (h : List.Forall₂ (fun p m => m.1 = p.1 ∧ p.2.Written m.2) properties members) (ports : Nat) :
      Written (.copy properties) ports members

namespace Node

def isCopy {ρ : Type} (n : Node ρ) : Bool :=
  match n.kind with
  | .copy _ => true
  | _ => false

/-- The properties that a node shows beside those of its kind. -/
def properties {ρ : Type} (n : Node ρ) : Ordered RawText (Property ρ) :=
  match n.kind with
  | .copy properties => properties
  | _ => []

/-- Only copies have such properties. -/
theorem properties_eq_nil {ρ : Type} {n : Node ρ} (h : n.isCopy = false) : n.properties = [] := by
  obtain ⟨id, type, name, wires, kind⟩ := n
  cases kind with
  | copy properties => cases h
  | _ => rfl

/-- The members that a node begins with: a copy shows no name, and others none that is empty. -/
def heading (n : Node String) : List (RawText × Json) :=
  if n.isCopy = false ∧ n.name ≠ "" then
    [("id", .str n.id), ("type", .str n.type), ("name", .str n.name)]
  else [("id", .str n.id), ("type", .str n.type)]

/-- The value that stands for wires: port by port the identifiers of their targets. -/
def portsJson (wires : List (List String)) : Json :=
  .arr (wires.map fun port => .arr (port.map fun (id : String) => .str id))

/-- A node is written as one object: its heading, what belongs to its kind, and its wires. -/
def Written (n : Node String) (v : Json) : Prop :=
  ∃ members, n.kind.Written n.wires.length members ∧
    v = .obj (n.heading ++ members ++ [(("wires" : RawText), portsJson n.wires)])

end Node

/-! ## Written forms -/

theorem Ref.written_toText (r : Ref String) : r.Written r.toText := by
  cases r with
  | text s => exact .text s
  | node id => exact .node id

theorem Property.written_toJson (p : Property String) : p.Written p.toJson := by
  cases p with
  | value v => exact .value v
  | one r => exact .one r.written_toText
  | many rs =>
    have htexts : List.Forall₂ Ref.Written rs (rs.map Ref.toText) := by
      rw [List.forall₂_map_right_iff, List.forall₂_same]
      exact fun r _ => r.written_toText
    simpa only [toJson, List.map_map, Function.comp_def] using Written.many htexts

namespace Node

variable {n : Node String}

theorem kind_written_details (n : Node String) : n.kind.Written n.wires.length n.details := by
  obtain ⟨id, type, name, wires, kind⟩ := n
  cases kind with
  | copy properties =>
    refine .copy ?_ _
    rw [details, List.forall₂_map_right_iff, List.forall₂_same]
    exact fun p _ => ⟨rfl, p.2.written_toJson⟩
  | bare => exact .bare _
  | function script => exact .function script _
  | join script topics => exact .join script topics _
  | switch property scope rules all => exact .switch property scope rules all _
  | httpIn url method => exact .httpIn url method _
  | httpResponse => exact .httpResponse _

/-- The keys of a node stand once each, if those of its properties do and none of them is a key that
every node has. -/
theorem nodup_keys (hnodup : (Ordered.keys n.properties).Nodup)
    (hown : ∀ key ∈ Ordered.keys n.properties, key ∉ (["id", "type", "wires"] : List RawText)) :
    (Ordered.keys (n.heading ++ n.details) ++ [("wires" : RawText)]).Nodup := by
  obtain ⟨id, type, name, wires, kind⟩ := n
  cases kind with
  | copy properties =>
    have hkeys : Ordered.keys (heading ⟨id, type, name, wires, .copy properties⟩ ++
        details ⟨id, type, name, wires, .copy properties⟩) =
          (["id", "type"] : List RawText) ++ Ordered.keys properties := by
      simp [Ordered.keys, heading, isCopy, details]
    rw [hkeys]
    refine List.nodup_append.2 ⟨List.nodup_append.2 ⟨by decide, hnodup, ?_⟩, by simp, ?_⟩
    · rintro own hmem key hkey rfl
      exact hown own hkey (List.mem_append_left [("wires" : RawText)] hmem)
    · rintro key hkey own hmem rfl
      rw [List.mem_singleton] at hmem
      rcases List.mem_append.1 hkey with hkey | hkey
      · rw [hmem] at hkey
        exact absurd hkey (by decide)
      · exact hown key hkey (by simp [hmem])
  | _ =>
    by_cases hname : name = ""
    · simp [Ordered.keys, heading, isCopy, details, hname]
    · simp [Ordered.keys, heading, isCopy, details, hname]

/-- A node is written as it should be, if the keys of its properties stand once each and are not the
keys that every node has. -/
theorem written_toJson (hnodup : (Ordered.keys n.properties).Nodup)
    (hown : ∀ key ∈ Ordered.keys n.properties, key ∉ (["id", "type", "wires"] : List RawText)) :
    n.Written n.toJson := by
  have hkeys := List.nodup_append.1 (nodup_keys hnodup hown)
  have hheading : n.toJson =
      .obj (Ordered.put "wires" n.wiresJson (Ordered.ofList (n.heading ++ n.details))) := by
    obtain ⟨id, type, name, wires, kind⟩ := n
    by_cases hname : name = ""
    · cases kind <;> simp [toJson, heading, isCopy, details, hname, wiresJson]
    · cases kind <;> simp [toJson, heading, isCopy, details, hname, wiresJson]
  have hwires : ("wires" : RawText) ∉ Ordered.keys (n.heading ++ n.details) := fun hmem =>
    hkeys.2.2 _ hmem _ (List.mem_singleton_self _) rfl
  refine ⟨n.details, n.kind_written_details, ?_⟩
  rw [hheading, Ordered.ofList_eq_self hkeys.1, Ordered.put_of_not_mem hwires]
  rfl

end Node

end SlideFlow.Flow
