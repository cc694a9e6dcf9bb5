/-
The nodes of a flow. A node names the nodes that its outputs are wired to, port by port. What a
name is stays open: a plan of a flow names nodes by position, a finished flow by identifier, and
`Node.map` leads from one to the other.
-/
import SlideFlow.Json.Basic
import SlideFlow.Position

namespace SlideFlow.Flow

open SlideFlow.Text

/-! ## Properties of copied nodes -/

/-- A text among the properties of a copied node: plain, or the name of a node. -/
inductive Ref (ρ : Type) where
  | text (s : RawText)
  | node (r : ρ)
  deriving DecidableEq, Repr

/-- A property of a copied node. Only a text and a list of texts can name nodes. -/
inductive Property (ρ : Type) where
  | value (v : Json)
  | one (r : Ref ρ)
  | many (rs : List (Ref ρ))
  deriving Repr

/-! ## Nodes -/

/-- What a node does. -/
inductive Kind (ρ : Type) where
  /-- Nothing is known beyond its type. -/
  | bare
  /-- Runs a script. -/
  | function (script : String)
  /-- Runs a script that waits for these branches. -/
  | join (script : String) (topics : List String)
  /-- Sends a message on by the value of a property: one port for each rule. -/
  | switch (property scope : String) (rules : List Int) (all : Bool)
  /-- Takes requests. -/
  | httpIn (url method : String)
  /-- Answers requests. -/
  | httpResponse
  /-- A copy of a pre-authored node, with all its properties. -/
  | copy (properties : Ordered RawText (Property ρ))
  deriving Repr

structure Node (ρ : Type) where
  id : ρ
  type : RawText
  name : String
  wires : List (List ρ)
  kind : Kind ρ
  deriving Repr

variable {ρ τ : Type}

def Ref.map (f : ρ → τ) : Ref ρ → Ref τ
  | .text s => .text s
  | .node r => .node (f r)

def Property.map (f : ρ → τ) : Property ρ → Property τ
  | .value v => .value v
  | .one r => .one (r.map f)
  | .many rs => .many (rs.map (Ref.map f))

def Kind.map (f : ρ → τ) : Kind ρ → Kind τ
  | .bare => .bare
  | .function script => .function script
  | .join script topics => .join script topics
  | .switch property scope rules all => .switch property scope rules all
  | .httpIn url method => .httpIn url method
  | .httpResponse => .httpResponse
  | .copy properties => .copy (properties.map fun (key, p) => (key, p.map f))

namespace Node

/-- The node with every name replaced. -/
def map (f : ρ → τ) (n : Node ρ) : Node τ where
  id := f n.id
  type := n.type
  name := n.name
  wires := n.wires.map (List.map f)
  kind := n.kind.map f

/-- The nodes that a node is wired to, port after port. -/
def targets (n : Node ρ) : List ρ := n.wires.flatten

/-- Wires with one more target at a port; ports up to it are opened. -/
def attach (target : ρ) : Nat → List (List ρ) → List (List ρ)
  | 0, [] => [[target]]
  | 0, port :: rest => (port ++ [target]) :: rest
  | k + 1, [] => [] :: attach target k []
  | k + 1, port :: rest => port :: attach target k rest

/-- Wires a port to one more node. -/
def connect (n : Node ρ) (port : Nat) (target : ρ) : Node ρ :=
  { n with wires := attach target port n.wires }

/-- Wires a port to one more node. A negative number counts from the last port; such a port has to
be there already. -/
def connect? (n : Node ρ) (port : Int) (target : ρ) : Option (Node ρ) :=
  if 0 ≤ port then some (n.connect port.toNat target)
  else (position? n.wires.length port).map fun k => n.connect k target

/-- Adds a rule to a switch and wires its port. Other nodes have no rules. -/
def addRule (n : Node ρ) (value : Int) (target : ρ) : Node ρ :=
  match n.kind with
  | .switch property scope rules all =>
    connect { n with kind := .switch property scope (rules ++ [value]) all } rules.length target
  | _ => n

/-! ## Making nodes -/

def function (id : ρ) (script name : String) (wires : List (List ρ)) : Node ρ :=
  { id, type := "function", name, wires, kind := .function script }

def join (id : ρ) (script : String) (topics : List String) (name : String) (target : ρ) : Node ρ :=
  { id, type := "function", name, wires := [[target]], kind := .join script topics }

/-- A switch without rules. -/
def switch (id : ρ) (property scope name : String) : Node ρ :=
  { id, type := "switch", name, wires := [], kind := .switch property scope [] false }

def httpIn (id : ρ) (url method : String) (target : ρ) : Node ρ :=
  { id, type := "http in", name := "", wires := [[target]], kind := .httpIn url method }

def httpResponse (id : ρ) : Node ρ :=
  { id, type := "http response", name := "", wires := [], kind := .httpResponse }

end Node

/-! ## Written form -/

def Ref.toText : Ref String → RawText
  | .text s => s
  | .node id => id

def Property.toJson : Property String → Json
  | .value v => v
  | .one r => .str r.toText
  | .many rs => .arr (rs.map fun r => .str r.toText)

/-- A rule of a switch: the value as a number that the property has to equal. -/
def ruleJson (value : Int) : Json :=
  .obj [("t", .str "eq"), ("v", .str (toString value)), ("vt", .str "num")]

namespace Node

/-- The members between the name of a node and its wires. -/
def details (n : Node String) : List (RawText × Json) :=
  match n.kind with
  | .bare | .httpResponse => []
  | .function script | .join script _ =>
    [("func", .str script), ("outputs", .int (max n.wires.length 1))]
  | .switch property scope rules all =>
    [("property", .str property), ("propertyType", .str scope),
     ("rules", .arr (rules.map ruleJson)), ("checkall", .str (if all then "true" else "false")),
     ("outputs", .int rules.length)]
  | .httpIn url method => [("url", .str url), ("method", .str method)]
  | .copy properties => properties.map fun (key, p) => (key, p.toJson)

/-- The written form of the wires. -/
def wiresJson (n : Node String) : Json :=
  .arr (n.wires.map fun port => .arr (port.map fun (id : String) => .str id))

/-- The written form of a node. A copied node shows no name of its own. -/
def toJson (n : Node String) : Json :=
  let named : List (RawText × Json) :=
    match n.kind with
    | .copy _ => []
    | _ => if n.name = "" then [] else [("name", .str n.name)]
  let members : List (RawText × Json) := [("id", .str n.id), ("type", .str n.type)]
  .obj (Ordered.put "wires" n.wiresJson (Ordered.ofList (members ++ named ++ n.details)))

end Node

end SlideFlow.Flow
