/-
The arena holds the nodes of a flow while it is put together. Every node is stored once, under its
own identifier, in the order of creation; wires may point to nodes that come later. Flushing checks
that every wire ends at a stored node and closes the arena to new ones.

A step that fails keeps what it did before it failed.
-/
import SlideFlow.Flow.Node
import SlideFlow.Fragment.Copies
import SlideFlow.Ident.Pool

namespace SlideFlow.Flow

open SlideFlow.Ident

/-- Why a step on an arena fails. -/
inductive FlowError where
  | unknown (id : String)
  | flushed
  | duplicate (id : String)
  /-- Wires end at nodes that are not there; the missing ones in the order of the wires. -/
  | dangling (missing : List String)
  /-- A node has no such port. -/
  | noPort (id : String) (port : Int)
  /-- No identifier is left for a new node. -/
  | exhausted
  deriving DecidableEq, Repr

/-- Texts in order, each once. -/
def sortedOnce (xs : List String) : List String :=
  xs.eraseDups.mergeSort fun a b => !decide (b < a)

def FlowError.message : FlowError → String
  | .unknown id => s!"Unknown node id: {id}"
  | .flushed => "Arena already flushed"
  | .duplicate id => s!"Duplicate node id: {id}"
  | .dangling missing =>
    let shown := ", ".intercalate (sortedOnce missing)
    s!"Wires reference unknown nodes: {shown}"
  | .noPort id port => s!"Node {id} has no port {port}"
  | .exhausted => "No identifier left"

structure Arena (σ : Type) where
  pool : Pool σ
  nodes : List (Node String)
  flushed : Bool

/-- A step on an arena: its result, or why it fails, and the arena afterwards. -/
abbrev Op (σ α : Type) := ExceptT FlowError (StateM (Arena σ)) α

namespace Arena

variable {σ : Type} [Source σ]

def ofPool (pool : Pool σ) : Arena σ := { pool, nodes := [], flushed := false }

/-- The identifiers of the stored nodes in the order of creation. -/
def ids (a : Arena σ) : List String := a.nodes.map (·.id)

def find? (a : Arena σ) (id : String) : Option (Node String) := a.nodes.find? (·.id = id)

/-- The targets of wires that are not stored, in the order of the wires. -/
def dangling (a : Arena σ) : List String :=
  (a.nodes.flatMap Node.targets).filter fun target => !a.ids.contains target

/-- The arena with the node of an identifier changed. -/
def update (a : Arena σ) (id : String) (change : Node String → Node String) : Arena σ :=
  { a with nodes := a.nodes.map fun n => if n.id = id then change n else n }

/-! ## Steps -/

/-- Draws a new identifier. -/
def draw : Op σ String := do
  let a ← get
  match a.pool.next with
  | none => throw .exhausted
  | some (id, pool) =>
    set { a with pool }
    return id

/-- Draws several new identifiers. -/
def drawMany (count : Nat) : Op σ (List String) := do
  let a ← get
  match a.pool.nexts count with
  | none => throw .exhausted
  | some (ids, pool) =>
    set { a with pool }
    return ids

/-- Stores a node and takes its identifier out of the pool. -/
def add (n : Node String) : Op σ (Node String) := do
  let a ← get
  if a.flushed then throw .flushed
  if n.id ∈ a.ids then throw (.duplicate n.id)
  set { a with pool := a.pool.reserve n.id, nodes := a.nodes ++ [n] }
  return n

/-- Stores a node under a new identifier. -/
def create (make : String → Node String) : Op σ (Node String) := do
  add (make (← draw))

/-- The node of an identifier. -/
def lookup (id : String) : Op σ (Node String) := do
  match (← get).find? id with
  | some n => return n
  | none => throw (.unknown id)

/-- Changes a stored node. -/
def change (id : String) (f : Node String → Node String) : Op σ (Node String) := do
  let n ← lookup id
  modify (·.update id f)
  return f n

/-- Wires a port of a stored node to one more node. -/
def connect (id : String) (port : Int) (target : String) : Op σ (Node String) := do
  match (← lookup id).connect? port target with
  | some n => change id fun _ => n
  | none => throw (.noPort id port)

def addRule (id : String) (value : Int) (target : String) : Op σ (Node String) :=
  change id fun n => n.addRule value target

/-! ## Plans -/

/-- Stores the nodes of a plan, in which nodes are named by position, under given identifiers. -/
def pasteAs (ids : List String) (plan : List (Node Nat)) : Op σ Unit :=
  plan.forM fun n => do
    let _ ← add (n.map fun i => ids.getD i "")

/-- Stores the nodes of a plan under new identifiers, which are drawn first. -/
def paste (plan : List (Node Nat)) : Op σ (List String) := do
  let ids ← drawMany plan.length
  pasteAs ids plan
  return ids

/-- What became of a fragment that was copied into an arena. -/
structure Spliced where
  entry : String
  exit : String
  ids : List String
  deriving DecidableEq, Repr

/-- The ends of a fragment whose nodes have these identifiers. -/
def splicedAs (f : Fragment) (ids : List String) : Spliced where
  entry := ids.getD f.entryIndex ""
  exit := ids.getD f.exitIndex ""
  ids := ids

/-- Copies a fragment under new identifiers. -/
def splice (f : Fragment) : Op σ Spliced := do
  return splicedAs f (← paste f.copies)

/-- Copies a fragment under given identifiers; there have to be enough of them. -/
def spliceAs (given : List String) (f : Fragment) : Op σ Spliced := do
  let ids := given.take f.size
  if ids.length < f.size then throw .exhausted
  pasteAs ids f.copies
  return splicedAs f ids

/-- Closes the arena, if no wire dangles, and gives its nodes in the order of creation. -/
def flush : Op σ (List (Node String)) := do
  let a ← get
  match a.dangling with
  | [] =>
    set { a with flushed := true }
    return a.nodes
  | missing => throw (.dangling missing)

end Arena

end SlideFlow.Flow
