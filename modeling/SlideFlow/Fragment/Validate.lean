/-
Which JSON values are fragments.
-/
import SlideFlow.Fragment.Basic
import SlideFlow.Schema

namespace SlideFlow.Fragment

open SlideFlow.Text

/-- The shape of a fragment. -/
def schema : Schema :=
  .record ["meta", "flow"] [
    ("meta", .record ["in", "out"] [("in", .text), ("out", .text)]),
    ("flow", .list (.record ["id", "type"] [
      ("id", .text), ("type", .text), ("wires", .list (.list .text))]))
  ]

/-- Why a value is not a fragment. -/
inductive Fault where
  | shape (why : Schema.Fault)
  | duplicateNames
  | unknownEntry (name : RawText)
  | unknownExit (name : RawText)
  /-- A port of a node is wired to names that no node has. -/
  | looseWires (node : RawText) (targets : List RawText)
  deriving Repr, BEq

/-- The report of a fault in the fragment from a source. -/
def Fault.message (source : String) : Fault → String
  | .shape why => s!"{source} failed validation: {why.message}"
  | .duplicateNames => s!"{source} contains duplicate node ids"
  | .unknownEntry name => s!"{source}: meta.in references unknown node {name.shown}"
  | .unknownExit name => s!"{source}: meta.out references unknown node {name.shown}"
  | .looseWires node targets =>
    let shown := ", ".intercalate (targets.map RawText.shown)
    s!"{source}: node {node.shown} wires to unknown node(s) {shown}"

/-- The targets of a port that are not among the known names. -/
def unknownTargets (known port : List RawText) : List RawText :=
  port.filter fun target => !known.contains target

/-- The first port with unknown targets, with the name of its node. -/
def firstLoose? (known : List RawText) (parts : List Part) : Option (RawText × List RawText) :=
  parts.findSome? fun p => p.wires.findSome? fun port =>
    match unknownTargets known port with
    | [] => none
    | t :: ts => some (p.id, t :: ts)

theorem closed_of_firstLoose? {known : List RawText} {parts : List Part}
    (h : firstLoose? known parts = none) :
    ∀ p ∈ parts, ∀ port ∈ p.wires, ∀ target ∈ port, target ∈ known := by
  intro p hp port hport target ht
  have h1 := List.findSome?_eq_none_iff.1 h p hp
  have h2 := List.findSome?_eq_none_iff.1 h1 port hport
  have h3 : unknownTargets known port = [] := by
    revert h2
    cases unknownTargets known port <;> simp
  have h4 := List.filter_eq_nil_iff.1 h3 target ht
  simpa using h4

/-- The nodes listed in the `flow` of a value. -/
def partsOf (v : Json) : List Part :=
  (((v.get? "flow").bind Json.arr?).getD []).map fun item => { members := item.obj?.getD [] }

/-- A text in the `meta` of a value. -/
def markerOf (v : Json) (key : RawText) : RawText :=
  (((v.get? "meta").bind (Json.get? key)).bind Json.text?).getD ""

/-- The fragment that a value describes. Its shape is judged first, then its names, its entry, its
exit and its wires. -/
def ofJson (v : Json) : Except Fault Fragment :=
  match schema.check v with
  | some why => .error (.shape why)
  | none =>
    let parts := partsOf v
    let entry := markerOf v "in"
    let exit := markerOf v "out"
    if nodup : (names parts).Nodup then
      if entry_mem : entry ∈ names parts then
        if exit_mem : exit ∈ names parts then
          match loose : firstLoose? (names parts) parts with
          | some (node, targets) => .error (.looseWires node targets)
          | none =>
            let closed := closed_of_firstLoose? loose
            .ok { entry, exit, parts, nodup, entry_mem, exit_mem, closed }
        else .error (.unknownExit exit)
      else .error (.unknownEntry entry)
    else .error .duplicateNames

end SlideFlow.Fragment
