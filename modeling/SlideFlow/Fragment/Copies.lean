/-
Copying a fragment. The copies name each other by their position in the fragment; whoever places
them decides what the positions stand for. A property whose value is a text or a list of texts may
name nodes of the fragment, and such names go along.
-/
import SlideFlow.Flow.Node
import SlideFlow.Fragment.Basic

namespace SlideFlow.Fragment

open SlideFlow.Flow SlideFlow.Text

/-- A text that may be one of the names. -/
def refOf (known : List RawText) (s : RawText) : Ref Nat :=
  if s ∈ known then .node (known.idxOf s) else .text s

/-- The texts of a list that holds nothing else. -/
def allTexts? : List Json → Option (List RawText)
  | [] => some []
  | .str s :: rest => (allTexts? rest).map (s :: ·)
  | _ :: _ => none

/-- A property of a copy. -/
def propertyOf (known : List RawText) : Json → Property Nat
  | .str s => .one (refOf known s)
  | .arr items =>
    match allTexts? items with
    | some texts => .many (texts.map (refOf known))
    | none => .value (.arr items)
  | v => .value v

/-- The copy of a node. -/
def copyOf (known : List RawText) (p : Part) : Node Nat where
  id := known.idxOf p.id
  type := p.type
  name := ""
  wires := p.wires.map (List.map fun target => known.idxOf target)
  kind := .copy (p.properties.map fun (key, v) => (key, propertyOf known v))

end SlideFlow.Fragment

namespace SlideFlow.Fragment

open SlideFlow.Flow

/-- The number of nodes of a fragment. -/
def size (f : Fragment) : Nat := f.parts.length

/-- The position of the node through which a fragment is entered. -/
def entryIndex (f : Fragment) : Nat := (names f.parts).idxOf f.entry

/-- The position of the node through which a fragment is left. -/
def exitIndex (f : Fragment) : Nat := (names f.parts).idxOf f.exit

/-- A copy of every node, in order. -/
def copies (f : Fragment) : List (Node Nat) := f.parts.map (copyOf (names f.parts))

end SlideFlow.Fragment
