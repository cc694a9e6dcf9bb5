/-
Flow fragments: pre-authored pieces of a flow, one for what a service does when it starts and one
for when it stops. A fragment lists its nodes and names the two through which it is entered and
left. Node names are unique, and entry, exit and every wire name a node of the fragment.
-/
import SlideFlow.Json.Basic

namespace SlideFlow.Fragment

open SlideFlow.Text

/-- A node of a fragment, as it is written. -/
structure Part where
  members : Ordered RawText Json
  deriving Repr, BEq

namespace Part

/-- A member that is a text. -/
def textOf (p : Part) (key : RawText) : RawText :=
  ((Ordered.get? key p.members).bind Json.text?).getD ""

def id (p : Part) : RawText := p.textOf "id"

def type (p : Part) : RawText := p.textOf "type"

/-- The texts of an array. -/
def portOf (v : Json) : List RawText := (v.arr?.getD []).filterMap Json.text?

/-- The names that the outputs are wired to, port by port. -/
def wires (p : Part) : List (List RawText) :=
  (((Ordered.get? ("wires" : RawText) p.members).bind Json.arr?).getD []).map portOf

/-- The members that a copy does not take over as they are: what a copy has of its own, and the tab
that the node stands on. -/
def ownKeys : List RawText := ["id", "type", "wires", "z"]

/-- The members that a copy takes over. -/
def properties (p : Part) : Ordered RawText Json :=
  p.members.filter fun (key, _) => !ownKeys.contains key

end Part

/-- The names of several nodes. -/
abbrev names (parts : List Part) : List RawText := parts.map Part.id

end SlideFlow.Fragment

namespace SlideFlow

open SlideFlow.Fragment SlideFlow.Text

structure Fragment where
  entry : RawText
  exit : RawText
  parts : List Part
  nodup : (names parts).Nodup
  entry_mem : entry ∈ names parts
  exit_mem : exit ∈ names parts
  closed : ∀ p ∈ parts, ∀ port ∈ p.wires, ∀ target ∈ port, target ∈ names parts

/-- The nodes of a fragment as they were written. -/
def Fragment.flow (f : Fragment) : Json := .arr (f.parts.map fun p => .obj p.members)

end SlideFlow
