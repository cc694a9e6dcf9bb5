/-
Element trees of a slide. A name may carry a namespace in braces in front; everything but the
binding of shapes goes by the local name, the part after the last closing brace. A comment is a
node of the tree that has no name.
-/
import SlideFlow.Ordered

namespace SlideFlow.Markup

/-- A node of a slide's tree: an element with its full name, or a comment, which has none. -/
structure Element where
  tag? : Option String
  attrs : List (String × String)
  children : List Element
  deriving Repr, BEq, Inhabited

/-- The part of a name after its last closing brace. -/
def localName (name : String) : String :=
  String.ofList (name.toList.reverse.takeWhile (· ≠ '\x7d')).reverse

namespace Element

/-- A comment. What it says plays no part. -/
def comment : Element := { tag? := none, attrs := [], children := [] }

/-- The local name of an element; empty for a comment. -/
def name (e : Element) : String :=
  match e.tag? with
  | none => ""
  | some tag => localName tag

/-- The value of the attribute with exactly this name. -/
def exactAttr? (e : Element) (key : String) : Option String := Ordered.get? key e.attrs

/-- The value of the attribute with this name, or else of the first one with this local name. -/
def attr? (e : Element) (key : String) : Option String :=
  match e.exactAttr? key with
  | some v => some v
  | none => (e.attrs.find? fun (k, _) => localName k = key).map (·.2)

/-- The children with a local name. -/
def childrenNamed (e : Element) (key : String) : List Element :=
  e.children.filter (·.name = key)

/-- The first child with a local name. -/
def childNamed? (e : Element) (key : String) : Option Element :=
  e.children.find? (·.name = key)

/-- The first child that has a local name at all. -/
def firstElement? (e : Element) : Option Element :=
  e.children.find? (·.name ≠ "")

/-! ## Document order -/

mutual

/-- Every node of a tree in document order, each with its ancestors, nearest first. -/
def visits (above : List Element) : Element → List (Element × List Element)
  | ⟨tag?, attrs, children⟩ =>
    (⟨tag?, attrs, children⟩, above) :: visitsAll (⟨tag?, attrs, children⟩ :: above) children

/-- The nodes of several trees that share their ancestors. -/
def visitsAll (above : List Element) : List Element → List (Element × List Element)
  | [] => []
  | e :: rest => visits above e ++ visitsAll above rest

end

/-- Every node of a tree in document order, the root first. -/
def nodes (e : Element) : List Element := (visits [] e).map (·.1)

/-- The nodes with exactly this full name, in document order. -/
def nodesTagged (e : Element) (tag : String) : List Element :=
  e.nodes.filter (·.tag? = some tag)

/-! ## Messages -/

/-- An element as a message names it: its local name and its `id`, if it has one. -/
def describe (e : Element) : String :=
  let shown := if e.name = "" then "<non-element>" else e.name
  match e.attr? "id" with
  | none => s!"<{shown}>"
  | some "" => s!"<{shown}>"
  | some id => s!"<{shown} id={id}>"

/-- The place of an element that may be missing, as a message names it. -/
def describe? : Option Element → String
  | none => "<nothing>"
  | some e => e.describe

end Element

end SlideFlow.Markup
