/-
Changing a tree in one place. A place is the list of child positions that lead to it from the root;
comments count, and negative positions count from the last child. Nothing comes of a change in a
place that does not exist.
-/
import SlideFlow.Markup.Element
import SlideFlow.Position

namespace SlideFlow.Markup.Element

/-- Applies a change to the element at a place. -/
def modify? (change : Element → Option Element) : List Int → Element → Option Element
  | [], e => change e
  | i :: path, e => do
    let k ← position? e.children.length i
    let child ← modify? change path (← e.children[k]?)
    some { e with children := e.children.set k child }

/-- Adds a last child. -/
def append? (path : List Int) (child : Element) (e : Element) : Option Element :=
  e.modify? (fun e => some { e with children := e.children ++ [child] }) path

/-- Adds a child in front of the one at a position. -/
def insert? (path : List Int) (i : Int) (child : Element) (e : Element) : Option Element :=
  let change (e : Element) : Option Element :=
    let k := gap e.children.length i
    some { e with children := e.children.take k ++ child :: e.children.drop k }
  e.modify? change path

/-- Takes out the element at a place. The root stays. -/
def remove? (path : List Int) (e : Element) : Option Element := do
  let i ← path.getLast?
  let change (e : Element) : Option Element := do
    let k ← position? e.children.length i
    some { e with children := e.children.eraseIdx k }
  e.modify? change path.dropLast

/-- Gives an attribute a value: in its old place, or as the last one. -/
def setAttr? (path : List Int) (key value : String) (e : Element) : Option Element :=
  e.modify? (fun e => some { e with attrs := Ordered.put key value e.attrs }) path

end SlideFlow.Markup.Element
