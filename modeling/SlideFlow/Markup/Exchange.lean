/-
Element trees as JSON. An element is an object with a `tag`, `attrs` as pairs of a name and a value,
and `children`; a comment is an object with a `comment`. What is left out is empty. A name that
starts with `p:` stands in the namespace of presentations; of an attribute given twice the first
place and the last value count.
-/
import SlideFlow.Json.Basic
import SlideFlow.Markup.Element

namespace SlideFlow.Markup

open SlideFlow.Text

/-- The namespace of presentations, in braces. -/
def presentationSpace : String :=
  "\x7bhttp://schemas.openxmlformats.org/presentationml/2006/main\x7d"

/-- A name with the short form of the namespace of presentations written out. -/
def fullName (name : String) : String :=
  match name.toList with
  | 'p' :: ':' :: rest => presentationSpace ++ String.ofList rest
  | _ => name

/-- A pair of an attribute's name and its value. -/
def attrOfJson? : Json → Option (String × String)
  | .arr [name, value] => do some (fullName (← name.str?), ← value.str?)
  | _ => none

/-- The attributes among the members of an object. -/
def attrsOfMembers (members : List (RawText × Json)) : List (String × String) :=
  match Ordered.get? ("attrs" : RawText) members with
  | some (.arr items) => Ordered.ofList (items.filterMap attrOfJson?)
  | _ => []

mutual

/-- The tree that a JSON value stands for. -/
def Element.ofJson : Json → Element
  | .obj members =>
    match (Ordered.get? ("comment" : RawText) members).bind Json.str?,
      (Ordered.get? ("tag" : RawText) members).bind Json.str? with
    | some _, _ => .comment
    | _, some tag =>
      ⟨some (fullName tag), attrsOfMembers members, childrenOfMembers members⟩
    | _, _ => ⟨some "", attrsOfMembers members, childrenOfMembers members⟩
  | _ => .comment

/-- The children among the members of an object. -/
def childrenOfMembers : List (RawText × Json) → List Element
  | [] => []
  | (key, v) :: rest => if key = "children" then childrenOfValue v else childrenOfMembers rest

def childrenOfValue : Json → List Element
  | .arr items => childrenOfItems items
  | _ => []

def childrenOfItems : List Json → List Element
  | [] => []
  | v :: rest => Element.ofJson v :: childrenOfItems rest

end

/-- A tree that may be missing. -/
def Element.ofJson? : Json → Option Element
  | .null => none
  | v => some (.ofJson v)

end SlideFlow.Markup
