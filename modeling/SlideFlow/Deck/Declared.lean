/-
The capabilities that the shapes of a slide declare: the alternative text of a shape or else its
title. Only properties with a number as `id` count; a number that comes twice keeps its first place
and takes its last declaration.
-/
import SlideFlow.Markup.Exchange
import SlideFlow.Number.Integer
import SlideFlow.Service.Registry

namespace SlideFlow.Deck

open SlideFlow.Markup SlideFlow.Number SlideFlow.Service SlideFlow.Text

/-- An attribute that is there and not empty. -/
def filledAttr? (e : Element) (key : String) : Option String :=
  (e.exactAttr? key).filter (· ≠ "")

/-- The number of a shape, if its properties show one. -/
def shapeNumber? (properties : Element) : Option String :=
  (properties.exactAttr? "id").filter allShowDigits

/-- What the properties of a shape declare. -/
def declaration (properties : Element) : Option String :=
  (filledAttr? properties "descr").or (filledAttr? properties "title")

/-- The declarations of a slide in document order. -/
def declared (slide : Element) : Except IntegerFault Declared := do
  let found := (slide.nodesTagged (fullName "p:cNvPr")).filterMap fun e =>
    (shapeNumber? e).map fun number => (number, declaration e)
  let pairs ← found.mapM fun (number, name) => do
    return (← readInteger number, name)
  return Ordered.ofList pairs

end SlideFlow.Deck
