/-
A presentation document: its slides in order, each with its element tree and the text of its title
shape, if it has one. A document may fail to open.
-/
import SlideFlow.Markup.Element
import SlideFlow.Text.Quoted

namespace SlideFlow.Deck

open SlideFlow.Markup SlideFlow.Text

structure Slide where
  element : Element
  title : Option String
  deriving Repr, BEq

/-- The slides of a presentation. -/
abbrev Document := List Slide

/-- Why a document does not open. -/
inductive OpenFault where
  /-- It is no presentation; the text says why. -/
  | unreadable (why : String)
  /-- A part that has to be there is missing. -/
  | missingPart (name : String)
  /-- The reader of documents broke down. -/
  | breakdown
  deriving DecidableEq, Repr

/-- What the report of a fault says. -/
def OpenFault.text : OpenFault → String
  | .unreadable why => why
  | .missingPart name => quoted name
  | .breakdown => ""

/-- A document, or why it does not open. -/
abbrev Opened := Except OpenFault Document

end SlideFlow.Deck
