/-
Documents as JSON: an object whose `slides` each have an `element` and, if the slide has a title
shape, the text of it as `title`.
-/
import SlideFlow.Deck.Document
import SlideFlow.Markup.Exchange

namespace SlideFlow.Deck

open SlideFlow.Markup

def Slide.ofJson (v : Json) : Slide where
  element := .ofJson ((v.get? "element").getD .null)
  title := (v.get? "title").bind Json.str?

/-- The document that a JSON value stands for. -/
def Document.ofJson? (v : Json) : Option Document :=
  ((v.get? "slides").bind Json.arr?).map fun slides => slides.map Slide.ofJson

end SlideFlow.Deck
