/-
Closed vocabularies: the names a program knows for something, and the report of a name that is not
among them.
-/
import SlideFlow.Text.Quoted

namespace SlideFlow.Text

/-- A word that does not belong to a vocabulary. -/
structure UnknownWord where
  word : String
  vocabulary : String
  deriving DecidableEq, Repr

def UnknownWord.message (u : UnknownWord) : String :=
  s!"{quoted u.word} is not a valid {u.vocabulary}"

end SlideFlow.Text
