/-
JSON values. A whole number keeps every digit; a number with a fraction or an exponent is a
binary64 value, and so are the two infinities and not-a-number, which the reader accepts. A text keeps
every letter, also halves of characters. The members of an object keep their order.
-/
import SlideFlow.Number.Binary64
import SlideFlow.Ordered
import SlideFlow.Text.Raw

namespace SlideFlow

open SlideFlow.Number SlideFlow.Text

inductive Json where
  | null
  | bool (b : Bool)
  | int (n : Int)
  | float (x : Binary64)
  | str (s : RawText)
  | arr (items : List Json)
  | obj (members : List (RawText × Json))
  deriving Repr, BEq, Inhabited

namespace Json

/-- The value of an object's member. -/
def get? (key : RawText) : Json → Option Json
  | .obj members => Ordered.get? key members
  | _ => none

def text? : Json → Option RawText
  | .str s => some s
  | _ => none

/-- A text that holds no half of a character. -/
def str? (v : Json) : Option String := v.text?.bind RawText.encode?

def arr? : Json → Option (List Json)
  | .arr items => some items
  | _ => none

def obj? : Json → Option (List (RawText × Json))
  | .obj members => some members
  | _ => none

def int? : Json → Option Int
  | .int n => some n
  | _ => none

end Json

end SlideFlow
