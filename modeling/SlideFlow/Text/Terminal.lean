/-
Control sequences of terminals: an escape character and an opening bracket, then digits, semicolons
and question marks, then a letter. A report leaves them out, so that a name in it cannot drive the
terminal it is shown on.
-/

namespace SlideFlow.Text

/-- A character between the bracket and the letter of a control sequence. -/
def isParameter (c : Char) : Bool := c.isDigit || c == ';' || c == '?'

/-- The length of the control sequence in front; zero if there is none. -/
def controlLength : List Char → Nat
  | '\x1b' :: '[' :: rest =>
    match rest.span isParameter with
    | (parameters, c :: _) => if c.isAlpha then parameters.length + 3 else 0
    | (_, []) => 0
  | _ => 0

/-- The text behind its first `skip` characters, without its control sequences. -/
def withoutControlsFrom : Nat → List Char → List Char
  | _, [] => []
  | skip + 1, _ :: rest => withoutControlsFrom skip rest
  | 0, c :: rest =>
    match controlLength (c :: rest) with
    | 0 => c :: withoutControlsFrom 0 rest
    | n + 1 => withoutControlsFrom n rest

/-- A text without its control sequences. What is left may form new ones. -/
def withoutControls (s : String) : String := String.ofList (withoutControlsFrom 0 s.toList)

end SlideFlow.Text
