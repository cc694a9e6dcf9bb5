/-
Whole numbers as settings and options give them: ASCII digits with an optional sign, single
underscores between digits, white space around the whole, and any number of zeros behind a point.

Leading zeros go first, together with the underscores among them. The digits that are left decide
whether the number is too long, and a minus sign may stand in front of them.
-/
import SlideFlow.Number.Integer

namespace SlideFlow.Number

open SlideFlow.Text

/-- What is left of a number without its sign when its leading zeros are gone. One zero stays if
nothing or a point follows. -/
def significant? (cs : List Char) : Option (List Char) :=
  let (zeros, rest) := cs.span fun c => c == '0' || c == '_'
  if zeros.head? = some '_' then none
  else
    match rest with
    | [] => if zeros.getLast? = some '0' then some ['0'] else none
    | '.' :: fraction => if zeros.getLast? = some '0' then some ('0' :: '.' :: fraction) else none
    | c :: more => if c.isDigit || c == '-' then some (c :: more) else none

/-- What stands in front of a point and the zeros behind it. -/
def beforePoint? (cs : List Char) : Option (List Char) :=
  match cs.span (· != '.') with
  | (whole, []) => some whole
  | (whole, _ :: zeros) => if !zeros.isEmpty && zeros.all (· == '0') then some whole else none

/-- Whether two underscores stand side by side. -/
def hasDoubleUnderscore : List Char → Bool
  | '_' :: '_' :: _ => true
  | _ :: rest => hasDoubleUnderscore rest
  | [] => false

/-- A text without its underscores, which have to stand one by one and not at an end. -/
def ungrouped? (cs : List Char) : Option (List Char) :=
  if cs.head? = some '_' || cs.getLast? = some '_' || hasDoubleUnderscore cs then none
  else some (cs.filter (· != '_'))

/-- The value of digits, of which the first is a zero only if it is the only one. -/
def digitsValue? (cs : List Char) : Option Nat :=
  if cs.all Char.isDigit && (cs == ['0'] || (!cs.isEmpty && cs.head? != some '0'))
      && decide (cs.length ≤ maxDigits) then
    some (decimalValue cs)
  else none

/-- The number that is left when leading zeros are gone. An underscore may separate its sign from
its digits. -/
def remaining? (cs : List Char) : Option Int := do
  match ← ungrouped? (← beforePoint? cs) with
  | '-' :: digits => (digitsValue? digits).map fun n => -(n : Int)
  | digits => (digitsValue? digits).map Int.ofNat

/-- Reads a whole number. -/
def readWhole? (s : String) : Option Int :=
  match trimBoth isMargin s.toList with
  | '+' :: '-' :: _ => none
  | '+' :: rest => (significant? rest).bind remaining?
  | '-' :: rest => (significant? rest).bind fun cs => remaining? ('-' :: cs)
  | cs => (significant? cs).bind remaining?

end SlideFlow.Number
